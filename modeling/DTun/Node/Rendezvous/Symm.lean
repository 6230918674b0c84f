import DTun.Node.Rendezvous.SymmAcc
import DTun.Node.Rendezvous.SymmConn

/-!
# The symmetric rendezvous of a connection

`RendezvousSymmAccSession` on one side and `RendezvousSymmConnSession` on the other, the part of
`DMasterClient` that starts them, feeds them and hears their callback, and the server that relays
READY, NEXT and the end of the connection, all in order. Either side may own the connection. A
run begins when both sides have their session; the other side's READY may come before a session
is started.

Handlers are atomic, and every answer of the allocator and the reactor, errors included, is part
of the event. Pings reach the accepting side from anywhere and with anything in them. Final pings
reach the connecting side only once they have been sent, then as often as they like.
-/

namespace DTun.Node.Rendezvous.Symm

open SymmAcc (Acc)
open SymmConn (Conn)

/-- A message to the server about the connection. -/
inductive Up where
  | ready
  | next
  | close (established : Bool)
  deriving DecidableEq, Repr

/-- A message of the server about the connection. A status is `ESTABLISHED` or an error. -/
inductive Down where
  | ready
  | next
  | symm (ip port : Nat)
  | status (established : Bool)
  deriving DecidableEq, Repr

/-- The entry of the connection in `connStates_`: its session, which is gone once the rendezvous
is over, and whether its status is `Established`. -/
structure Entry (φ : Type) where
  rSess : Option (Session φ)
  established : Bool := false

/-- `failed` says that an assertion has failed or a null pointer was dereferenced, `finalSent`
that the accepting side has sent a final ping, and `pinged` are the ports that it has pinged
otherwise. The source has none of the three. -/
structure State where
  acc : Entry SymmAcc.Fields
  conn : Entry SymmConn.Fields
  /-- The server's `conns_` has the connection. -/
  registered : Bool := true
  accUp : List Up := []
  accDown : List Down := []
  connUp : List Up := []
  connDown : List Down := []
  /-- How many `HELLO_SYMM` are on their way to the server. -/
  hellos : Nat := 0
  finalSent : Bool := false
  pinged : List Nat := []
  failed : Bool := false

/-- `accOwner` says that the accepting side owns the connection. -/
def State.init (accOwner accBestEffort connBestEffort : Bool) (destIp : Nat) (ports : List Nat) :
    State :=
  let acc : Acc :=
    { owner := accOwner, bestEffort := accBestEffort, own := { ports := ports, destIp := destIp } }
  let conn : Conn := { owner := !accOwner, bestEffort := connBestEffort, own := {} }
  { acc := { rSess := some acc }, conn := { rSess := some conn } }

section Out

variable {φ : Type}

/-- What `DMasterClient` and the session write to the server for an act of the session. The
callback is `onRendezvous`. -/
def upOf (established : Bool) : Act → List Up
  | .ready => [.ready]
  | .next => [.next]
  | .done err _ =>
    if err = 0 then (if established then [] else [.close true]) else [.close established]
  | _ => []

/-- All that is written after a handler; a `start` that returned false closes the connection. -/
def sends (established : Bool) (s : Session φ) : List Up :=
  s.acts.flatMap (upOf established) ++ if s.refused then [.close false] else []

/-- The session has called its callback or could not be started. -/
def gone (s : Session φ) : Bool := s.acts.any Act.isDone || s.refused

/-- The entry after a handler. -/
def Entry.after (e : Entry φ) (s : Session φ) : Entry φ where
  rSess := if gone s then none else some { s with acts := [] }
  established := e.established || s.acts.any fun
    | .done err _ => err = 0
    | _ => false

/-- The ports that are pinged, the final pings apart. -/
def pingOf : Act → Option Nat
  | .ping _ port false => some port
  | _ => none

def isFinal : Act → Bool
  | .ping _ _ true => true
  | _ => false

end Out

namespace State

/-- A handler of the accepting side. -/
def accAct (n : State) (r : SymmAcc.AccRes) : State :=
  match r with
  | .error s => { n with acc := { n.acc with rSess := some s }, failed := true }
  | .ok s =>
    { n with
      acc := n.acc.after s
      accUp := n.accUp ++ sends n.acc.established s
      hellos := n.hellos + s.acts.count .hello
      finalSent := n.finalSent || s.acts.any isFinal
      pinged := n.pinged ++ s.acts.filterMap pingOf }

/-- A handler of the connecting side. -/
def connAct (n : State) (r : SymmConn.ConnRes) : State :=
  match r with
  | .error s => { n with conn := { n.conn with rSess := some s }, failed := true }
  | .ok s =>
    { n with conn := n.conn.after s, connUp := n.connUp ++ sends n.conn.established s }

/-- The accepting side reads `msg`. A session gets the messages of the other side only while
the status is not `Established`. -/
def accRecv (n : State) (env : Env) (msg : Down) : State :=
  match n.acc.rSess with
  | none => n
  | some s =>
    match msg with
    | .ready => if n.acc.established then n else n.accAct (Acc.onMsg s .ready env)
    | .next => if n.acc.established then n else n.accAct (Acc.onMsg s .next env)
    | .symm ip port => if n.acc.established then n else n.accAct (Acc.onMsg s (.symm ip port) env)
    | .status true => { n with acc := { n.acc with established := true } }
    | .status false => { n with acc := { n.acc with rSess := none } }

/-- The connecting side reads `msg`. -/
def connRecv (n : State) (env : Env) (msg : Down) : State :=
  match n.conn.rSess with
  | none => n
  | some s =>
    match msg with
    | .ready => if n.conn.established then n else n.connAct (Conn.onMsg s .ready env)
    | .next => if n.conn.established then n else n.connAct (Conn.onMsg s .next env)
    | .symm ip port =>
      if n.conn.established then n else n.connAct (Conn.onMsg s (.symm ip port) env)
    | .status true =>
      connAct { n with conn := { n.conn with established := true } } (Conn.onEstablished s)
    | .status false => { n with conn := { n.conn with rSess := none } }

/-- What the server sends on. -/
def relayed : Up → Down
  | .ready => .ready
  | .next => .next
  | .close established => .status established

/-- After a close the server knows the connection no longer. -/
def stays : Up → Bool
  | .close _ => false
  | _ => true

/-- The server reads `msg` of the accepting side. -/
def accRelay (n : State) (msg : Up) : State :=
  if n.registered then
    { n with connDown := n.connDown ++ [relayed msg], registered := stays msg }
  else n

/-- The server reads `msg` of the connecting side. -/
def connRelay (n : State) (msg : Up) : State :=
  if n.registered then
    { n with accDown := n.accDown ++ [relayed msg], registered := stays msg }
  else n

end State

inductive Event where
  /-- `processRendezvous` starts the session. -/
  | accStart (env : Env)
  | connStart (env : Env)
  | accGranted (ports : List (Nat × PortAllocator.TimePoint)) (env : Env)
  | connGranted (ports : List (Nat × PortAllocator.TimePoint))
  | helloSent (err : Int)
  | accPingSent (err : Int) (env : Env)
  | connPingSent (err : Int) (env : Env)
  | accRecvPing (err : Int) (bytes : List UInt8) (ip port : Nat)
  | connRecvPing (err : Int) (bytes : List UInt8) (ip connIdx : Nat)
  | nextTimeout
  | checkStart (canReuse : Bool) (env : Env)
  | sendFinal (cnt : Nat) (env : Env)
  | establishedTimeout
  /-- A side reads a message of the server. -/
  | accDeliver (env : Env)
  | connDeliver (env : Env)
  /-- The server reads a message of a side. -/
  | accServe
  | connServe
  /-- The server reads a `HELLO_SYMM` and tells the connecting side where it came from. -/
  | serveHello (ip port : Nat)
  /-- The user of the owner closes the connection. -/
  | accClose
  | connClose

namespace State

/-- `none` when the event cannot happen. -/
def step (n : State) : Event → Option State
  | .accStart env => n.acc.rSess.bind fun s =>
    if s.started then none else some (n.accAct (Acc.start s env))
  | .connStart env => n.conn.rSess.bind fun s =>
    if s.started then none else some (n.connAct (Conn.start s env))
  | .accGranted ports env => n.acc.rSess.bind fun s =>
    if s.portReservation = some .queued ∧ ports ≠ [] then
      some (n.accAct (Acc.onGranted s ports env))
    else none
  | .connGranted ports => n.conn.rSess.bind fun s =>
    if s.portReservation = some .queued ∧ ports ≠ [] then
      some (n.connAct (Conn.onGranted s ports))
    else none
  | .helloSent err => n.acc.rSess.bind fun s =>
    if s.own.helloPending then some (n.accAct (Acc.onHelloSend s err)) else none
  | .accPingSent err env => n.acc.rSess.bind fun s =>
    if 0 < s.own.writes then some (n.accAct (Acc.onPingSend s err env)) else none
  | .connPingSent err env => n.conn.rSess.bind fun s =>
    if 0 < s.own.writes then some (n.connAct (Conn.onPingSend s err env)) else none
  | .accRecvPing err bytes ip port => n.acc.rSess.bind fun s =>
    if s.own.reading then some (n.accAct (Acc.onRecvPing s err bytes ip port)) else none
  | .connRecvPing err bytes ip connIdx => n.conn.rSess.bind fun s =>
    if connIdx < s.own.pingConns ∧ (bytes = pingBytes 0xEE → n.finalSent = true) then
      some (n.connAct (Conn.onRecvPing s err bytes ip connIdx))
    else none
  | .nextTimeout => n.acc.rSess.bind fun s =>
    if 0 < s.own.nextTimers then some (n.accAct (Acc.onNextTimeout s)) else none
  | .checkStart canReuse env => n.acc.rSess.bind fun s =>
    if 0 < s.own.checkTimers then some (n.accAct (Acc.onCheckStartTimeout s canReuse env))
    else none
  | .sendFinal cnt env => n.acc.rSess.bind fun s =>
    if cnt ∈ s.own.finalTimers then some (n.accAct (Acc.onSendFinalTimeout s cnt env)) else none
  | .establishedTimeout => n.conn.rSess.bind fun s =>
    if 0 < s.own.establishedTimers then some (n.connAct (Conn.onEstablishedTimeout s)) else none
  | .accDeliver env =>
    match n.accDown with
    | [] => none
    | msg :: rest => some (accRecv { n with accDown := rest } env msg)
  | .connDeliver env =>
    match n.connDown with
    | [] => none
    | msg :: rest => some (connRecv { n with connDown := rest } env msg)
  | .accServe =>
    match n.accUp with
    | [] => none
    | msg :: rest => some (accRelay { n with accUp := rest } msg)
  | .connServe =>
    match n.connUp with
    | [] => none
    | msg :: rest => some (connRelay { n with connUp := rest } msg)
  | .serveHello ip port =>
    if 0 < n.hellos then
      some { n with
        hellos := n.hellos - 1
        connDown := if n.registered then n.connDown ++ [.symm ip port] else n.connDown }
    else none
  | .accClose => n.acc.rSess.bind fun s =>
    if s.owner then
      some { n with
        acc := { n.acc with rSess := none }
        accUp := n.accUp ++ if n.acc.established then [] else [.close false] }
    else none
  | .connClose => n.conn.rSess.bind fun s =>
    if s.owner then
      some { n with
        conn := { n.conn with rSess := none }
        connUp := n.connUp ++ if n.conn.established then [] else [.close false] }
    else none

def isTurn : Down → Bool
  | .ready => true
  | .next => true
  | _ => false

/-- How many READY and NEXT have been sent and not been read, by the server or by the other
side. -/
def inFlight (n : State) : Nat :=
  (n.accUp.map relayed ++ n.connDown ++ n.connUp.map relayed ++ n.accDown).countP isTurn

end State

end DTun.Node.Rendezvous.Symm
