import Mathlib.Logic.Function.Basic
import DTun.Lib.Runs

/-!
# The fast rendezvous

`RendezvousFastSession` on both sides of a connection, the part of `DMasterClient` that
feeds it, and the server that relays between them. The owner asks the peer to get ready,
the peer opens a socket and says `HELLO_FAST` from it, the server tells the owner the
address, the owner does the same in turn, and both ping each other with a growing TTL. At
TTL 65 the owner gives up its socket and asks again, twice at most.

A run starts when both sides have their session, the owner by `PENDING` and the peer by
`CONN`. A handler is one step. What the environment answers (whether ports are free, which
address a new socket has, whether a socket can be made or bound) is part of the event.
Addresses are as the server sees them. Left out are the logs and the pings that are
ignored because of what they contain.
-/

namespace DTun.Node.FastSession

abbrev Addr := Nat

/-- `portReservation_`: null, waiting in the allocator's queue, or with its ports. -/
inductive Reservation where
  | null
  | queued
  | granted
  deriving DecidableEq, Repr

/-- A message to the server about the connection. -/
inductive Up where
  | ready
  | next
  | close (established : Bool)
  deriving DecidableEq, Repr

/-- A message of the server about the connection. A status is `ESTABLISHED` or an error. -/
inductive Down where
  | ready
  | next
  | fast (addr : Addr)
  | status (established : Bool)
  deriving DecidableEq, Repr

/-- What the environment answers in a handler: the allocator has two ports, the address of
the new socket if there is one, the session for `HELLO_FAST` starts, the socket of a
finished rendezvous can be bound. -/
structure Env where
  ports : Bool := true
  socket : Option Addr := none
  hello : Bool := true
  bound : Bool := true
  deriving DecidableEq, Repr

structure Session where
  owner : Bool
  bestEffort : Bool
  started : Bool := false
  ready : Bool := false
  stepIdx : Nat := 0
  ttl : Nat := 2
  next : Bool := true
  callback : Bool := false
  /-- `destIp_` and `destPort_`, unless `destIp_` is 0. -/
  dest : Option Addr := none
  portReservation : Reservation := .null
  portReservationNext : Reservation := .null
  masterHandle : Bool := false
  /-- The socket of `pingConn_`. -/
  pingConn : Option Addr := none
  /-- `onHelloSend` is still to come. -/
  helloPending : Bool := false
  /-- `onRecvPing` is waiting for a ping. -/
  reading : Bool := false
  /-- How many `onPingSend` are still to come. -/
  writes : Nat := 0
  /-- How many `onCheckStartTimeout` are posted. -/
  checkTimers : Nat := 0
  /-- How many `onPingTimeout` are posted. -/
  pingTimers : Nat := 0
  deriving DecidableEq, Repr

/-- What a handler of the session leaves behind and sends. `done` is the call of
`callback_`, with or without an error. -/
structure Out where
  sess : Session
  sent : List Up := []
  hello : Option Addr := none
  ping : Option (Addr × Addr) := none
  done : Option Bool := none

namespace Session

/-- `callback_` is called with an error. -/
def fail (s : Session) : Out := { sess := { s with callback := false }, done := some false }

/-- The end of `onPortReservation`: a socket, and `HELLO_FAST` from it. -/
def openSocket (s : Session) (env : Env) : Out :=
  match env.socket with
  | none => s.fail
  | some addr =>
    let s := { s with pingConn := some addr, reading := false, writes := 0, helloPending := true }
    if env.hello then
      { sess := { s with checkTimers := s.checkTimers + 1 }, hello := some addr }
    else s.fail

/-- The owner leaves its socket behind and asks the peer again. -/
def nextAttempt (s : Session) : Out :=
  { sess := { s with
      stepIdx := s.stepIdx + 1, ttl := 2, next := true, masterHandle := false
      helloPending := false, portReservation := s.portReservationNext
      portReservationNext := .null, pingConn := none, reading := false, writes := 0 }
    sent := [.ready] }

def onPortReservation (s : Session) (env : Env) : Out :=
  if !s.callback then { sess := s }
  else if !s.ready then
    if s.owner then { sess := { s with ready := true }, sent := [.ready] } else { sess := s }
  else if s.owner && s.portReservationNext ≠ .null then s.nextAttempt
  else s.openSocket env

/-- `none` when `start` returns false. -/
def start (s : Session) (env : Env) : Option Out :=
  let s := { s with started := true, callback := true }
  if s.owner then
    if s.bestEffort then some { sess := { s with portReservation := .queued } }
    else if env.ports then
      some { sess := { s with portReservation := .granted }, sent := [.ready] }
    else none
  else if !s.ready then some { sess := s }
  else if s.bestEffort then some { sess := { s with portReservation := .queued } }
  else if env.ports then
    let out := openSocket { s with portReservation := .granted } env
    if out.done.isSome then none else some out
  else none

/-- The allocator has granted the reservation, or the next one, and calls back. -/
def onGranted (s : Session) (next : Bool) (env : Env) : Option Out :=
  if next then
    if s.portReservationNext = .queued then
      some (onPortReservation { s with portReservationNext := .granted } env)
    else none
  else
    if s.portReservation = .queued then
      some (onPortReservation { s with portReservation := .granted } env)
    else none

/-- The peer drops everything of the last attempt, posted handlers included. -/
def restart (s : Session) : Session :=
  { s with
    stepIdx := s.stepIdx + 1, ttl := 2, next := true, masterHandle := false
    helloPending := false, portReservation := .null, pingConn := none, reading := false
    writes := 0, checkTimers := 0, pingTimers := 0, dest := none }

def onReady (s : Session) (env : Env) : Out :=
  let s := { s with ready := true }
  if !s.started || !s.callback then { sess := s }
  else
    let s := if !s.owner && s.portReservation ≠ .null then s.restart else s
    if s.bestEffort then { sess := { s with portReservation := .queued } }
    else if env.ports then onPortReservation { s with portReservation := .granted } env
    else fail { s with portReservation := .null }

def onFast (s : Session) (addr : Addr) (env : Env) : Out :=
  if !s.callback then { sess := s }
  else
    let s := { s with dest := some addr }
    if s.owner then s.onPortReservation env else { sess := s }

def onNext (s : Session) : Out := { sess := { s with next := true } }

/-- What `onEstablished` relies on while `callback_` is set. -/
def Usable (s : Session) : Prop :=
  s.dest.isSome = true ∧ s.pingConn.isSome = true ∧ s.portReservation = .granted

instance (s : Session) : Decidable s.Usable :=
  inferInstanceAs (Decidable (_ ∧ _ ∧ _))

def onEstablished (s : Session) : Out :=
  if s.callback then { sess := { s with callback := false }, done := some true }
  else { sess := s }

def onHelloSend (s : Session) (ok : Bool) : Out :=
  let s := { s with helloPending := false }
  if !s.callback then { sess := s }
  else if ok then { sess := { s with masterHandle := true } }
  else s.fail

def onPingSend (s : Session) (ok : Bool) : Out :=
  let s := { s with writes := s.writes - 1 }
  if !s.callback then { sess := s }
  else if ok then { sess := s, sent := [.next] }
  else s.fail

/-- A ping from `src`, or a read error. -/
def onRecvPing (s : Session) (src : Option Addr) : Out :=
  if !s.callback || s.dest.isNone then { sess := { s with reading := false } }
  else
    match src with
    | none => s.fail
    | some _ =>
      if src = s.dest then
        { sess := { s with callback := false, reading := false }, done := some true }
      else { sess := s }

def onCheckStartTimeout (s : Session) (canReuse : Bool) : Out :=
  let s := { s with checkTimers := s.checkTimers - 1 }
  if !s.callback then { sess := s }
  else if s.dest.isSome && s.masterHandle && canReuse then
    { sess := { s with reading := true, pingTimers := s.pingTimers + 1 } }
  else { sess := { s with checkTimers := s.checkTimers + 1 } }

/-- The ping that is sent. -/
def pingOf (s : Session) : Option (Addr × Addr) :=
  match s.pingConn, s.dest with
  | some src, some dst => some (src, dst)
  | _, _ => none

def onPingTimeout (s : Session) (env : Env) : Out :=
  let s := { s with pingTimers := s.pingTimers - 1 }
  if !s.callback then { sess := s }
  else if !s.next then { sess := { s with pingTimers := s.pingTimers + 1 } }
  else
    let ping := s.pingOf
    let s := { s with writes := s.writes + 1, next := false, ttl := s.ttl + 1 }
    if s.owner && s.ttl = 65 then
      if s.stepIdx = 2 then { s.fail with ping := ping }
      else if s.bestEffort then
        { sess := { s with portReservationNext := .queued }, ping := ping }
      else if env.ports then
        { onPortReservation { s with portReservationNext := .granted } env with ping := ping }
      else { fail { s with portReservationNext := .null } with ping := ping }
    else { sess := { s with pingTimers := s.pingTimers + 1 }, ping := ping }

end Session

inductive Side where
  | owner
  | peer
  deriving DecidableEq, Repr

def Side.other : Side → Side
  | .owner => .peer
  | .peer => .owner

theorem Side.other_other (i : Side) : i.other.other = i := by cases i <;> rfl

theorem Side.other_ne (i : Side) : i.other ≠ i := by cases i <;> decide

@[simp] theorem Side.other_owner : Side.owner.other = .peer := rfl

@[simp] theorem Side.other_peer : Side.peer.other = .owner := rfl

/-- One value for each side. -/
structure Pair (α : Type) where
  owner : α
  peer : α

namespace Pair

variable {α : Type}

def get (p : Pair α) : Side → α
  | .owner => p.owner
  | .peer => p.peer

def set (p : Pair α) (i : Side) (x : α) : Pair α :=
  match i with
  | .owner => { p with owner := x }
  | .peer => { p with peer := x }

@[simp] theorem get_owner (p : Pair α) : p.get .owner = p.owner := rfl

@[simp] theorem get_peer (p : Pair α) : p.get .peer = p.peer := rfl

@[simp] theorem set_owner (p : Pair α) (x : α) : p.set .owner x = { p with owner := x } := rfl

@[simp] theorem set_peer (p : Pair α) (x : α) : p.set .peer x = { p with peer := x } := rfl

theorem set_get (p : Pair α) (i : Side) : p.set i (p.get i) = p := by cases i <;> rfl

theorem set_set (p : Pair α) (i : Side) (x y : α) : (p.set i x).set i y = p.set i y := by
  cases i <;> rfl

theorem get_set (p : Pair α) (i : Side) (x : α) : (p.set i x).get i = x := by cases i <;> rfl

end Pair

/-- The entry of the connection in `connStates_`: its session, which is gone once the
rendezvous is over, and whether its status is `Established`. -/
structure Entry where
  rSess : Option Session
  established : Bool := false

structure State where
  entry : Pair Entry
  /-- The server's `conns_` has the connection. -/
  conn : Bool
  up : Pair (List Up)
  down : Pair (List Down)
  /-- `HELLO_FAST` on its way to the server, each on a connection of its own. -/
  hellos : List (Side × Addr)
  /-- Pings on their way, with source and destination. -/
  pings : List (Addr × Addr)

def State.init (bestEffort : Bool) : State where
  entry :=
    { owner := { rSess := some { owner := true, bestEffort := bestEffort } }
      peer := { rSess := some { owner := false, bestEffort := bestEffort } } }
  conn := true
  up := { owner := [], peer := [] }
  down := { owner := [], peer := [] }
  hellos := []
  pings := []

inductive Event where
  /-- `processRendezvous` starts the session. -/
  | start (i : Side) (env : Env)
  | granted (i : Side) (next : Bool) (env : Env)
  | helloSent (i : Side) (ok : Bool)
  | checkStart (i : Side) (canReuse : Bool)
  | pingTimeout (i : Side) (env : Env)
  | pingSent (i : Side) (ok : Bool)
  /-- A ping from `src` arrives at the socket of the side. -/
  | recvPing (i : Side) (src : Addr) (env : Env)
  | readError (i : Side)
  /-- A side reads a message of the server. -/
  | deliver (i : Side) (env : Env)
  /-- The user of the owner closes the connection. -/
  | closeConnection
  /-- The server reads a message of a side. -/
  | serve (i : Side)
  /-- The server reads a `HELLO_FAST`. -/
  | serveHello (k : Nat)
  | loseHello (k : Nat)
  | losePing (k : Nat)
  /-- The server loses the side's persistent session. -/
  | disconnect (i : Side)
  deriving DecidableEq, Repr

namespace State

def sess (n : State) (i : Side) : Option Session := (n.entry.get i).rSess

/-- `DMasterClient::onRendezvous`, where `ok` says that there is a socket in the end. -/
def onRendezvous (n : State) (i : Side) (ok : Bool) : State :=
  let established := (n.entry.get i).established
  { n with
    entry := n.entry.set i { rSess := none, established := ok || established }
    up := n.up.set i (n.up.get i ++
      if ok then (if established then [] else [.close true]) else [.close established]) }

/-- A handler of the session, with the call of `callback_` if there is one. -/
def act (n : State) (i : Side) (env : Env) (out : Out) : State :=
  let n := { n with
    entry := n.entry.set i { n.entry.get i with rSess := some out.sess }
    up := n.up.set i (n.up.get i ++ out.sent)
    hellos := n.hellos ++ (out.hello.map (fun addr => (i, addr))).toList
    pings := n.pings ++ out.ping.toList }
  match out.done with
  | none => n
  | some ok => n.onRendezvous i (ok && env.bound)

/-- The side reads `msg`. A session gets the messages of the other side only while the
status is not `Established`. -/
def recv (n : State) (i : Side) (env : Env) (msg : Down) : State :=
  match n.sess i with
  | none => n
  | some s =>
    match msg with
    | .ready => if (n.entry.get i).established then n else n.act i env (s.onReady env)
    | .next => if (n.entry.get i).established then n else n.act i env s.onNext
    | .fast addr => if (n.entry.get i).established then n else n.act i env (s.onFast addr env)
    | .status true =>
      act { n with entry := n.entry.set i { n.entry.get i with established := true } } i env
        s.onEstablished
    | .status false => { n with entry := n.entry.set i { n.entry.get i with rSess := none } }

/-- The server reads `msg`. -/
def relay (n : State) (i : Side) (msg : Up) : State :=
  if n.conn then
    match msg with
    | .ready => { n with down := n.down.set i.other (n.down.get i.other ++ [.ready]) }
    | .next => { n with down := n.down.set i.other (n.down.get i.other ++ [.next]) }
    | .close established =>
      { n with
        down := n.down.set i.other (n.down.get i.other ++ [.status established])
        conn := false }
  else n

/-- `none` when the event cannot happen. -/
def step (n : State) : Event → Option State
  | .start i env => (n.sess i).bind fun s =>
    if s.started then none
    else
      match s.start env with
      | some out => some (n.act i env out)
      | none => some { n with
          entry := n.entry.set i { n.entry.get i with rSess := none }
          up := n.up.set i (n.up.get i ++ [.close false]) }
  | .granted i next env =>
    (n.sess i).bind fun s => (s.onGranted next env).map (n.act i env)
  | .helloSent i ok => (n.sess i).bind fun s =>
    if s.helloPending then some (n.act i {} (s.onHelloSend ok)) else none
  | .checkStart i canReuse => (n.sess i).bind fun s =>
    if 0 < s.checkTimers then some (n.act i {} (s.onCheckStartTimeout canReuse)) else none
  | .pingTimeout i env => (n.sess i).bind fun s =>
    if 0 < s.pingTimers then some (n.act i env (s.onPingTimeout env)) else none
  | .pingSent i ok => (n.sess i).bind fun s =>
    if 0 < s.writes then some (n.act i {} (s.onPingSend ok)) else none
  | .recvPing i src env => (n.sess i).bind fun s => s.pingConn.bind fun addr =>
    if s.reading ∧ (src, addr) ∈ n.pings then some (n.act i env (s.onRecvPing (some src)))
    else none
  | .readError i => (n.sess i).bind fun s =>
    if s.reading then some (n.act i {} (s.onRecvPing none)) else none
  | .deliver i env =>
    match n.down.get i with
    | [] => none
    | msg :: rest => some (recv { n with down := n.down.set i rest } i env msg)
  | .closeConnection => (n.sess .owner).map fun _ =>
    { n with
      entry := n.entry.set .owner { n.entry.get .owner with rSess := none }
      up := n.up.set .owner (n.up.get .owner ++
        if (n.entry.get .owner).established then [] else [.close false]) }
  | .serve i =>
    match n.up.get i with
    | [] => none
    | msg :: rest => some (relay { n with up := n.up.set i rest } i msg)
  | .serveHello k => (n.hellos[k]?).map fun (i, addr) =>
    { n with
      hellos := n.hellos.eraseIdx k
      down := if n.conn then n.down.set i.other (n.down.get i.other ++ [.fast addr]) else n.down }
  | .loseHello k => some { n with hellos := n.hellos.eraseIdx k }
  | .losePing k => some { n with pings := n.pings.eraseIdx k }
  | .disconnect i =>
    some { n with
      conn := false
      down := if n.conn then n.down.set i.other (n.down.get i.other ++ [.status false])
        else n.down }

abbrev Run (bestEffort : Bool) (es : List Event) (n : State) : Prop :=
  Lib.Runs.exec step (init bestEffort) es = some n

end State

end DTun.Node.FastSession
