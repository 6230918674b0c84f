import DTun.Node.Rendezvous.Session

/-!
# The connecting side of the symmetric rendezvous

`RendezvousSymmConnSession`: it holds 300 sockets, and for each NEXT it pings the other side
from all of them. It asks for ports anew whenever the other side is ready, and is done when
one of its sockets gets the final ping.
-/

namespace DTun.Node.Rendezvous.SymmConn

def windowSize : Nat := 300

/-- `pingConns` is the size of `pingConns_`. The last two are how many `onPingSend` are to come
and how many `onEstablishedTimeout` are posted. -/
structure Fields where
  pingConns : Nat := 0
  numPingSent : Nat := 0
  destIp : Nat := 0
  destPort : Nat := 0
  writes : Nat := 0
  establishedTimers : Nat := 0
  deriving DecidableEq, Repr

abbrev Conn := Session Fields

abbrev ConnRes := Res Fields

namespace Conn

/-- The end of `start`: ports or no start. -/
def startReady (s : Conn) (env : Env) : ConnRes :=
  let s := s.reserve windowSize env
  if s.portReservation.isNone then .ok { s with refused := true } else .ok (s.act .ready)

/-- `callback_` is set only when all sockets have been made. -/
def start (s : Conn) (env : Env) : ConnRes :=
  let s := { s with started := true }
  if !env.socket then .ok { s with refused := true }
  else
    let s : Conn := { s with callback := true, own := { s.own with pingConns := windowSize } }
    if s.owner then
      if s.bestEffort then .ok s.reserveBestEffort else startReady s env
    else if !s.ready then .ok s
    else if s.bestEffort then .ok s.reserveBestEffort
    else startReady s env

def onPortReservation (s : Conn) : ConnRes :=
  if !s.callback then .ok s
  else if !s.ready then
    (s.require (s.owner = true)).bind fun s => .ok (Session.act { s with ready := true } .ready)
  else .ok (s.act .ready)

def onGranted (s : Conn) (ports : List (Nat × PortAllocator.TimePoint)) : ConnRes :=
  onPortReservation (s.grant ports)

/-- A ping from socket `i` of `pingConns_`, and `portReservation_->use()`. -/
def ping (s : Conn) (i : Nat) (env : Env) : ConnRes :=
  (s.require (i < s.own.pingConns)).bind fun s =>
    (Session.act (s.set { s.own with writes := s.own.writes + 1 })
      (.ping s.own.destIp s.own.destPort false)).use env

def onReady (s : Conn) (env : Env) : ConnRes :=
  let s := { s with ready := true }
  if !s.started then .ok s
  else if !s.callback then .ok s
  else if s.bestEffort then .ok s.reserveBestEffort
  else
    let s := s.reserve windowSize env
    if s.portReservation.isNone then s.fail 1 else onPortReservation s

def onNext (s : Conn) (env : Env) : ConnRes :=
  if !s.callback then .ok s else ping (s.set { s.own with numPingSent := 0 }) 0 env

def onMsg (s : Conn) (msg : Msg) (env : Env) : ConnRes :=
  match msg with
  | .ready => onReady s env
  | .next => onNext s env
  | .symm ip port => .ok (s.set { s.own with destIp := ip, destPort := port })
  | .fast _ _ => .ok s

def onPingSend (s : Conn) (err : Int) (env : Env) : ConnRes :=
  let s := s.set { s.own with writes := s.own.writes - 1 }
  if !s.callback then .ok s
  else if err ≠ 0 then s.fail err
  else
    let s := s.set { s.own with numPingSent := s.own.numPingSent + 1 }
    if s.own.numPingSent < s.own.pingConns then ping s s.own.numPingSent env
    else .ok (s.act .next)

/-- What is not the final ping of the other side is ignored, and so is that ping without a
reservation; the socket is read again. -/
def onRecvPing (s : Conn) (err : Int) (bytes : List UInt8) (ip connIdx : Nat) : ConnRes :=
  if !s.callback then .ok s
  else if err ≠ 0 then s.fail err
  else if bytes = pingBytes 0xEE ∧ ip = s.own.destIp ∧ s.portReservation.isSome then
    s.keepalive.bind fun s => (s.require (connIdx < s.own.pingConns)).bind fun s => s.complete
  else s.require (connIdx < s.own.pingConns)

def onEstablished (s : Conn) : ConnRes :=
  .ok (s.set { s.own with establishedTimers := s.own.establishedTimers + 1 })

def onEstablishedTimeout (s : Conn) : ConnRes :=
  let s := s.set { s.own with establishedTimers := s.own.establishedTimers - 1 }
  if !s.callback then .ok s else s.fail 1

end Conn

inductive Event where
  | msg (msg : Msg) (env : Env)
  | established
  | granted (ports : List (Nat × PortAllocator.TimePoint))
  | pingSent (err : Int) (env : Env)
  | recvPing (err : Int) (bytes : List UInt8) (ip connIdx : Nat)
  | establishedTimeout

def handle (s : Conn) : Event → ConnRes
  | .msg msg env => Conn.onMsg s msg env
  | .established => Conn.onEstablished s
  | .granted ports => Conn.onGranted s ports
  | .pingSent err env => Conn.onPingSend s err env
  | .recvPing err bytes ip connIdx => Conn.onRecvPing s err bytes ip connIdx
  | .establishedTimeout => Conn.onEstablishedTimeout s

namespace Conn

variable {s : Conn} {env : Env}

theorem moves_startReady (hcallback : s.callback = true) :
    Moves (startReady s env) s.callback s.acts :=
  .ite (fun _ => .same) fun _ => .act hcallback rfl

theorem behaved_start (hacts : s.acts = []) : (Life.after (start s env)).Behaved := by
  have hquiet (c : Bool) : Acts c s.acts c := hacts ▸ .quiet c
  unfold start
  split
  · exact Life.behaved_after .same (hquiet s.callback)
  · refine Life.behaved_after ?_ (hquiet true)
    refine .ite (fun _ => .ite (fun _ => .same) fun _ => moves_startReady rfl) fun _ => ?_
    exact .ite (fun _ => .same) fun _ => .ite (fun _ => .same) fun _ => moves_startReady rfl

theorem moves_onPortReservation : Moves (onPortReservation s) s.callback s.acts := by
  refine .guard fun hcallback => .ite (fun _ => ?_) fun _ => .act hcallback rfl
  exact .require fun _ => .act hcallback rfl

theorem moves_ping {i : Nat} (hcallback : s.callback = true) :
    Moves (ping s i env) s.callback s.acts :=
  .require fun _ => .after_act hcallback rfl (.use_last hcallback)

theorem moves_onReady : Moves (onReady s env) s.callback s.acts := by
  refine .ite (fun _ => .same) fun _ => .guard fun hcallback => .ite (fun _ => .same) fun _ => ?_
  exact .ite (fun _ => .fail hcallback (by decide)) fun _ => moves_onPortReservation

theorem moves_onMsg (msg : Msg) : Moves (onMsg s msg env) s.callback s.acts := by
  cases msg with
  | ready => exact moves_onReady
  | next => exact .guard fun hcallback => moves_ping hcallback
  | fast => exact .same
  | symm => exact .same

theorem moves_onPingSend (err : Int) : Moves (onPingSend s err env) s.callback s.acts := by
  refine .guard fun hcallback => .ite (fun herr => .fail hcallback herr) fun _ => ?_
  exact .ite (fun _ => moves_ping hcallback) fun _ => .act hcallback rfl

theorem moves_onRecvPing (err : Int) (bytes : List UInt8) (ip connIdx : Nat) :
    Moves (onRecvPing s err bytes ip connIdx) s.callback s.acts := by
  refine .guard fun hcallback => .ite (fun herr => .fail hcallback herr) fun _ => ?_
  exact .ite (fun _ => .keepalive_complete hcallback) fun _ => .require_last

end Conn

theorem moves_handle (s : Conn) (e : Event) : Moves (handle s e) s.callback s.acts := by
  cases e with
  | msg msg => exact Conn.moves_onMsg msg
  | established => exact .same
  | granted => exact Conn.moves_onPortReservation
  | pingSent err => exact Conn.moves_onPingSend err
  | recvPing err bytes ip connIdx => exact Conn.moves_onRecvPing err bytes ip connIdx
  | establishedTimeout => exact .guard fun hcallback => .fail hcallback (by decide)

end DTun.Node.Rendezvous.SymmConn
