import DTun.Node.Rendezvous.Session

/-!
# The fast rendezvous, as a session by itself

`RendezvousFastSession` with its reservations and its assertions, for runs in which the
handlers are called in any order. `DTun.Node.FastSession` has the same class on both sides of a
connection, without what the handlers assert; `FastModels` relates the two.
-/

namespace DTun.Node.Rendezvous.Fast

/-- `pingConn`, `masterSession` and `masterHandle` say that the pointer is set. -/
structure Fields where
  stepIdx : Nat := 0
  ttl : Nat := 2
  next : Bool := true
  destIp : Nat := 0
  destPort : Nat := 0
  portReservationNext : Option Reservation := none
  pingConn : Bool := false
  masterSession : Bool := false
  masterHandle : Bool := false
  deriving DecidableEq

abbrev Sess := Session Fields

abbrev SessRes := Res Fields

def openSocket (s : Sess) : Sess :=
  s.set { s.own with pingConn := true, masterSession := true }

/-- The last part of `start`, with ports. -/
def startHello (s : Sess) (env : Env) : SessRes :=
  if !env.socket then .ok { s with refused := true }
  else (s.use env).bind fun s =>
    if env.hello then .ok ((openSocket s).act .hello)
    else .ok { openSocket s with refused := true }

def start (s : Sess) (env : Env) : SessRes :=
  let s : Sess := { s with started := true, callback := true }
  if s.owner then
    if s.bestEffort then .ok s.reserveBestEffort
    else
      let s := s.reserve 2 env
      if s.portReservation.isNone then .ok { s with refused := true } else .ok (s.act .ready)
  else if !s.ready then .ok s
  else if s.bestEffort then .ok s.reserveBestEffort
  else
    let s := s.reserve 2 env
    if s.portReservation.isNone then .ok { s with refused := true } else startHello s env

/-- The owner goes on to the next attempt with the ports that it has reserved for it. -/
def nextAttempt (s : Sess) : Sess :=
  { s with
    portReservation := s.own.portReservationNext
    own := { s.own with
      stepIdx := s.own.stepIdx + 1, ttl := 2, next := true, masterSession := false
      masterHandle := false, portReservationNext := none, pingConn := false } }

def onPortReservation (s : Sess) (env : Env) : SessRes :=
  if !s.callback then .ok s
  else if !s.ready then
    (s.require (s.owner = true)).bind fun s => .ok (Session.act { s with ready := true } .ready)
  else if s.owner && s.own.portReservationNext.isSome then
    ((nextAttempt s).use env).bind fun s => .ok (s.act .ready)
  else if !env.socket then s.fail 1
  else (s.use env).bind fun s =>
    if env.hello then .ok ((openSocket s).act .hello) else (openSocket s).fail 1

/-- The allocator grants `portReservation_` or `portReservationNext_`. -/
def onGranted (s : Sess) (next : Bool) (ports : List (Nat × PortAllocator.TimePoint))
    (env : Env) : SessRes :=
  if next then onPortReservation (s.set { s.own with portReservationNext := some ⟨ports⟩ }) env
  else onPortReservation (s.grant ports) env

/-- The peer drops what it has of the last attempt. -/
def restart (s : Sess) : Sess :=
  { s with
    portReservation := none
    own := { s.own with
      stepIdx := s.own.stepIdx + 1, ttl := 2, next := true, masterSession := false
      masterHandle := false, pingConn := false, destIp := 0, destPort := 0 } }

def reserveAgain (s : Sess) (env : Env) : SessRes :=
  if s.bestEffort then .ok s.reserveBestEffort
  else
    let s := s.reserve 2 env
    if s.portReservation.isNone then s.fail 1 else onPortReservation s env

def onReady (s : Sess) (env : Env) : SessRes :=
  let s := { s with ready := true }
  if !s.started then .ok s
  else if !s.callback then .ok s
  else if !s.owner && s.portReservation.isSome then reserveAgain (restart s) env
  else reserveAgain s env

def onFast (s : Sess) (ip port : Nat) (env : Env) : SessRes :=
  if !s.callback then .ok s
  else
    let s := s.set { s.own with destIp := ip, destPort := port }
    (s.require (s.portReservation.isSome = true)).bind fun s =>
      if s.owner then onPortReservation s env else .ok s

def onMsg (s : Sess) (msg : Msg) (env : Env) : SessRes :=
  match msg with
  | .ready => onReady s env
  | .fast ip port => onFast s ip port env
  | .next => .ok (s.set { s.own with next := true })
  | .symm _ _ => .ok s

def onEstablished (s : Sess) : SessRes :=
  if !s.callback then .ok s
  else (s.require (s.own.destIp ≠ 0)).bind fun s =>
    s.keepalive.bind fun s => (s.require (s.own.pingConn = true)).bind fun s => s.complete

def onHelloSend (s : Sess) (err : Int) : SessRes :=
  if err = 0 then
    (s.require (s.own.masterSession = true)).bind fun s =>
      if !s.callback then .ok s else .ok (s.set { s.own with masterHandle := true })
  else if !s.callback then .ok s
  else s.fail err

def onPingSend (s : Sess) (err : Int) : SessRes :=
  if !s.callback then .ok s
  else if err = 0 then .ok (s.act .next)
  else s.fail err

/-- A ping of the other side ends the rendezvous; anything else is ignored, and the socket is
read again. -/
def onRecvPing (s : Sess) (err : Int) (bytes : List UInt8) (ip port : Nat) : SessRes :=
  if !s.callback then .ok s
  else if s.own.destIp = 0 then .ok s
  else if err ≠ 0 then s.fail err
  else if bytes = pingBytes 0xDD ∧ ip = s.own.destIp ∧ port = s.own.destPort then
    s.keepalive.bind fun s => (s.require (s.own.pingConn = true)).bind fun s => s.complete
  else s.require (s.own.pingConn = true)

/-- Reading and pinging start when the hello has been sent and the peer's address is known. -/
def onCheckStartTimeout (s : Sess) (canReuse : Bool) : SessRes :=
  if !s.callback then .ok s
  else if s.own.destIp ≠ 0 ∧ s.own.masterHandle = true ∧ canReuse = true then
    s.require (s.own.pingConn = true)
  else .ok s

/-- The owner at its last TTL. -/
def lastTTL (s : Sess) (env : Env) : SessRes :=
  if s.own.stepIdx = 2 then s.fail 1
  else if s.bestEffort then .ok (s.set { s.own with portReservationNext := some .queued })
  else
    let s := s.set { s.own with portReservationNext := env.reserve 2 }
    if s.own.portReservationNext.isNone then s.fail 1 else onPortReservation s env

def onPingTimeout (s : Sess) (env : Env) : SessRes :=
  if !s.callback then .ok s
  else (s.require (s.own.destIp ≠ 0 ∧ s.own.destPort ≠ 0)).bind fun s =>
    if !s.own.next then .ok s
    else (s.require (s.own.pingConn = true)).bind fun s =>
      (s.act (.ping s.own.destIp s.own.destPort false)).use env |>.bind fun s =>
        let s := s.set { s.own with next := false, ttl := s.own.ttl + 1 }
        if s.owner && s.own.ttl = 65 then lastTTL s env else .ok s

inductive Event where
  | msg (msg : Msg) (env : Env)
  | established
  | granted (next : Bool) (ports : List (Nat × PortAllocator.TimePoint)) (env : Env)
  | helloSent (err : Int)
  | pingSent (err : Int)
  | recvPing (err : Int) (bytes : List UInt8) (ip port : Nat)
  | checkStart (canReuse : Bool)
  | pingTimeout (env : Env)

def handle (s : Sess) : Event → SessRes
  | .msg msg env => onMsg s msg env
  | .established => onEstablished s
  | .granted next ports env => onGranted s next ports env
  | .helloSent err => onHelloSend s err
  | .pingSent err => onPingSend s err
  | .recvPing err bytes ip port => onRecvPing s err bytes ip port
  | .checkStart canReuse => onCheckStartTimeout s canReuse
  | .pingTimeout env => onPingTimeout s env

section Moves

variable {s : Sess} {env : Env}

theorem moves_startHello (hcallback : s.callback = true) :
    Moves (startHello s env) s.callback s.acts := by
  refine .ite (fun _ => .same) fun _ => .use hcallback fun u hu => ?_
  exact .ite (fun _ => .act hu rfl) fun _ => .same

theorem behaved_start (hacts : s.acts = []) : (Life.after (start s env)).Behaved := by
  have hquiet : Acts true s.acts true := hacts ▸ .quiet true
  refine Life.behaved_after ?_ hquiet
  refine .ite (fun _ => .ite (fun _ => .same) fun _ => ?_) fun _ => ?_
  · exact .ite (fun _ => .same) fun _ => .act rfl rfl
  · refine .ite (fun _ => .same) fun _ => .ite (fun _ => .same) fun _ => ?_
    exact .ite (fun _ => .same) fun _ => moves_startHello rfl

theorem moves_onPortReservation : Moves (onPortReservation s env) s.callback s.acts := by
  refine .guard fun hcallback => .ite (fun _ => .require fun _ => .act hcallback rfl) fun _ => ?_
  refine .ite (fun _ => .use hcallback fun _ hu => .act hu rfl) fun _ => ?_
  refine .ite (fun _ => .fail hcallback (by decide)) fun _ => ?_
  refine .use hcallback fun u hu => ?_
  exact .ite (fun _ => .act hu rfl) fun _ => .fail hu (by decide)

theorem moves_reserveAgain (hcallback : s.callback = true) :
    Moves (reserveAgain s env) s.callback s.acts := by
  refine .ite (fun _ => .same) fun _ => ?_
  exact .ite (fun _ => .fail hcallback (by decide)) fun _ => moves_onPortReservation

theorem moves_onMsg (msg : Msg) : Moves (onMsg s msg env) s.callback s.acts := by
  cases msg with
  | ready =>
    refine .ite (fun _ => .same) fun _ => .guard fun hcallback => ?_
    exact .ite (fun _ => moves_reserveAgain hcallback) fun _ => moves_reserveAgain hcallback
  | next => exact .same
  | fast =>
    refine .guard fun _ => .require fun _ => ?_
    exact .ite (fun _ => moves_onPortReservation) fun _ => .same
  | symm => exact .same

theorem moves_onEstablished : Moves (onEstablished s) s.callback s.acts :=
  .guard fun hcallback => .require fun _ => .keepalive_complete hcallback

theorem moves_onHelloSend (err : Int) : Moves (onHelloSend s err) s.callback s.acts := by
  refine .ite (fun _ => ?_) fun herr => .guard fun hcallback => .fail hcallback herr
  exact .require fun _ => .guard fun _ => .same

theorem moves_onPingSend (err : Int) : Moves (onPingSend s err) s.callback s.acts :=
  .guard fun hcallback => .ite (fun _ => .act hcallback rfl) fun herr => .fail hcallback herr

theorem moves_onRecvPing (err : Int) (bytes : List UInt8) (ip port : Nat) :
    Moves (onRecvPing s err bytes ip port) s.callback s.acts := by
  refine .guard fun hcallback => .ite (fun _ => .same) fun _ => ?_
  refine .ite (fun herr => .fail hcallback herr) fun _ => ?_
  exact .ite (fun _ => .keepalive_complete hcallback) fun _ => .require_last

theorem moves_lastTTL (hcallback : s.callback = true) :
    Moves (lastTTL s env) s.callback s.acts := by
  refine .ite (fun _ => .fail hcallback (by decide)) fun _ => .ite (fun _ => .same) fun _ => ?_
  exact .ite (fun _ => .fail hcallback (by decide)) fun _ => moves_onPortReservation

theorem moves_onPingTimeout : Moves (onPingTimeout s env) s.callback s.acts := by
  refine .guard fun hcallback => .require fun _ => .ite (fun _ => .same) fun _ => ?_
  refine .require fun _ => .after_act hcallback rfl (.use hcallback fun u hu => ?_)
  exact .ite (fun _ => moves_lastTTL hu) fun _ => .same

end Moves

theorem moves_handle (s : Sess) (e : Event) : Moves (handle s e) s.callback s.acts := by
  cases e with
  | msg msg => exact moves_onMsg msg
  | established => exact moves_onEstablished
  | granted =>
    exact .ite (fun _ => moves_onPortReservation)
      fun _ => moves_onPortReservation
  | helloSent err => exact moves_onHelloSend err
  | pingSent err => exact moves_onPingSend err
  | recvPing err bytes ip port => exact moves_onRecvPing err bytes ip port
  | checkStart => exact .guard fun _ => .ite (fun _ => .require_last) fun _ => .same
  | pingTimeout => exact moves_onPingTimeout

end DTun.Node.Rendezvous.Fast
