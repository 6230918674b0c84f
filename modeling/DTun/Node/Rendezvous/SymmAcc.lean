import DTun.Node.Rendezvous.Session

/-!
# The accepting side of the symmetric rendezvous

`RendezvousSymmAccSession`: it pings 299 of the other side's ports at a time, in up to three
rounds with a new socket each, and sends NEXT after each round. The other side then pings back;
a ping that gets through shows the port to use, and the session ends with final pings there.
-/

namespace DTun.Node.Rendezvous.SymmAcc

def windowSize : Nat := 299

/-- `pingConn`, `masterSession` and `masterHandle` say that the pointer is set. The last six are
what is to come: `onHelloSend`, `onRecvPing`, how many `onPingSend`, and the timers that are
posted, the final ones with their count. -/
structure Fields where
  ports : List Nat
  destIp : Nat
  stepIdx : Int := 0
  numPingSent : Nat := 0
  destDiscoveredPort : Nat := 0
  pingConn : Bool := false
  masterSession : Bool := false
  masterHandle : Bool := false
  helloPending : Bool := false
  reading : Bool := false
  writes : Nat := 0
  checkTimers : Nat := 0
  nextTimers : Nat := 0
  finalTimers : List Nat := []
  deriving DecidableEq, Repr

abbrev Acc := Session Fields

abbrev AccRes := Res Fields

/-- The ports that the constructor chooses: 299 in a row from each of three segments, where
`segs` is the shuffled order of the segments with the offset that was drawn in each. -/
def candidatePorts (segs : List (Nat × Nat)) : List Nat :=
  segs.flatMap fun seg => (List.range windowSize).map fun j => 1024 + (21503 * seg.1 + seg.2 + j)

namespace Acc

/-- The position in `ports_`. -/
def pos (s : Acc) : Int := s.own.stepIdx * windowSize + s.own.numPingSent

/-- `getCurrentPort`: 0 past the end; a negative position must not be read. -/
def getCurrentPort (s : Acc) (k : Nat → AccRes) : AccRes :=
  if s.pos ≥ s.own.ports.length then k 0
  else if s.pos < 0 then .error s
  else k (s.own.ports.getD s.pos.toNat 0)

/-- A new socket for this round, and a connection from it for the hello. What the old socket
had outstanding is gone with it. -/
def openSocket (s : Acc) : Acc :=
  s.set { s.own with
    pingConn := true, reading := false, writes := 0, masterSession := true
    helloPending := true }

def postCheck (s : Acc) : Acc := s.set { s.own with checkTimers := s.own.checkTimers + 1 }

/-- `start` with ports: without a socket it returns false, and also if the connection for the
hello cannot be started, but then the timer is posted all the same. -/
def startHello (s : Acc) (env : Env) : AccRes :=
  if !env.socket then .ok { s with refused := true }
  else (s.use env).bind fun s =>
    if env.hello then .ok (postCheck ((openSocket s).act .hello))
    else .ok (postCheck { openSocket s with refused := true })

def start (s : Acc) (env : Env) : AccRes :=
  let s : Acc := { s with started := true, callback := true }
  if s.owner then
    if s.bestEffort then .ok s.reserveBestEffort
    else
      let s := s.reserve (windowSize + 1) env
      if s.portReservation.isNone then .ok { s with refused := true } else .ok (s.act .ready)
  else if !s.ready then .ok s
  else if s.bestEffort then .ok s.reserveBestEffort
  else
    let s := s.reserve (windowSize + 1) env
    if s.portReservation.isNone then .ok { s with refused := true } else startHello s env

def onPortReservation (s : Acc) (env : Env) : AccRes :=
  if !s.callback then .ok s
  else if !s.ready then
    (s.require (s.owner = true)).bind fun s => .ok (Session.act { s with ready := true } .ready)
  else if !env.socket then s.fail 1
  else (s.use env).bind fun s =>
    if env.hello then .ok (postCheck ((openSocket s).act .hello)) else (openSocket s).fail 1

def onGranted (s : Acc) (ports : List (Nat × PortAllocator.TimePoint)) (env : Env) : AccRes :=
  onPortReservation (s.grant ports) env

def onReady (s : Acc) (env : Env) : AccRes :=
  let s := { s with ready := true }
  if !s.started then .ok s
  else if !s.callback then .ok s
  else if s.portReservation.isSome then onPortReservation s env
  else if s.bestEffort then .ok s.reserveBestEffort
  else
    let s := s.reserve (windowSize + 1) env
    if s.portReservation.isNone then s.fail 1 else onPortReservation s env

def onNext (s : Acc) : AccRes :=
  if !s.callback then .ok s else .ok (s.set { s.own with nextTimers := s.own.nextTimers + 1 })

def onMsg (s : Acc) (msg : Msg) (env : Env) : AccRes :=
  match msg with
  | .ready => onReady s env
  | .next => onNext s
  | _ => .ok s

/-- The hello is sent from `masterSession_`, whose handle is kept. -/
def onHelloSend (s : Acc) (err : Int) : AccRes :=
  let s := s.set { s.own with helloPending := false }
  if err = 0 then
    (s.require (s.own.masterSession = true)).bind fun s =>
      if !s.callback then .ok s else .ok (s.set { s.own with masterHandle := true })
  else if !s.callback then .ok s
  else s.fail err

/-- A ping to the current port, and `portReservation_->use()`. -/
def ping (s : Acc) (port : Nat) (env : Env) : AccRes :=
  (s.require (s.own.pingConn = true)).bind fun s =>
    (Session.act (s.set { s.own with writes := s.own.writes + 1 })
      (.ping s.own.destIp port false)).use env

def onPingSend (s : Acc) (err : Int) (env : Env) : AccRes :=
  let s := s.set { s.own with writes := s.own.writes - 1 }
  if !s.callback then .ok s
  else if err ≠ 0 then s.fail err
  else
    let s := s.set { s.own with numPingSent := s.own.numPingSent + 1 }
    if s.own.numPingSent < windowSize then getCurrentPort s fun port => ping s port env
    else
      .ok (Session.act (s.set { s.own with stepIdx := s.own.stepIdx + 1, numPingSent := 0 }) .next)

/-- A ping of the other side tells its port; anything else is ignored, and the socket is read
again. After `stepIdx_ = -1` it is not. -/
def onRecvPing (s : Acc) (err : Int) (bytes : List UInt8) (ip port : Nat) : AccRes :=
  let s := s.set { s.own with reading := false }
  if !s.callback then .ok s
  else if err ≠ 0 then s.fail err
  else if s.own.stepIdx = -1 then .ok s
  else
    let s := s.set { s.own with
      destDiscoveredPort :=
        if bytes = pingBytes 0xDD ∧ ip = s.own.destIp then port else s.own.destDiscoveredPort }
    (s.require (s.own.pingConn = true)).bind fun s => .ok (s.set { s.own with reading := true })

def onNextTimeout (s : Acc) : AccRes :=
  let s := s.set { s.own with
    nextTimers := s.own.nextTimers - 1, masterSession := false, masterHandle := false
    helloPending := false }
  if !s.callback then .ok s
  else if s.own.destDiscoveredPort ≠ 0 then
    .ok (s.set { s.own with stepIdx := -1, finalTimers := s.own.finalTimers ++ [3] })
  else
    let s : Acc := { s with
      portReservation := none
      own := { s.own with pingConn := false, reading := false, writes := 0 } }
    getCurrentPort s fun port => if port = 0 then s.fail 1 else .ok (s.act .ready)

def onCheckStartTimeout (s : Acc) (canReuse : Bool) (env : Env) : AccRes :=
  let s := s.set { s.own with checkTimers := s.own.checkTimers - 1 }
  if !s.callback then .ok s
  else if s.own.masterHandle && canReuse then
    (s.require (s.own.pingConn = true)).bind fun s =>
      let s := s.set { s.own with reading := true }
      getCurrentPort s fun port => (s.require (port ≠ 0)).bind fun s => ping s port env
  else .ok (postCheck s)

def onSendFinalTimeout (s : Acc) (cnt : Nat) (env : Env) : AccRes :=
  let s := s.set { s.own with finalTimers := s.own.finalTimers.erase cnt }
  if !s.callback then .ok s
  else if cnt = 0 then
    s.keepalive.bind fun s => (s.require (s.own.pingConn = true)).bind fun s => s.complete
  else
    (s.require (s.own.pingConn = true)).bind fun s =>
      (s.act (.ping s.own.destIp s.own.destDiscoveredPort true)).use env |>.bind fun s =>
        .ok (s.set { s.own with finalTimers := s.own.finalTimers ++ [cnt - 1] })

end Acc

inductive Event where
  | msg (msg : Msg) (env : Env)
  /-- `onEstablished`, which does nothing. -/
  | established
  | granted (ports : List (Nat × PortAllocator.TimePoint)) (env : Env)
  | helloSent (err : Int)
  | pingSent (err : Int) (env : Env)
  | recvPing (err : Int) (bytes : List UInt8) (ip port : Nat)
  | nextTimeout
  | checkStart (canReuse : Bool) (env : Env)
  | sendFinal (cnt : Nat) (env : Env)

def handle (s : Acc) : Event → AccRes
  | .msg msg env => Acc.onMsg s msg env
  | .established => .ok s
  | .granted ports env => Acc.onGranted s ports env
  | .helloSent err => Acc.onHelloSend s err
  | .pingSent err env => Acc.onPingSend s err env
  | .recvPing err bytes ip port => Acc.onRecvPing s err bytes ip port
  | .nextTimeout => Acc.onNextTimeout s
  | .checkStart canReuse env => Acc.onCheckStartTimeout s canReuse env
  | .sendFinal cnt env => Acc.onSendFinalTimeout s cnt env

namespace Acc

variable {s : Acc} {env : Env}

theorem moves_startHello (hcallback : s.callback = true) :
    Moves (startHello s env) s.callback s.acts := by
  refine .ite (fun _ => .same) fun _ => .use hcallback fun u hu => ?_
  exact .ite (fun _ => .act hu rfl) fun _ => .same

theorem behaved_start (hacts : s.acts = []) : (Life.after (start s env)).Behaved := by
  have hquiet : Acts true s.acts true := hacts ▸ .quiet true
  refine Life.behaved_after ?_ hquiet
  refine .ite (fun _ => .ite (fun _ => .same) fun _ => ?_) fun _ => ?_
  · exact .ite (fun _ => .same) fun _ => .act rfl rfl
  · refine .ite (fun _ => .same) fun _ => .ite (fun _ => .same) fun _ => ?_
    exact .ite (fun _ => .same) fun _ => moves_startHello rfl

theorem moves_onPortReservation : Moves (onPortReservation s env) s.callback s.acts := by
  refine .guard fun hcallback => .ite (fun _ => .require fun _ => .act hcallback rfl) fun _ => ?_
  refine .ite (fun _ => .fail hcallback (by decide)) fun _ => ?_
  refine .use hcallback fun u hu => ?_
  exact .ite (fun _ => .act hu rfl) fun _ => .fail hu (by decide)

theorem moves_onReady : Moves (onReady s env) s.callback s.acts := by
  refine .ite (fun _ => .same) fun _ => .guard fun hcallback => ?_
  refine .ite (fun _ => moves_onPortReservation) fun _ => ?_
  refine .ite (fun _ => .same) fun _ => .ite (fun _ => .fail hcallback (by decide)) fun _ => ?_
  exact moves_onPortReservation

theorem moves_onMsg (msg : Msg) : Moves (onMsg s msg env) s.callback s.acts := by
  cases msg with
  | ready => exact moves_onReady
  | next => exact .guard fun _ => .same
  | fast => exact .same
  | symm => exact .same

theorem moves_onHelloSend (err : Int) : Moves (onHelloSend s err) s.callback s.acts := by
  refine .ite (fun _ => ?_) fun herr => .guard fun hcallback => .fail hcallback herr
  exact .require fun _ => .guard fun _ => .same

theorem moves_getCurrentPort {k : Nat → AccRes} (h : ∀ port, Moves (k port) s.callback s.acts) :
    Moves (getCurrentPort s k) s.callback s.acts :=
  .ite (fun _ => h 0) fun _ => .ite (fun _ => .stop) fun _ => h _

theorem moves_ping {port : Nat} (hcallback : s.callback = true) :
    Moves (ping s port env) s.callback s.acts :=
  .require fun _ => .after_act hcallback rfl (.use_last hcallback)

theorem moves_onPingSend (err : Int) : Moves (onPingSend s err env) s.callback s.acts := by
  refine .guard fun hcallback => .ite (fun herr => .fail hcallback herr) fun _ => ?_
  refine .ite (fun _ => ?_) fun _ => .act hcallback rfl
  exact moves_getCurrentPort fun _ => moves_ping hcallback

theorem moves_onRecvPing (err : Int) (bytes : List UInt8) (ip port : Nat) :
    Moves (onRecvPing s err bytes ip port) s.callback s.acts := by
  refine .guard fun hcallback => .ite (fun herr => .fail hcallback herr) fun _ => ?_
  exact .ite (fun _ => .same) fun _ => .require fun _ => .same

theorem moves_onNextTimeout : Moves (onNextTimeout s) s.callback s.acts := by
  refine .guard fun hcallback => .ite (fun _ => .same) fun _ => ?_
  refine moves_getCurrentPort fun port => ?_
  exact .ite (fun _ => .fail hcallback (by decide)) fun _ => .act hcallback rfl

theorem moves_onCheckStartTimeout (canReuse : Bool) :
    Moves (onCheckStartTimeout s canReuse env) s.callback s.acts := by
  refine .guard fun hcallback => .ite (fun _ => ?_) fun _ => .same
  refine .require fun _ => moves_getCurrentPort fun port => ?_
  exact .require fun _ => moves_ping hcallback

theorem moves_onSendFinalTimeout (cnt : Nat) :
    Moves (onSendFinalTimeout s cnt env) s.callback s.acts := by
  refine .guard fun hcallback => .ite (fun _ => ?_) fun _ => ?_
  · exact .keepalive_complete hcallback
  · refine .require fun _ => ?_
    exact .after_act hcallback rfl (.use hcallback fun _ _ => .same)

end Acc

theorem moves_handle (s : Acc) (e : Event) : Moves (handle s e) s.callback s.acts := by
  cases e with
  | msg msg => exact Acc.moves_onMsg msg
  | established => exact .same
  | granted => exact Acc.moves_onPortReservation
  | helloSent err => exact Acc.moves_onHelloSend err
  | pingSent err => exact Acc.moves_onPingSend err
  | recvPing err bytes ip port => exact Acc.moves_onRecvPing err bytes ip port
  | nextTimeout => exact Acc.moves_onNextTimeout
  | checkStart canReuse => exact Acc.moves_onCheckStartTimeout canReuse
  | sendFinal cnt => exact Acc.moves_onSendFinalTimeout cnt

end DTun.Node.Rendezvous.SymmAcc
