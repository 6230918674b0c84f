import DTun.Util.Ltudp.Reply

/-!
# The LTUDP manager and its handles

`LTUDPManager` keeps one `ConnectionInfo` for each UDP port, for as long as the transport on
that port is in use, and `LTUDPHandleImpl` binds lwIP pcbs through it. A handle holds its
transport until it is killed; after that a posted callback holds it a little longer. lwIP
knows a pcb by its TCP port, and the manager finds the transport of a TCP port in
`localPortMap_`, which nothing ever takes an entry out of.

What the environment answers is part of the event: the port a socket gets, whether a name
resolves, whether lwIP has memory. lwIP gives a pcb a TCP port that no other pcb has. It
makes pcbs of its own for peers that connect, and goes on sending for a pcb that was closed.
-/

namespace DTun.Util.Ltudp

open Lib (OrderedMap)
open Lib.Calls Lib.Runs

/-- An lwIP pcb. The transport it was bound on is not known to lwIP. -/
structure Pcb where
  localPort : Port
  remoteIp : Ip := 0
  remotePort : Port := 0
  conn : Conn
  deriving DecidableEq, Repr

/-- `LTUDPHandleImpl`. -/
structure Handle where
  conn : Option Conn := none
  pcb : Option Pcb := none
  /-- `pcbRemoteIp_` and `pcbRemotePort_` are set, to the peer of the pcb. -/
  connected : Bool := false
  /-- `listenCallback_` is set. -/
  listening : Bool := false
  deriving DecidableEq, Repr

structure Manager extends Transports ConnectionInfo where
  localPortMap : OrderedMap Port Port := .empty
  handles : List Handle := []
  /-- The transports that posted `onTransportConnectionKill` callbacks hold. -/
  closing : List Conn := []
  /-- The pcbs that lwIP has for peers that connect, before they are accepted. -/
  halfOpen : List Pcb := []
  /-- The pcbs that were closed and that lwIP still sends for. -/
  lingering : List Pcb := []

/-- What the environment answers in `listen`. -/
structure ListenEnv where
  sockName : Bool := true
  tcpNew : Bool := true
  tcpBind : Option Port
  tcpListen : Bool := true
  deriving DecidableEq, Repr

/-- What the environment answers in `connect`. -/
structure ConnectEnv where
  /-- The UDP port of a new transport, if one is needed. -/
  transport : Option Port := none
  sockName : Bool := true
  tcpNew : Bool := true
  tcpBind : Option Port
  resolved : Option (Ip × Port)
  tcpConnect : Bool := true
  deriving DecidableEq, Repr

namespace Manager

/-- `conn.lock()`. -/
def alive (m : Manager) (conn : Conn) : Bool :=
  m.handles.any (fun h => h.conn = some conn) || m.closing.contains conn

def setHandle (m : Manager) (i : Nat) (h : Handle) : Manager :=
  { m with handles := m.handles.set i h }

/-- `createTransportConnectionInternal`. -/
def createTransport (m : Manager) (name : Port) (bound : Option Port) :
    Except Assertion (Manager × Option Conn) :=
  match m.toTransports.createTransport m.alive {} name bound with
  | some r => .ok ({ m with toTransports := r.1 }, r.2)
  | none => .error .found

def setInfo (m : Manager) (port : Port) (slot : Slot ConnectionInfo) (c : ConnectionInfo) :
    Manager :=
  { m with toTransports := m.toTransports.setInfo port slot c }

/-- A change of the `ConnectionInfo` under a UDP port. -/
def update {α : Type} (m : Manager) (port : Port)
    (f : ConnectionInfo → Except Assertion (ConnectionInfo × α)) :
    Except Assertion (Manager × α) :=
  match m.connCache.find? port with
  | none => .error .found
  | some slot => (f slot.info).map fun r => (m.setInfo port slot r.1, r.2)

/-- A change of the `ConnectionInfo` of a pcb, found by its TCP port. -/
def updateLocal {α : Type} (m : Manager) (tcpPort : Port)
    (f : ConnectionInfo → Except Assertion (ConnectionInfo × α)) :
    Except Assertion (Manager × α) :=
  match m.localPortMap.find? tcpPort with
  | none => .error .found
  | some port => m.update port f

/-- `pcbBindAcceptor` or `pcbBindConnector`, by what they do to the `ConnectionInfo`. -/
def pcbBind (m : Manager) (port : Port)
    (f : ConnectionInfo → Except Assertion (ConnectionInfo × Port)) :
    Except Assertion (Manager × Port) :=
  (m.update port f).map fun r =>
    if r.2 = 0 then (m, 0)
    else ({ r.1 with localPortMap := r.1.localPortMap.insert r.2 port }, r.2)

def pcbConnect (m : Manager) (tcpPort : Port) (ip : Ip) (port : Port) :
    Except Assertion (Manager × Port) :=
  if tcpPort = 0 then .error .argument
  else m.updateLocal tcpPort fun c => c.pcbConnect ip port

def pcbDisconnect (m : Manager) (tcpPort : Port) (ip : Ip) (key : Port) :
    Except Assertion Manager :=
  if tcpPort = 0 then .error .argument
  else
    (m.updateLocal tcpPort fun c => (c.pcbDisconnect ip key).map fun c => (c, ())).map Prod.fst

def pcbUnbind (m : Manager) (tcpPort : Port) : Except Assertion Manager :=
  if tcpPort = 0 then .error .argument
  else (m.updateLocal tcpPort fun c => c.pcbUnbind.map fun c => (c, ())).map Prod.fst

/-- Give back what the pcb of a handle holds. -/
def release (m : Manager) (h : Handle) (pcb : Pcb) : Except Assertion Manager :=
  (if h.connected then m.pcbDisconnect pcb.localPort pcb.remoteIp pcb.remotePort else .ok m)
    >>= fun m => m.pcbUnbind pcb.localPort

/-- `LTUDPHandleImpl::bind`. -/
def bind (m : Manager) (i : Nat) (h : Handle) (name : Port) (bound : Option Port) :
    Except Assertion Manager :=
  if h.conn.isSome then .error .handle
  else
    (m.createTransport name bound).map fun r => r.1.setHandle i { h with conn := r.2 }

/-- `LTUDPHandleImpl::listen`. -/
def listen (m : Manager) (i : Nat) (h : Handle) (env : ListenEnv) : Except Assertion Manager :=
  match h.conn, h.pcb with
  | some conn, none =>
    if !env.sockName || !env.tcpNew then .ok m
    else do
      let (m, tcpPort) ← m.pcbBind conn.port fun c => c.bindAcceptor env.tcpBind
      if tcpPort = 0 then .ok m
      else if env.tcpListen then
        .ok (m.setHandle i
          { h with pcb := some { localPort := tcpPort, conn := conn }, listening := true })
      else m.pcbUnbind tcpPort
  | _, _ => .error .handle

/-- The end of `LTUDPHandleImpl::connect`, once the pcb is bound. The result says whether the
callback was called with an error. -/
def connectPcb (m : Manager) (i : Nat) (h : Handle) (conn : Conn) (tcpPort : Port)
    (env : ConnectEnv) : Except Assertion (Manager × Bool) :=
  match env.resolved with
  | none => .ok (m, true)
  | some (ip, port) => do
    let (m, key) ← m.pcbConnect tcpPort ip port
    if key = 0 then .ok (m, true)
    else if env.tcpConnect then
      .ok (m.setHandle i
        { h with
          pcb := some { localPort := tcpPort, remoteIp := ip, remotePort := key, conn := conn }
          connected := true }, false)
    else
      let m ← m.pcbDisconnect tcpPort ip key
      let m ← m.pcbUnbind tcpPort
      .ok (m, true)

/-- `LTUDPHandleImpl::connect` with a transport. -/
def connectOn (m : Manager) (i : Nat) (h : Handle) (conn : Conn) (env : ConnectEnv) :
    Except Assertion (Manager × Bool) :=
  if !env.sockName || !env.tcpNew then .ok (m, true)
  else do
    let (m, tcpPort) ← m.pcbBind conn.port fun c => c.bindConnector env.tcpBind
    if tcpPort = 0 then .ok (m, true)
    else m.connectPcb i h conn tcpPort env

/-- `LTUDPHandleImpl::connect`. -/
def connect (m : Manager) (i : Nat) (h : Handle) (env : ConnectEnv) :
    Except Assertion (Manager × Bool) :=
  if h.pcb.isSome then .error .handle
  else
    match h.conn with
    | some conn => m.connectOn i h conn env
    | none => do
      let (m, conn) ← m.createTransport 0 env.transport
      match conn with
      | none => .ok (m, true)
      | some conn =>
        let h := { h with conn := some conn }
        (m.setHandle i h).connectOn i h conn env

/-- `listenerAcceptFunc` with `createStreamSocket`: a new handle with the transport of the
listener, for a pcb that lwIP has made. -/
def accept (m : Manager) (conn : Conn) (pcb : Pcb) : Except Assertion Manager :=
  (m.updateLocal pcb.localPort fun c => c.accept.map fun c => (c, ())).map fun r =>
    { r.1 with
      handles := r.1.handles ++ [{ conn := some conn, pcb := some pcb }]
      halfOpen := r.1.halfOpen.erase pcb }

/-- `LTUDPHandleImpl::errorFunc`: lwIP has freed the pcb. -/
def errorFunc (m : Manager) (i : Nat) (h : Handle) (pcb : Pcb) : Except Assertion Manager :=
  (m.release h pcb).map fun m => m.setHandle i { h with pcb := none, connected := false }

/-- What `LTUDPHandleImpl::kill` does with the pcb. One that is closed and not aborted
lingers, unless it was listening. -/
def closePcb (m : Manager) (h : Handle) (abort : Bool) : Except Assertion Manager :=
  match h.pcb with
  | none => .ok m
  | some pcb =>
    (m.release h pcb).map fun m =>
      if abort || h.listening then m else { m with lingering := pcb :: m.lingering }

/-- `LTUDPHandleImpl::kill`, from `onKillHandles`. The place of the handle is free for a new
one. -/
def kill (m : Manager) (i : Nat) (h : Handle) (abort : Bool) : Except Assertion Manager :=
  (m.closePcb h abort).map fun m =>
    { m.setHandle i {} with closing := h.conn.toList ++ m.closing }

/-- The transport of a pcb that listens on the TCP port. -/
def listener (m : Manager) (tcpPort : Port) : Option Conn :=
  m.handles.findSome? fun h => h.pcb.bind fun pcb =>
    if h.listening && pcb.localPort = tcpPort then some pcb.conn else none

/-- `onRecv` of a transport. lwIP makes a pcb for a SYN to a port that a pcb listens on,
whichever transport the segment came through. -/
def onRecv (m : Manager) (slot : Slot ConnectionInfo) (d : Datagram) (syn : Bool) :
    Except Assertion Manager :=
  (m.update slot.conn.port fun c => c.onRecv d).map fun r =>
    match syn, r.2.bind fun seg => (m.listener seg.dst).map fun conn => (seg, conn) with
    | true, some (seg, conn) =>
      { r.1 with
        halfOpen := { localPort := seg.dst, remoteIp := d.srcIp, remotePort := seg.src,
                      conn := conn } :: r.1.halfOpen }
    | _, _ => r.1

def reapConnCache (m : Manager) : Manager :=
  { m with toTransports := m.toTransports.reapConnCache m.alive }

/-- `netifOutputFunc`: the transport and the UDP address a segment is sent to, unless it is
dropped. -/
def netifOutputFunc (m : Manager) (src : Port) (ip : Ip) (key : Port) :
    Except Assertion (Option (Conn × Ip × Port)) :=
  match (m.localPortMap.find? src).bind m.connCache.find? with
  | none => .ok none
  | some slot =>
    if m.alive slot.conn then (slot.info.output ip key).map fun addr => some (slot.conn, addr)
    else .ok none

/-- lwIP has a pcb with the TCP port. -/
def usesPort (m : Manager) (tcpPort : Port) : Bool :=
  m.handles.any (fun h => h.pcb.any fun pcb => pcb.localPort = tcpPort) ||
    m.halfOpen.any (fun pcb => pcb.localPort = tcpPort) ||
    m.lingering.any (fun pcb => pcb.localPort = tcpPort)

end Manager

namespace Manager

inductive Event where
  | createStreamSocket
  | bind (i : Nat) (name : Port) (bound : Option Port)
  | listen (i : Nat) (env : ListenEnv)
  | connect (i : Nat) (env : ConnectEnv)
  | accept (i : Nat) (pcb : Pcb)
  | error (i : Nat)
  | kill (i : Nat) (abort : Bool)
  | datagram (port : Port) (d : Datagram) (syn : Bool)
  /-- A posted `onTransportConnectionKill` runs. -/
  | transportKilled (conn : Conn)
  | reap
  /-- lwIP is done with a pcb that no handle has. -/
  | finished (pcb : Pcb)
  deriving DecidableEq, Repr

/-- lwIP gives a new pcb a TCP port that no pcb has. -/
def freshPort (m : Manager) (tcpBind : Option Port) : Bool :=
  tcpBind.all fun port => !m.usesPort port

/-- The call that an event makes, `none` when the event cannot happen. -/
def call (m : Manager) : Event → Option (Except Assertion Manager)
  | .createStreamSocket => some (.ok { m with handles := m.handles ++ [{}] })
  | .bind i name bound => (m.handles[i]?).map fun h => m.bind i h name bound
  | .listen i env => (m.handles[i]?).bind fun h =>
    if m.freshPort env.tcpBind then some (m.listen i h env) else none
  | .connect i env => (m.handles[i]?).bind fun h =>
    if m.freshPort env.tcpBind then some ((m.connect i h env).map Prod.fst) else none
  | .accept i pcb => (m.handles[i]?).bind fun h =>
    match h.listening, h.conn, h.pcb with
    | true, some conn, some listener =>
      if pcb ∈ m.halfOpen ∧ pcb.localPort = listener.localPort ∧ pcb.conn = listener.conn then
        some (m.accept conn pcb)
      else none
    | _, _, _ => none
  | .error i => (m.handles[i]?).bind fun h =>
    match h.listening, h.pcb with
    | false, some pcb => some (m.errorFunc i h pcb)
    | _, _ => none
  | .kill i abort => (m.handles[i]?).map fun h => m.kill i h abort
  | .datagram port d syn => (m.connCache.find? port).bind fun slot =>
    if m.alive slot.conn then some (m.onRecv slot d syn) else none
  | .transportKilled conn =>
    if conn ∈ m.closing then some (.ok { m with closing := m.closing.erase conn }) else none
  | .reap => some (.ok m.reapConnCache)
  | .finished pcb =>
    some (.ok { m with halfOpen := m.halfOpen.erase pcb, lingering := m.lingering.erase pcb })

def step (m : Manager) (e : Event) : Option Manager := (m.call e).bind Except.toOption

abbrev Run (es : List Event) (m : Manager) : Prop := exec step {} es = some m

/-- The call of an event, with what has to hold for the event to happen. -/
inductive Call (m : Manager) : Event → Except Assertion Manager → Prop
  | createStreamSocket : Call m .createStreamSocket (.ok { m with handles := m.handles ++ [{}] })
  | bind {i : Nat} {h : Handle} {name : Port} {bound : Option Port}
      (hi : m.handles[i]? = some h) : Call m (.bind i name bound) (m.bind i h name bound)
  | listen {i : Nat} {h : Handle} {env : ListenEnv} (hi : m.handles[i]? = some h)
      (hfresh : m.freshPort env.tcpBind = true) : Call m (.listen i env) (m.listen i h env)
  | connect {i : Nat} {h : Handle} {env : ConnectEnv} (hi : m.handles[i]? = some h)
      (hfresh : m.freshPort env.tcpBind = true) :
      Call m (.connect i env) ((m.connect i h env).map Prod.fst)
  | accept {i : Nat} {h : Handle} {conn : Conn} {listener pcb : Pcb}
      (hi : m.handles[i]? = some h) (hlisten : h.listening = true) (hconn : h.conn = some conn)
      (hpcb : h.pcb = some listener) (hopen : pcb ∈ m.halfOpen)
      (hport : pcb.localPort = listener.localPort) (hpc : pcb.conn = listener.conn) :
      Call m (.accept i pcb) (m.accept conn pcb)
  | error {i : Nat} {h : Handle} {pcb : Pcb} (hi : m.handles[i]? = some h)
      (hlisten : h.listening = false) (hpcb : h.pcb = some pcb) :
      Call m (.error i) (m.errorFunc i h pcb)
  | kill {i : Nat} {h : Handle} {abort : Bool} (hi : m.handles[i]? = some h) :
      Call m (.kill i abort) (m.kill i h abort)
  | datagram {port : Port} {slot : Slot ConnectionInfo} {d : Datagram} {syn : Bool}
      (hslot : m.connCache.find? port = some slot) (halive : m.alive slot.conn = true) :
      Call m (.datagram port d syn) (m.onRecv slot d syn)
  | transportKilled {conn : Conn} (hmem : conn ∈ m.closing) :
      Call m (.transportKilled conn) (.ok { m with closing := m.closing.erase conn })
  | reap : Call m .reap (.ok m.reapConnCache)
  | finished {pcb : Pcb} : Call m (.finished pcb)
      (.ok { m with halfOpen := m.halfOpen.erase pcb, lingering := m.lingering.erase pcb })

section Calls

variable {m m' : Manager} {e : Event} {i : Nat} {h : Handle}

theorem call_cases {r : Except Assertion Manager} (hcall : m.call e = some r) : m.Call e r := by
  cases e with
  | createStreamSocket =>
    cases hcall
    exact .createStreamSocket
  | bind i name bound =>
    obtain ⟨h, hi, rfl⟩ := Option.map_eq_some_iff.mp hcall
    exact .bind hi
  | listen i env =>
    obtain ⟨h, hi, hcall⟩ := Option.bind_eq_some_iff.mp hcall
    obtain ⟨hfresh, hcall⟩ := Option.ite_none_right_eq_some.mp hcall
    cases hcall
    exact .listen hi hfresh
  | connect i env =>
    obtain ⟨h, hi, hcall⟩ := Option.bind_eq_some_iff.mp hcall
    obtain ⟨hfresh, hcall⟩ := Option.ite_none_right_eq_some.mp hcall
    cases hcall
    exact .connect hi hfresh
  | accept i pcb =>
    obtain ⟨h, hi, hcall⟩ := Option.bind_eq_some_iff.mp hcall
    split at hcall
    · rename_i conn listener hlisten hconn hpcb
      obtain ⟨⟨hopen, hport, hpc⟩, hcall⟩ := Option.ite_none_right_eq_some.mp hcall
      cases hcall
      exact .accept hi hlisten hconn hpcb hopen hport hpc
    · cases hcall
  | error i =>
    obtain ⟨h, hi, hcall⟩ := Option.bind_eq_some_iff.mp hcall
    split at hcall
    · rename_i pcb hlisten hpcb
      cases hcall
      exact .error hi hlisten hpcb
    · cases hcall
  | kill i abort =>
    obtain ⟨h, hi, rfl⟩ := Option.map_eq_some_iff.mp hcall
    exact .kill hi
  | datagram port d syn =>
    obtain ⟨slot, hslot, hcall⟩ := Option.bind_eq_some_iff.mp hcall
    obtain ⟨halive, hcall⟩ := Option.ite_none_right_eq_some.mp hcall
    cases hcall
    exact .datagram hslot halive
  | transportKilled conn =>
    obtain ⟨hmem, hcall⟩ := Option.ite_none_right_eq_some.mp hcall
    cases hcall
    exact .transportKilled hmem
  | reap =>
    cases hcall
    exact .reap
  | finished pcb =>
    cases hcall
    exact .finished

/-- A step is a call that returns. -/
theorem step_cases (hstep : m.step e = some m') : ∃ r, m.Call e r ∧ r = .ok m' := by
  obtain ⟨r, hcall, hr⟩ := Option.bind_eq_some_iff.mp hstep
  exact ⟨r, call_cases hcall, toOption_eq_some hr⟩

theorem bind_ok {name : Port} {bound : Option Port} (hok : m.bind i h name bound = .ok m') :
    h.conn = none ∧ ∃ m₁ conn, m.createTransport name bound = .ok (m₁, conn) ∧
      m' = m₁.setHandle i { h with conn := conn } := by
  rw [Manager.bind] at hok
  split at hok
  · cases hok
  · rename_i hsome
    obtain ⟨⟨m₁, conn⟩, hcreate, rfl⟩ := map_eq_ok hok
    exact ⟨Option.not_isSome_iff_eq_none.mp hsome, m₁, conn, hcreate, rfl⟩

/-- How `connect` returns: over the transport of the handle, or over a new one if there is
one to be had. -/
inductive Connects (m : Manager) (i : Nat) (h : Handle) (env : ConnectEnv) (m' : Manager) :
    Bool → Prop
  | bound {conn : Conn} {failed : Bool} (hconn : h.conn = some conn)
      (hok : m.connectOn i h conn env = .ok (m', failed)) : Connects m i h env m' failed
  | refused (hconn : h.conn = none)
      (hcreate : m.createTransport 0 env.transport = .ok (m', none)) : Connects m i h env m' true
  | created {m₁ : Manager} {conn : Conn} {failed : Bool} (hconn : h.conn = none)
      (hcreate : m.createTransport 0 env.transport = .ok (m₁, some conn))
      (hok : (m₁.setHandle i { h with conn := some conn }).connectOn i
        { h with conn := some conn } conn env = .ok (m', failed)) : Connects m i h env m' failed

theorem connect_ok {env : ConnectEnv} {failed : Bool}
    (hok : m.connect i h env = .ok (m', failed)) : h.pcb = none ∧ Connects m i h env m' failed := by
  rw [Manager.connect] at hok
  split at hok
  · cases hok
  · rename_i hsome
    refine ⟨Option.not_isSome_iff_eq_none.mp hsome, ?_⟩
    split at hok
    · rename_i conn hconn
      exact .bound hconn hok
    · rename_i hconn
      obtain ⟨⟨m₁, res⟩, hcreate, hrest⟩ := bind_eq_ok hok
      cases res with
      | none =>
        cases hrest
        exact .refused hconn hcreate
      | some conn => exact .created hconn hcreate hrest

end Calls

end Manager

end DTun.Util.Ltudp
