import DTun.Lib.Calls
import DTun.Lib.Runs
import DTun.Util.Transports

/-!
# The UTP manager and its sockets

`UTPManager` runs all libutp sockets over the UDP transports in `connCache_`. libutp knows a
peer by its address and a 16 byte port that the connecting side draws; `peers` of a transport
is the route from there to the UDP port the peer is reached at, and `utpSocks` has the sockets
that were bound on the transport. A datagram makes a route before libutp gets to see it, and
the route goes when libutp is done unless a new socket has taken it over meanwhile. Callbacks
run inside: between `recvBegin` and `recvEnd` there may be an accepted connection, errors, and
whatever the application does then.

libutp keeps one socket for each peer name: it does not ask the firewall callback about a
SYN from a peer that it has a socket for. It destroys sockets that were closed, outside of
`utp_process_udp`. A socket that only listens is never initialised and goes when it is closed.
-/

namespace DTun.Util.Utp

open Lib (OrderedMap)
open Lib.Calls Lib.Runs

/-- 16 bytes. -/
abbrev UtpPort := Nat

/-- What `UTPManager` asserts. -/
inductive Assertion where
  /-- The transport of a socket is found; a new port has none in use. -/
  | found
  /-- The transport has an `acceptorHandle` or has none. -/
  | acceptorHandle
  /-- A handle is bound or not bound. -/
  | handle
  /-- A socket is in `utpSocks` or is not. -/
  | utpSock
  /-- A transport that packets are sent through is in use. -/
  | conn
  /-- The peer name of a socket has a route. -/
  | route
  /-- The datagram that the firewall is asked about has a route. -/
  | firewall
  /-- A `ConnectionInfo` without sockets that is destroyed has no routes. -/
  | staleRoute
  /-- The port a packet is sent to is not 0. -/
  | actualPort
  deriving DecidableEq, Repr

structure PortInfo where
  port : Port
  /-- `mtuDiscovery` is set. -/
  mtuDiscovery : Bool := false
  deriving DecidableEq, Repr

structure PeerInfo where
  portMap : OrderedMap UtpPort PortInfo := .empty

structure ConnectionInfo where
  acceptorHandle : Option Nat := none
  peers : OrderedMap Ip PeerInfo := .empty
  utpSocks : List Nat := []

namespace ConnectionInfo

def route (c : ConnectionInfo) (ip : Ip) (utpPort : UtpPort) : Option PortInfo :=
  (c.peers.find? ip).bind (·.portMap.find? utpPort)

/-- `peers[ip].portMap[utpPort] = info`. -/
def setRoute (c : ConnectionInfo) (ip : Ip) (utpPort : UtpPort) (info : PortInfo) :
    ConnectionInfo :=
  { c with
    peers := c.peers.insert ip
      { portMap := ((c.peers.find? ip).getD {}).portMap.insert utpPort info } }

/-- A route goes, and the peer with its last route. -/
def eraseRoute (c : ConnectionInfo) (ip : Ip) (peer : PeerInfo) (utpPort : UtpPort) :
    ConnectionInfo :=
  let portMap := peer.portMap.erase utpPort
  { c with
    peers := if portMap.entries.isEmpty then c.peers.erase ip
      else c.peers.insert ip { portMap := portMap } }

/-- `removeUtpSock`, for a socket with the peer name that libutp gives for it. -/
def removeUtpSock (c : ConnectionInfo) (utpSock : Nat) (name : Option (Ip × UtpPort)) :
    Except Assertion ConnectionInfo :=
  if utpSock ∉ c.utpSocks then .ok c
  else
    let c := { c with utpSocks := c.utpSocks.erase utpSock }
    match name with
    | none => .error .route
    | some (ip, utpPort) =>
      match c.peers.find? ip with
      | none => .error .route
      | some peer =>
        if (peer.portMap.find? utpPort).isSome then .ok (c.eraseRoute ip peer utpPort)
        else .error .route

/-- The end of `onRecv`. Looking for the route makes an entry for the peer. -/
def dropRoute (c : ConnectionInfo) (ip : Ip) (utpPort : UtpPort) : ConnectionInfo :=
  let peer := (c.peers.find? ip).getD {}
  if (peer.portMap.find? utpPort).any (fun info => !info.mtuDiscovery) then
    c.eraseRoute ip peer utpPort
  else { c with peers := c.peers.insert ip peer }

end ConnectionInfo

/-- A libutp socket with its `UTPSocketUserData`. The peer name is there once the socket is
initialised. The transport it was bound on is not known to the socket. -/
structure Socket where
  name : Option (Ip × UtpPort)
  localPort : Port
  handle : Option Nat
  conn : Conn
  deriving DecidableEq, Repr

/-- `UTPHandleImpl`. `localPort_` is the port of the transport. -/
structure Handle where
  conn : Option Conn := none
  utpSock : Option Nat := none
  deriving DecidableEq, Repr

structure Manager extends Transports ConnectionInfo where
  /-- The sockets of the libutp context. -/
  sockets : OrderedMap Nat Socket := .empty
  /-- How many sockets were made. -/
  numSockets : Nat := 0
  handles : List Handle := []
  /-- The transports that posted `onTransportConnectionKill` callbacks hold. -/
  closing : List Conn := []
  /-- The transport, address and port of the datagram that is being received. -/
  inRecv : Option (Conn × Ip × UtpPort) := none

namespace Manager

/-- `conn.lock()`. -/
def alive (m : Manager) (conn : Conn) : Bool :=
  m.handles.any (fun h => h.conn = some conn) || m.closing.contains conn ||
    m.inRecv.any fun r => r.1 = conn

def setInfo (m : Manager) (port : Port) (slot : Slot ConnectionInfo) (c : ConnectionInfo) :
    Manager :=
  { m with toTransports := m.toTransports.setInfo port slot c }

def setHandle (m : Manager) (i : Nat) (h : Handle) : Manager :=
  { m with handles := m.handles.set i h }

/-- `~ConnectionInfo` of the entries that are not in the cache any more. -/
def destroyDropped (m m' : Manager) : Except Assertion Manager :=
  if m.connCache.any fun port slot =>
      ((m'.connCache.find? port).map Slot.conn ≠ some slot.conn && slot.info.utpSocks.isEmpty) &&
        !slot.info.peers.entries.isEmpty then
    .error .staleRoute
  else .ok m'

/-- `createTransportConnectionInternal`. -/
def createTransport (m : Manager) (name : Port) (bound : Option Port) :
    Except Assertion (Manager × Option Conn) :=
  match m.toTransports.createTransport m.alive {} name bound with
  | some r => (m.destroyDropped { m with toTransports := r.1 }).map fun m => (m, r.2)
  | none => .error .found

def reapConnCache (m : Manager) : Except Assertion Manager :=
  m.destroyDropped { m with toTransports := m.toTransports.reapConnCache m.alive }

/-- A new socket with its user data. -/
def addSocket (m : Manager) (k : Socket) : Manager :=
  { m with sockets := m.sockets.insert m.numSockets k, numSockets := m.numSockets + 1 }

/-- The handle's new socket listens. -/
def bindAcceptor (m : Manager) (i : Nat) (h : Handle) (conn : Conn) : Except Assertion Manager :=
  match m.connCache.find? conn.port with
  | none => .error .found
  | some slot =>
    if slot.info.acceptorHandle.isSome then .error .acceptorHandle
    else
      let m' := (m.setInfo conn.port slot
        { slot.info with
          acceptorHandle := some i
          utpSocks := m.numSockets :: slot.info.utpSocks }).addSocket
        { name := none, localPort := conn.port, handle := some i, conn := conn }
      .ok (m'.setHandle i { h with utpSock := some m.numSockets })

/-- The handle's new socket connects to a peer with the port that was drawn. -/
def bindConnector (m : Manager) (i : Nat) (h : Handle) (conn : Conn) (ip : Ip) (port : Port)
    (utpPort : UtpPort) : Except Assertion Manager :=
  match m.connCache.find? conn.port with
  | none => .error .found
  | some slot =>
    if m.alive slot.conn then
      let m' := (m.setInfo conn.port slot
        { slot.info.setRoute ip utpPort { port := port, mtuDiscovery := true } with
          utpSocks := m.numSockets :: slot.info.utpSocks }).addSocket
        { name := some (ip, utpPort), localPort := conn.port, handle := some i, conn := conn }
      .ok (m'.setHandle i { h with utpSock := some m.numSockets })
    else .error .conn

/-- `unbind` with `utp_close`: the listening socket goes, another one stays without its handle
until libutp destroys it. -/
def unbind (m : Manager) (utpSock : Nat) (k : Socket) : Except Assertion Manager :=
  match m.connCache.find? k.localPort with
  | none => .error .found
  | some slot =>
    if slot.info.acceptorHandle = k.handle then
      if utpSock ∈ slot.info.utpSocks then
        .ok { m.setInfo k.localPort slot
                { slot.info with
                  acceptorHandle := none
                  utpSocks := slot.info.utpSocks.erase utpSock } with
              sockets := m.sockets.erase utpSock }
      else .error .utpSock
    else .ok { m with sockets := m.sockets.insert utpSock { k with handle := none } }

/-- `unbind` of a handle's socket, if it has one. -/
def closeSock (m : Manager) (h : Handle) : Except Assertion Manager :=
  match h.utpSock with
  | none => .ok m
  | some utpSock =>
    match m.sockets.find? utpSock with
    | none => .error .utpSock
    | some k => m.unbind utpSock k

/-- `UTPHandleImpl::onError`. -/
def onError (m : Manager) (i : Nat) (h : Handle) : Except Assertion Manager :=
  (m.closeSock h).map fun m => m.setHandle i { h with utpSock := none }

/-- `UTPHandleImpl::kill`, from `onKillHandles`. The place of the handle is free for a new
one. -/
def kill (m : Manager) (i : Nat) (h : Handle) : Except Assertion Manager :=
  (m.closeSock h).map fun m =>
    { m.setHandle i {} with closing := h.conn.toList ++ m.closing }

/-- `UTPHandleImpl::bind`. -/
def bind (m : Manager) (i : Nat) (h : Handle) (name : Port) (bound : Option Port) :
    Except Assertion Manager :=
  if h.conn.isSome then .error .handle
  else
    (m.createTransport name bound).map fun r => r.1.setHandle i { h with conn := r.2 }

/-- `UTPHandleImpl::listen`. -/
def listen (m : Manager) (i : Nat) (h : Handle) (sockName : Bool) : Except Assertion Manager :=
  match h.conn, h.utpSock with
  | some conn, none => if sockName then m.bindAcceptor i h conn else .ok m
  | _, _ => .error .handle

/-- What the environment answers in `connect`. -/
structure ConnectEnv where
  /-- The UDP port of a new transport, if one is needed. -/
  transport : Option Port := none
  resolved : Option (Ip × Port)
  /-- What `readRandom` gives. -/
  random : Option UtpPort
  deriving DecidableEq, Repr

/-- `UTPHandleImpl::connect` with a transport. -/
def connectOn (m : Manager) (i : Nat) (h : Handle) (conn : Conn) (env : ConnectEnv) :
    Except Assertion Manager :=
  match env.resolved, env.random with
  | some (ip, port), some utpPort => m.bindConnector i h conn ip port utpPort
  | _, _ => .ok m

/-- `UTPHandleImpl::connect`. -/
def connect (m : Manager) (i : Nat) (h : Handle) (env : ConnectEnv) : Except Assertion Manager :=
  if h.utpSock.isSome then .error .handle
  else
    match h.conn with
    | some conn => m.connectOn i h conn env
    | none => do
      let (m, conn) ← m.createTransport 0 env.transport
      match conn with
      | none => .ok m
      | some conn =>
        let h := { h with conn := some conn }
        (m.setHandle i h).connectOn i h conn env

/-- `getMappedPeerPort`. -/
def getMappedPeerPort (m : Manager) (localPort : Port) (ip : Ip) (utpPort : UtpPort) :
    Except Assertion Port :=
  match (m.connCache.find? localPort).bind fun slot => slot.info.route ip utpPort with
  | some info => .ok info.port
  | none => .error .route

/-- The start of `onRecv`: the datagram's route, new or with the port it came from. -/
def recvBegin (m : Manager) (port : Port) (slot : Slot ConnectionInfo) (ip : Ip) (srcPort : Port)
    (utpPort : UtpPort) : Manager :=
  let info := (slot.info.route ip utpPort).getD { port := srcPort }
  { m.setInfo port slot (slot.info.setRoute ip utpPort { info with port := srcPort }) with
    inRecv := some (slot.conn, ip, utpPort) }

/-- `utpOnFirewallFunc`, and `utpOnAcceptFunc` when the connection is not blocked. The new
socket belongs to the first transport that has the route. -/
def accept (m : Manager) (ip : Ip) (utpPort : UtpPort) : Except Assertion Manager :=
  match m.connCache.entries.find? fun e => (e.2.info.route ip utpPort).isSome with
  | none => .error .firewall
  | some (port, slot) =>
    if slot.info.acceptorHandle.isNone then .ok m
    else if m.alive slot.conn then
      let info := (slot.info.route ip utpPort).getD { port := 0 }
      let m' := (m.setInfo port slot
        { slot.info.setRoute ip utpPort { info with mtuDiscovery := true } with
          utpSocks := m.numSockets :: slot.info.utpSocks }).addSocket
        { name := some (ip, utpPort), localPort := port, handle := some m.handles.length,
          conn := slot.conn }
      .ok { m' with
        handles := m.handles ++ [{ conn := some slot.conn, utpSock := some m.numSockets }] }
    else .error .conn

/-- The end of `onRecv`. -/
def recvEnd (m : Manager) (conn : Conn) (ip : Ip) (utpPort : UtpPort) :
    Except Assertion Manager :=
  match m.connCache.find? conn.port with
  | none => .error .found
  | some slot =>
    .ok { m.setInfo conn.port slot (slot.info.dropRoute ip utpPort) with inRecv := none }

/-- `UTP_STATE_DESTROYING` in `utpOnStateChangeFunc`. -/
def destroy (m : Manager) (utpSock : Nat) (k : Socket) : Except Assertion Manager :=
  match m.connCache.find? k.localPort with
  | none => .ok { m with sockets := m.sockets.erase utpSock }
  | some slot =>
    (slot.info.removeUtpSock utpSock k.name).map fun c =>
      { m.setInfo k.localPort slot c with sockets := m.sockets.erase utpSock }

/-- The local port in `utpSendToFunc`: that of the socket, or of the first transport that has
the route when libutp answers without a socket. -/
def sendPort (m : Manager) (sock : Option Socket) (ip : Ip) (utpPort : UtpPort) : Option Port :=
  match sock with
  | some k => some k.localPort
  | none =>
    (m.connCache.entries.find? fun e => (e.2.info.route ip utpPort).isSome).map Prod.fst

/-- `utpSendToFunc`: the transport and the UDP address a packet is sent to, unless it is
dropped. -/
def utpSendToFunc (m : Manager) (sock : Option Socket) (ip : Ip) (utpPort : UtpPort) :
    Except Assertion (Option (Conn × Ip × Port)) :=
  match (m.sendPort sock ip utpPort).bind m.connCache.find? with
  | none => .ok none
  | some slot =>
    if m.alive slot.conn then
      let actualPort := ((slot.info.route ip utpPort).map PortInfo.port).getD 0
      if actualPort = 0 then .error .actualPort else .ok (some (slot.conn, ip, actualPort))
    else .ok none

end Manager

namespace Manager

inductive Event where
  | createStreamSocket
  | bind (i : Nat) (name : Port) (bound : Option Port)
  | listen (i : Nat) (sockName : Bool)
  | connect (i : Nat) (env : ConnectEnv)
  | getPeerName (i : Nat)
  | error (i : Nat)
  | kill (i : Nat)
  /-- A datagram of at least the size of a header: its transport, where it came from and the
  port in its header. -/
  | recvBegin (port : Port) (ip : Ip) (srcPort : Port) (utpPort : UtpPort)
  /-- libutp gets a SYN that it has no socket for. -/
  | accept
  | recvEnd
  | destroy (utpSock : Nat)
  /-- A posted `onTransportConnectionKill` runs. -/
  | transportKilled (conn : Conn)
  | reap
  deriving DecidableEq, Repr

/-- libutp has a socket for the peer name. -/
def hasPeer (m : Manager) (ip : Ip) (utpPort : UtpPort) : Bool :=
  m.sockets.any fun _ k => k.name = some (ip, utpPort)

/-- No socket has the 16 bytes, and the datagram that is being received has other ones. -/
def freshUtpPort (m : Manager) (utpPort : UtpPort) : Bool :=
  !(m.sockets.any fun _ k => k.name.any fun name => name.2 = utpPort) &&
    m.inRecv.all fun r => r.2.2 ≠ utpPort

/-- The call that an event makes, `none` when the event cannot happen. -/
def call (m : Manager) : Event → Option (Except Assertion Manager)
  | .createStreamSocket => some (.ok { m with handles := m.handles ++ [{}] })
  | .bind i name bound => (m.handles[i]?).map fun h => m.bind i h name bound
  | .listen i sockName => (m.handles[i]?).map fun h => m.listen i h sockName
  | .connect i env => (m.handles[i]?).bind fun h =>
    if env.random.all m.freshUtpPort then some (m.connect i h env) else none
  | .getPeerName i => (m.handles[i]?).bind fun h =>
    match h.conn, (h.utpSock.bind m.sockets.find?).bind Socket.name with
    | some conn, some (ip, utpPort) =>
      some ((m.getMappedPeerPort conn.port ip utpPort).map fun _ => m)
    | _, _ => none
  | .error i => (m.handles[i]?).bind fun h =>
    if ((h.utpSock.bind m.sockets.find?).bind Socket.name).isSome then some (m.onError i h)
    else none
  | .kill i => if m.inRecv.isSome then none else (m.handles[i]?).map fun h => m.kill i h
  | .recvBegin port ip srcPort utpPort => (m.connCache.find? port).bind fun slot =>
    if m.inRecv.isNone && m.alive slot.conn then
      some (.ok (m.recvBegin port slot ip srcPort utpPort))
    else none
  | .accept => m.inRecv.bind fun r =>
    if m.hasPeer r.2.1 r.2.2 then none else some (m.accept r.2.1 r.2.2)
  | .recvEnd => m.inRecv.map fun r => m.recvEnd r.1 r.2.1 r.2.2
  | .destroy utpSock => (m.sockets.find? utpSock).bind fun k =>
    if m.inRecv.isNone && k.name.isSome && k.handle.isNone then some (m.destroy utpSock k)
    else none
  | .transportKilled conn =>
    if m.inRecv.isNone && m.closing.contains conn then
      some (.ok { m with closing := m.closing.erase conn })
    else none
  | .reap => if m.inRecv.isNone then some m.reapConnCache else none

def step (m : Manager) (e : Event) : Option Manager := (m.call e).bind Except.toOption

abbrev Run (es : List Event) (m : Manager) : Prop := exec step {} es = some m

/-- The call of an event, with what has to hold for the event to happen. -/
inductive Call (m : Manager) : Event → Except Assertion Manager → Prop
  | createStreamSocket : Call m .createStreamSocket (.ok { m with handles := m.handles ++ [{}] })
  | bind {i : Nat} {h : Handle} {name : Port} {bound : Option Port}
      (hi : m.handles[i]? = some h) : Call m (.bind i name bound) (m.bind i h name bound)
  | listen {i : Nat} {h : Handle} {sockName : Bool} (hi : m.handles[i]? = some h) :
      Call m (.listen i sockName) (m.listen i h sockName)
  | connect {i : Nat} {h : Handle} {env : ConnectEnv} (hi : m.handles[i]? = some h)
      (hfresh : env.random.all m.freshUtpPort = true) : Call m (.connect i env) (m.connect i h env)
  | getPeerName {i : Nat} {h : Handle} {conn : Conn} {s : Nat} {k : Socket} {ip : Ip}
      {u : UtpPort} (hi : m.handles[i]? = some h) (hconn : h.conn = some conn)
      (hsock : h.utpSock = some s) (hk : m.sockets.find? s = some k)
      (hname : k.name = some (ip, u)) :
      Call m (.getPeerName i) ((m.getMappedPeerPort conn.port ip u).map fun _ => m)
  | error {i : Nat} {h : Handle} (hi : m.handles[i]? = some h)
      (hname : ((h.utpSock.bind m.sockets.find?).bind Socket.name).isSome = true) :
      Call m (.error i) (m.onError i h)
  | kill {i : Nat} {h : Handle} (hrecv : m.inRecv = none) (hi : m.handles[i]? = some h) :
      Call m (.kill i) (m.kill i h)
  | recvBegin {port : Port} {slot : Slot ConnectionInfo} {ip : Ip} {srcPort : Port} {u : UtpPort}
      (hslot : m.connCache.find? port = some slot) (hrecv : m.inRecv = none)
      (halive : m.alive slot.conn = true) :
      Call m (.recvBegin port ip srcPort u) (.ok (m.recvBegin port slot ip srcPort u))
  | accept {conn : Conn} {ip : Ip} {u : UtpPort} (hrecv : m.inRecv = some (conn, ip, u))
      (hpeer : m.hasPeer ip u = false) : Call m .accept (m.accept ip u)
  | recvEnd {conn : Conn} {ip : Ip} {u : UtpPort} (hrecv : m.inRecv = some (conn, ip, u)) :
      Call m .recvEnd (m.recvEnd conn ip u)
  | destroy {s : Nat} {k : Socket} (hk : m.sockets.find? s = some k) (hrecv : m.inRecv = none)
      (hname : k.name.isSome = true) (hhandle : k.handle = none) :
      Call m (.destroy s) (m.destroy s k)
  | transportKilled {conn : Conn} (hrecv : m.inRecv = none) (hmem : conn ∈ m.closing) :
      Call m (.transportKilled conn) (.ok { m with closing := m.closing.erase conn })
  | reap (hrecv : m.inRecv = none) : Call m .reap m.reapConnCache

section Calls

variable {m m' : Manager} {e : Event} {i : Nat} {h : Handle}

theorem call_cases {r : Except Assertion Manager} (hcall : m.call e = some r) : m.Call e r := by
  cases e with
  | createStreamSocket =>
    cases hcall
    exact .createStreamSocket
  | bind i name bound =>
    obtain ⟨h, hi, rfl⟩ := Option.map_eq_some_iff.mp hcall
    exact .bind hi
  | listen i sockName =>
    obtain ⟨h, hi, rfl⟩ := Option.map_eq_some_iff.mp hcall
    exact .listen hi
  | connect i env =>
    obtain ⟨h, hi, hcall⟩ := Option.bind_eq_some_iff.mp hcall
    obtain ⟨hfresh, hcall⟩ := Option.ite_none_right_eq_some.mp hcall
    cases hcall
    exact .connect hi hfresh
  | getPeerName i =>
    obtain ⟨h, hi, hcall⟩ := Option.bind_eq_some_iff.mp hcall
    split at hcall
    · rename_i conn ip u hconn hname
      obtain ⟨k, hk, hname⟩ := Option.bind_eq_some_iff.mp hname
      obtain ⟨s, hsock, hk⟩ := Option.bind_eq_some_iff.mp hk
      cases hcall
      exact .getPeerName hi hconn hsock hk hname
    · cases hcall
  | error i =>
    obtain ⟨h, hi, hcall⟩ := Option.bind_eq_some_iff.mp hcall
    obtain ⟨hname, hcall⟩ := Option.ite_none_right_eq_some.mp hcall
    cases hcall
    exact .error hi hname
  | kill i =>
    obtain ⟨hrecv, hcall⟩ := Option.ite_none_left_eq_some.mp hcall
    obtain ⟨h, hi, rfl⟩ := Option.map_eq_some_iff.mp hcall
    exact .kill (Option.not_isSome_iff_eq_none.mp hrecv) hi
  | recvBegin port ip srcPort u =>
    obtain ⟨slot, hslot, hcall⟩ := Option.bind_eq_some_iff.mp hcall
    obtain ⟨hguard, hcall⟩ := Option.ite_none_right_eq_some.mp hcall
    obtain ⟨hrecv, halive⟩ := Bool.and_eq_true_iff.mp hguard
    cases hcall
    exact .recvBegin hslot (Option.isNone_iff_eq_none.mp hrecv) halive
  | accept =>
    obtain ⟨⟨conn, ip, u⟩, hrecv, hcall⟩ := Option.bind_eq_some_iff.mp hcall
    obtain ⟨hpeer, hcall⟩ := Option.ite_none_left_eq_some.mp hcall
    cases hcall
    exact .accept hrecv (Bool.eq_false_iff.mpr hpeer)
  | recvEnd =>
    obtain ⟨⟨conn, ip, u⟩, hrecv, rfl⟩ := Option.map_eq_some_iff.mp hcall
    exact .recvEnd hrecv
  | destroy s =>
    obtain ⟨k, hk, hcall⟩ := Option.bind_eq_some_iff.mp hcall
    obtain ⟨hguard, hcall⟩ := Option.ite_none_right_eq_some.mp hcall
    simp only [Bool.and_eq_true, Option.isNone_iff_eq_none] at hguard
    obtain ⟨⟨hrecv, hname⟩, hhandle⟩ := hguard
    cases hcall
    exact .destroy hk hrecv hname hhandle
  | transportKilled conn =>
    obtain ⟨hguard, hcall⟩ := Option.ite_none_right_eq_some.mp hcall
    obtain ⟨hrecv, hmem⟩ := Bool.and_eq_true_iff.mp hguard
    cases hcall
    exact .transportKilled (Option.isNone_iff_eq_none.mp hrecv) (List.contains_iff_mem.mp hmem)
  | reap =>
    obtain ⟨hrecv, hcall⟩ := Option.ite_none_right_eq_some.mp hcall
    cases hcall
    exact .reap (Option.isNone_iff_eq_none.mp hrecv)

/-- A step is a call that returns. -/
theorem step_cases (hstep : m.step e = some m') : ∃ r, m.Call e r ∧ r = .ok m' := by
  obtain ⟨r, hcall, hr⟩ := Option.bind_eq_some_iff.mp hstep
  exact ⟨r, call_cases hcall, toOption_eq_some hr⟩

theorem bind_ok {name : Port} {bound : Option Port} (hok : m.bind i h name bound = .ok m') :
    h.conn = none ∧ ∃ m₁ conn, m.createTransport name bound = .ok (m₁, conn) ∧
      m' = m₁.setHandle i { h with conn := conn } := by
  rw [Manager.bind] at hok
  split at hok
  · cases hok
  · rename_i hsome
    obtain ⟨⟨m₁, conn⟩, hcreate, rfl⟩ := map_eq_ok hok
    exact ⟨Option.not_isSome_iff_eq_none.mp hsome, m₁, conn, hcreate, rfl⟩

theorem listen_ok {sockName : Bool} (hok : m.listen i h sockName = .ok m') :
    m' = m ∨ ∃ conn, h.conn = some conn ∧ h.utpSock = none ∧ m.bindAcceptor i h conn = .ok m' := by
  rw [listen] at hok
  split at hok
  · rename_i conn hconn hnone
    split at hok
    · exact .inr ⟨conn, hconn, hnone, hok⟩
    · cases hok
      exact .inl rfl
  · cases hok

/-- How `connect` returns: over the transport of the handle, or over a new one if there is
one to be had. -/
inductive Connects (m : Manager) (i : Nat) (h : Handle) (env : ConnectEnv) (m' : Manager) : Prop
  | bound {conn : Conn} (hconn : h.conn = some conn) (hok : m.connectOn i h conn env = .ok m')
  | failed (hconn : h.conn = none)
      (hcreate : m.createTransport 0 env.transport = .ok (m', none))
  | created {m₁ : Manager} {conn : Conn} (hconn : h.conn = none)
      (hcreate : m.createTransport 0 env.transport = .ok (m₁, some conn))
      (hok : (m₁.setHandle i { h with conn := some conn }).connectOn i
        { h with conn := some conn } conn env = .ok m')

theorem connect_ok {env : ConnectEnv} (hok : m.connect i h env = .ok m') :
    h.utpSock = none ∧ Connects m i h env m' := by
  rw [Manager.connect] at hok
  split at hok
  · cases hok
  · rename_i hsome
    refine ⟨Option.not_isSome_iff_eq_none.mp hsome, ?_⟩
    split at hok
    · rename_i conn hconn
      exact .bound hconn hok
    · rename_i hconn
      obtain ⟨⟨m₁, res⟩, hcreate, hrest⟩ := bind_eq_ok hok
      cases res with
      | none =>
        cases hrest
        exact .failed hconn hcreate
      | some conn => exact .created hconn hcreate hrest

end Calls

end Manager

end DTun.Util.Utp
