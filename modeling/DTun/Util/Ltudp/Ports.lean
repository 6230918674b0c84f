import DTun.Lib.Calls
import DTun.Lib.Runs
import DTun.Util.Transports

/-!
# Address translation of an LTUDP transport

One UDP socket carries the TCP segments of many lwIP connections.
`LTUDPManager::ConnectionInfo` says, for each peer address, which UDP port a TCP port
stands for. When the transport is an acceptor the TCP ports are the peer's own. When it is
a connector they are made up by `pcbConnect`, and `revPortMap` remembers which of them the
peer's own TCP port was translated to.

Assertions are compiled in: a call ends normally or at the assertion that failed, and a run
ends there. `~PortInfo` has one of its own, that no connection uses the entry that is
dropped. Ports are in host order, the order of `PortComparer`.
-/

namespace DTun.Util.Ltudp

open Lib (OrderedMap)
open Lib.Calls

/-- What `LTUDPManager` asserts. -/
inductive Assertion where
  /-- An address or a port is not 0. -/
  | argument
  /-- The transport has the role, or no handle keeps it in the other one. -/
  | role
  /-- `numHandles` is positive or does not become negative. -/
  | handles
  /-- The transport, the peer or the entry of a pcb is found; a new port has none. -/
  | found
  /-- A handle is bound or not bound. -/
  | handle
  /-- `numActiveConns` does not become negative. -/
  | count
  /-- The entry that a reverse entry names is found. -/
  | reverse
  /-- No connection uses a `PortInfo` that is destroyed. -/
  | portInfo
  /-- The port a segment is sent to is not 0. -/
  | actualPort
  deriving DecidableEq, Repr

structure PortInfo where
  port : Port := 0
  numActiveConns : Int := 0
  deriving DecidableEq, Repr

abbrev PortMap := OrderedMap Port PortInfo

structure PeerInfo where
  /-- The UDP port each TCP port stands for. -/
  portMap : PortMap := .empty
  /-- The TCP port each TCP port of the peer was translated to, connectors only. -/
  revPortMap : PortMap := .empty

namespace PeerInfo

/-- The loop of `pcbConnect`: the key of the entry for `port`, or else the first key from
`portToUse` on that is free, 0 when `uint16_t` wraps around. -/
def search (port : Nat) : Nat → List (Nat × PortInfo) → Bool × Nat
  | portToUse, [] => (false, portToUse)
  | portToUse, e :: rest =>
    if e.2.port = port then (true, e.1)
    else search port (if e.1 = portToUse then (portToUse + 1) % 65536 else portToUse) rest

/-- `pcbConnect` on the peer it is about: the key, 0 when all of them are busy. -/
def connect (peer : PeerInfo) (port : Port) : PeerInfo × Port :=
  let (found, key) := search port 0x400 peer.portMap.entries
  if !found && key = 0 then (peer, 0)
  else
    let old := (peer.portMap.find? key).getD {}
    let info := if found then old else { old with port := port }
    ({ portMap :=
        peer.portMap.insert key { info with numActiveConns := info.numActiveConns + 1 }
       revPortMap :=
        if info.numActiveConns = 0 then peer.revPortMap.eraseFirst (·.port = key)
        else peer.revPortMap },
      key)

/-- `pcbDisconnect` on the peer it is about. -/
def disconnect (peer : PeerInfo) (key : Port) : Except Assertion PeerInfo :=
  match peer.portMap.find? key with
  | none => .error .found
  | some info =>
    if 0 ≤ info.numActiveConns - 1 then
      .ok { peer with
        portMap := peer.portMap.insert key
          { info with numActiveConns := info.numActiveConns - 1 } }
    else .error .count

/-- The reverse entry of the TCP port `src`, made from the source UDP port of the datagram
when there is none yet. -/
def reverse (peer : PeerInfo) (srcPort src : Port) : Option (PeerInfo × Port) :=
  match peer.revPortMap.find? src with
  | some r => some (peer, r.port)
  | none =>
    (peer.portMap.first? (·.port = srcPort)).map fun e =>
      ({ peer with revPortMap := peer.revPortMap.insert src { port := e.1 } }, e.1)

/-- The first loop of a remap: the entry that has the new port goes, with the first
reverse entry that names it. -/
def dropMapped (peer : PeerInfo) (srcPort : Port) : Except Assertion PeerInfo :=
  match peer.portMap.first? (·.port = srcPort) with
  | none => .ok peer
  | some (tmpPort, info) =>
    if info.numActiveConns = 0 then
      .ok { portMap := peer.portMap.erase tmpPort
            revPortMap := peer.revPortMap.eraseFirst (·.port = tmpPort) }
    else .error .portInfo

/-- A segment with source port `src` in a datagram from `srcPort`, for a connector: the
source port lwIP sees, unless the segment is ignored. -/
def receive (peer : PeerInfo) (srcPort src : Port) :
    Except Assertion (Option (PeerInfo × Port)) :=
  match peer.reverse srcPort src with
  | none => .ok none
  | some (peer, key) =>
    match peer.portMap.find? key with
    | none => .error .reverse
    | some info =>
      if info.port = srcPort then .ok (some (peer, key))
      else
        (peer.dropMapped srcPort).map fun peer =>
          some ({ peer with portMap := peer.portMap.insert key { info with port := srcPort } },
            key)

/-- The peer's TCP port is translated to an entry for another UDP port. -/
def remaps (peer : PeerInfo) (srcPort src : Port) : Bool :=
  ((peer.revPortMap.find? src).bind fun r => peer.portMap.find? r.port).any
    fun info => info.port ≠ srcPort

/-- The same for an acceptor, where the source port stays. -/
def learn (peer : PeerInfo) (srcPort src : Port) : PeerInfo :=
  { peer with
    portMap := peer.portMap.insert src
      { (peer.portMap.find? src).getD {} with port := srcPort } }

end PeerInfo

/-- A datagram of at least the size of a TCP header: where it came from and the ports of
the segment in it. -/
structure Datagram where
  srcIp : Ip
  srcPort : Port
  src : Port
  dst : Port
  deriving DecidableEq, Repr

/-- The ports of a segment that is passed on to lwIP. -/
structure Segment where
  src : Port
  dst : Port
  deriving DecidableEq, Repr

structure ConnectionInfo where
  isAcceptor : Bool := false
  numHandles : Int := 0
  peers : OrderedMap Ip PeerInfo := .empty
  acceptorLocalPort : Port := 0

namespace ConnectionInfo

def setPeer (c : ConnectionInfo) (ip : Ip) (peer : PeerInfo) : ConnectionInfo :=
  { c with peers := c.peers.insert ip peer }

/-- `peers.clear()`. -/
def clearPeers (c : ConnectionInfo) : Except Assertion ConnectionInfo :=
  if c.peers.any fun _ peer => peer.portMap.any fun _ info => info.numActiveConns ≠ 0 then
    .error .portInfo
  else .ok { c with peers := .empty }

/-- `pcbBindAcceptor`, where `tcp_bind` gives the pcb a port or fails. Later acceptors share
the port of the first. The result is the port, 0 after a failure. -/
def bindAcceptor (c : ConnectionInfo) (tcpBind : Option Port) :
    Except Assertion (ConnectionInfo × Port) :=
  if c.isAcceptor = false ∧ c.numHandles ≠ 0 then .error .role
  else if 0 < c.numHandles ∧ c.acceptorLocalPort = 0 then .error .argument
  else
    match tcpBind with
    | none => .ok (c, 0)
    | some port =>
      let tcpPort := if 0 < c.numHandles then c.acceptorLocalPort else port
      if tcpPort = 0 then .error .argument
      else
        (if c.isAcceptor then .ok c else c.clearPeers).map fun c =>
          ({ c with
              acceptorLocalPort := tcpPort
              isAcceptor := true
              numHandles := c.numHandles + 1 }, tcpPort)

/-- `pcbBindConnector`. -/
def bindConnector (c : ConnectionInfo) (tcpBind : Option Port) :
    Except Assertion (ConnectionInfo × Port) :=
  if c.isAcceptor = true ∧ c.numHandles ≠ 0 then .error .role
  else
    match tcpBind with
    | none => .ok (c, 0)
    | some tcpPort =>
      if tcpPort = 0 then .error .argument
      else
        (if c.isAcceptor then c.clearPeers else .ok c).map fun c =>
          ({ c with
              acceptorLocalPort := 0
              isAcceptor := false
              numHandles := c.numHandles + 1 }, tcpPort)

/-- `createStreamSocket` for an accepted pcb. -/
def accept (c : ConnectionInfo) : Except Assertion ConnectionInfo :=
  if c.isAcceptor = false then .error .role
  else if 0 < c.numHandles then .ok { c with numHandles := c.numHandles + 1 }
  else .error .handles

def pcbUnbind (c : ConnectionInfo) : Except Assertion ConnectionInfo :=
  if 0 ≤ c.numHandles - 1 then .ok { c with numHandles := c.numHandles - 1 }
  else .error .handles

/-- The new state, and the TCP port that stands for the peer's UDP port. -/
def pcbConnect (c : ConnectionInfo) (ip : Ip) (port : Port) :
    Except Assertion (ConnectionInfo × Port) :=
  if ip = 0 ∨ port = 0 then .error .argument
  else if c.isAcceptor then .error .role
  else
    let (peer, key) := ((c.peers.find? ip).getD {}).connect port
    .ok (c.setPeer ip peer, key)

def pcbDisconnect (c : ConnectionInfo) (ip : Ip) (key : Port) :
    Except Assertion ConnectionInfo :=
  if ip = 0 ∨ key = 0 then .error .argument
  else if c.isAcceptor then .error .role
  else
    match c.peers.find? ip with
    | none => .error .found
    | some peer =>
      (peer.disconnect key).map (c.setPeer ip)

/-- The translation in `onRecv`, with the segment that is passed on if there is one. -/
def onRecv (c : ConnectionInfo) (d : Datagram) :
    Except Assertion (ConnectionInfo × Option Segment) :=
  if c.isAcceptor then
    let peer := ((c.peers.find? d.srcIp).getD {}).learn d.srcPort d.src
    .ok (c.setPeer d.srcIp peer, some { src := d.src, dst := c.acceptorLocalPort })
  else
    match c.peers.find? d.srcIp with
    | none => .ok (c, none)
    | some peer =>
      (peer.receive d.srcPort d.src).map fun passed =>
        match passed with
        | none => (c, none)
        | some (peer, key) => (c.setPeer d.srcIp peer, some { src := key, dst := d.dst })

def mapping (c : ConnectionInfo) (ip : Ip) (key : Port) : Option PortInfo :=
  (c.peers.find? ip).bind (·.portMap.find? key)

/-- `actualPort` of a segment to `ip` and the TCP port `key`. -/
def actualPort (c : ConnectionInfo) (ip : Ip) (key : Port) : Port :=
  match c.mapping ip key with
  | some info => info.port
  | none => 0

/-- The end of `netifOutputFunc`: the UDP address the segment is sent to. -/
def output (c : ConnectionInfo) (ip : Ip) (key : Port) : Except Assertion (Ip × Port) :=
  if c.actualPort ip key = 0 then .error .actualPort else .ok (ip, c.actualPort ip key)

end ConnectionInfo

/-- What happens to one `ConnectionInfo`. -/
inductive Event where
  | bindAcceptor (tcpBind : Option Port)
  | bindConnector (tcpBind : Option Port)
  | accept
  | unbind
  | connect (ip : Ip) (port : Port)
  | disconnect (ip : Ip) (key : Port)
  | datagram (d : Datagram)
  deriving DecidableEq, Repr

namespace ConnectionInfo

def call (c : ConnectionInfo) : Event → Except Assertion ConnectionInfo
  | .bindAcceptor tcpBind => (c.bindAcceptor tcpBind).map Prod.fst
  | .bindConnector tcpBind => (c.bindConnector tcpBind).map Prod.fst
  | .accept => c.accept
  | .unbind => c.pcbUnbind
  | .connect ip port => (c.pcbConnect ip port).map Prod.fst
  | .disconnect ip key => c.pcbDisconnect ip key
  | .datagram d => (c.onRecv d).map Prod.fst

def step (c : ConnectionInfo) (e : Event) : Option ConnectionInfo := (c.call e).toOption

abbrev Run (es : List Event) (c : ConnectionInfo) : Prop :=
  Lib.Runs.exec step {} es = some c

end ConnectionInfo

namespace PeerInfo

variable {peer peer' : PeerInfo} {port srcPort src key : Port}

theorem search_found {port use key : Nat} {l : List (Nat × PortInfo)}
    (h : search port use l = (true, key)) : ∃ info, (key, info) ∈ l ∧ info.port = port := by
  induction l generalizing use with
  | nil => simp [search] at h
  | cons e rest ih =>
    rw [search] at h
    split at h
    · rename_i hport
      obtain rfl : e.1 = key := congrArg Prod.snd h
      exact ⟨e.2, List.mem_cons_self, hport⟩
    · obtain ⟨info, hmem, hport⟩ := ih h
      exact ⟨info, List.mem_cons_of_mem _ hmem, hport⟩

theorem search_absent {port use key : Nat} {l : List (Nat × PortInfo)}
    (h : search port use l = (false, key)) : ∀ e ∈ l, e.2.port ≠ port := by
  induction l generalizing use with
  | nil => simp
  | cons e rest ih =>
    rw [search] at h
    split at h
    · simp at h
    · rename_i hport
      intro e' he'
      rcases List.mem_cons.mp he' with rfl | he'
      · exact hport
      · exact ih h e' he'

/-- A candidate below all the keys is kept. -/
theorem search_below {port use key : Nat} {l : List (Nat × PortInfo)}
    (hlt : ∀ e ∈ l, use < e.1) (h : search port use l = (false, key)) : key = use := by
  induction l with
  | nil =>
    simp only [search, Prod.mk.injEq, true_and] at h
    exact h.symm
  | cons e rest ih =>
    have he := hlt e List.mem_cons_self
    rw [search] at h
    split at h
    · simp at h
    · rw [if_neg he.ne'] at h
      exact ih (fun e' he' => hlt e' (List.mem_cons_of_mem _ he')) h

/-- The candidate that is left is no key of the map. The keys come in order, so that it is
never behind a key that was passed. -/
theorem search_free {port use key : Nat} {l : List (Nat × PortInfo)}
    (hl : l.Pairwise (fun a b => a.1 < b.1)) (huse : use < 65536)
    (h : search port use l = (false, key)) (hkey : key ≠ 0) :
    use ≤ key ∧ ∀ e ∈ l, e.1 ≠ key := by
  induction l generalizing use with
  | nil =>
    simp only [search, Prod.mk.injEq, true_and] at h
    simp [h]
  | cons e rest ih =>
    obtain ⟨he, hrest⟩ := List.pairwise_cons.mp hl
    rw [search] at h
    split at h
    · simp at h
    · split at h
      · rename_i heq
        by_cases hwrap : use + 1 = 65536
        · -- 0 is below the keys that are left, and so it would be the result
          rw [hwrap] at h
          have hlt : ∀ e' ∈ rest, 0 < e'.1 := fun e' he' => Nat.zero_lt_of_lt (he e' he')
          exact absurd (search_below hlt h) hkey
        · have hlt : use + 1 < 65536 := by omega
          rw [Nat.mod_eq_of_lt hlt] at h
          obtain ⟨hle, hne⟩ := ih hrest hlt h
          refine ⟨by omega, fun e' he' => ?_⟩
          rcases List.mem_cons.mp he' with rfl | he'
          · omega
          · exact hne e' he'
      · rename_i hneq
        obtain ⟨hle, hne⟩ := ih hrest huse h
        refine ⟨hle, fun e' he' => ?_⟩
        rcases List.mem_cons.mp he' with rfl | he'
        · intro hk
          have hlt : ∀ a ∈ rest, use < a.1 := fun a ha => by have := he a ha; omega
          have := search_below hlt h
          omega
        · exact hne e' he'

/-- What `connect` can do: all ports are busy, an entry gets one more connection, or there
is a new entry. -/
inductive Connected (peer : PeerInfo) (port : Port) : PeerInfo × Port → Prop where
  | busy (habsent : ∀ k info, peer.portMap.find? k = some info → info.port ≠ port) :
    Connected peer port (peer, 0)
  | joined {key : Port} {info : PortInfo} (hfind : peer.portMap.find? key = some info)
    (hport : info.port = port) :
    Connected peer port
      ({ portMap :=
          peer.portMap.insert key { info with numActiveConns := info.numActiveConns + 1 }
         revPortMap :=
          if info.numActiveConns = 0 then peer.revPortMap.eraseFirst (·.port = key)
          else peer.revPortMap }, key)
  | opened {key : Port} (hkey : key ≠ 0) (hfind : peer.portMap.find? key = none)
    (habsent : ∀ k info, peer.portMap.find? k = some info → info.port ≠ port) :
    Connected peer port
      ({ portMap := peer.portMap.insert key { port := port, numActiveConns := 1 }
         revPortMap := peer.revPortMap.eraseFirst (·.port = key) }, key)

theorem connected (peer : PeerInfo) (port : Port) :
    Connected peer port (peer.connect port) := by
  rw [connect]
  generalize hsearch : search port 0x400 peer.portMap.entries = r
  obtain ⟨found, key⟩ := r
  cases found with
  | true =>
    obtain ⟨info, hmem, hport⟩ := search_found hsearch
    have hfind := peer.portMap.mem_entries_iff.mp hmem
    simp only [Bool.not_true, Bool.false_and, Bool.false_eq_true, ↓reduceIte, hfind,
      Option.getD_some]
    exact .joined hfind hport
  | false =>
    have habsent : ∀ k info, peer.portMap.find? k = some info → info.port ≠ port :=
      fun k info hf => search_absent hsearch (k, info) (peer.portMap.mem_entries_iff.mpr hf)
    by_cases hkey : key = 0
    · subst hkey
      exact .busy habsent
    · obtain ⟨_, hne⟩ := search_free peer.portMap.sorted (by decide) hsearch hkey
      have hfind : peer.portMap.find? key = none := by
        cases hf : peer.portMap.find? key with
        | none => rfl
        | some info => exact absurd rfl (hne (key, info) (peer.portMap.mem_entries_iff.mpr hf))
      simp only [Bool.not_false, Bool.true_and, decide_eq_true_eq, hkey, ↓reduceIte, hfind,
        Option.getD_none, Bool.false_eq_true]
      exact .opened hkey hfind habsent

/-- What `receive` can do with a segment that it passes on: the reverse entry leads to the
port the datagram came from, there is none yet, it leads to another port and no entry has
the new one, or the entry that has it is dropped. -/
inductive Received (peer : PeerInfo) (srcPort src : Port) : PeerInfo → Port → Prop where
  | same {r info : PortInfo} (hrev : peer.revPortMap.find? src = some r)
    (hinfo : peer.portMap.find? r.port = some info) (hport : info.port = srcPort) :
    Received peer srcPort src peer r.port
  | fresh {e : Port × PortInfo} (hrev : peer.revPortMap.find? src = none)
    (hfirst : peer.portMap.first? (·.port = srcPort) = some e) :
    Received peer srcPort src
      { peer with revPortMap := peer.revPortMap.insert src { port := e.1 } } e.1
  | moved {r info : PortInfo} (hrev : peer.revPortMap.find? src = some r)
    (hinfo : peer.portMap.find? r.port = some info) (hport : info.port ≠ srcPort)
    (hfirst : peer.portMap.first? (·.port = srcPort) = none) :
    Received peer srcPort src
      { peer with portMap := peer.portMap.insert r.port { info with port := srcPort } } r.port
  | taken {r info other : PortInfo} {tmpPort : Port}
    (hrev : peer.revPortMap.find? src = some r)
    (hinfo : peer.portMap.find? r.port = some info) (hport : info.port ≠ srcPort)
    (hfirst : peer.portMap.first? (·.port = srcPort) = some (tmpPort, other))
    (hidle : other.numActiveConns = 0) :
    Received peer srcPort src
      { portMap := (peer.portMap.erase tmpPort).insert r.port { info with port := srcPort }
        revPortMap := peer.revPortMap.eraseFirst (·.port = tmpPort) } r.port

theorem received (h : peer.receive srcPort src = .ok (some (peer', key))) :
    Received peer srcPort src peer' key := by
  rw [receive, reverse] at h
  cases hrev : peer.revPortMap.find? src with
  | none =>
    cases hfirst : peer.portMap.first? (·.port = srcPort) with
    | none => simp [hrev, hfirst] at h
    | some e =>
      obtain ⟨hfind, hport⟩ := peer.portMap.first?_eq_some hfirst
      simp only [hrev, hfirst, Option.map_some, hfind, of_decide_eq_true hport, ↓reduceIte] at h
      obtain ⟨rfl, rfl⟩ : _ ∧ _ := by simpa using h
      exact .fresh hrev hfirst
  | some r =>
    cases hinfo : peer.portMap.find? r.port with
    | none => simp [hrev, hinfo] at h
    | some info =>
      by_cases hport : info.port = srcPort
      · simp only [hrev, hinfo, hport, ↓reduceIte] at h
        obtain ⟨rfl, rfl⟩ : _ ∧ _ := by simpa using h
        exact .same hrev hinfo hport
      · simp only [hrev, hinfo, hport, ↓reduceIte, dropMapped] at h
        cases hfirst : peer.portMap.first? (·.port = srcPort) with
        | none =>
          simp only [hfirst] at h
          obtain ⟨rfl, rfl⟩ : _ ∧ _ := by simpa [Except.map] using h
          exact .moved hrev hinfo hport hfirst
        | some e =>
          obtain ⟨tmpPort, other⟩ := e
          simp only [hfirst] at h
          split at h
          · rename_i hidle
            obtain ⟨rfl, rfl⟩ : _ ∧ _ := by simpa [Except.map] using h
            exact .taken hrev hinfo hport hfirst hidle
          · simp [Except.map] at h

/-- Where `receive` can fail: a reverse entry names no entry, or the entry that a remap
drops is in use. -/
theorem receive_error {a : Assertion} (h : peer.receive srcPort src = .error a) :
    ∃ r, peer.revPortMap.find? src = some r ∧
      (a = .reverse ∧ peer.portMap.find? r.port = none ∨
        a = .portInfo ∧ ∃ info e, peer.portMap.find? r.port = some info ∧
          info.port ≠ srcPort ∧ peer.portMap.first? (·.port = srcPort) = some e ∧
          e.2.numActiveConns ≠ 0) := by
  rw [receive, reverse] at h
  cases hrev : peer.revPortMap.find? src with
  | none =>
    cases hfirst : peer.portMap.first? (·.port = srcPort) with
    | none => simp [hrev, hfirst] at h
    | some e =>
      obtain ⟨hfind, hport⟩ := peer.portMap.first?_eq_some hfirst
      simp [hrev, hfirst, hfind, of_decide_eq_true hport] at h
  | some r =>
    refine ⟨r, rfl, ?_⟩
    cases hinfo : peer.portMap.find? r.port with
    | none =>
      simp only [hrev, hinfo] at h
      exact .inl ⟨(Except.error.inj h).symm, rfl⟩
    | some info =>
      simp only [hrev, hinfo] at h
      split at h
      · cases h
      · rename_i hport
        rw [dropMapped] at h
        cases hfirst : peer.portMap.first? (·.port = srcPort) with
        | none => simp [hfirst, Except.map] at h
        | some e =>
          simp only [hfirst] at h
          split at h
          · cases h
          · rename_i hactive
            exact .inr ⟨(Except.error.inj h).symm, info, e, rfl, hport, rfl, hactive⟩

end PeerInfo

namespace ConnectionInfo

variable {c c' : ConnectionInfo} {e : Event}

/-- Where `onRecv` can fail. -/
theorem onRecv_error {d : Datagram} {a : Assertion} (h : c.onRecv d = .error a) :
    ∃ peer, c.peers.find? d.srcIp = some peer ∧ peer.receive d.srcPort d.src = .error a := by
  rw [onRecv] at h
  split at h
  · cases h
  · cases hfind : c.peers.find? d.srcIp with
    | none => rw [hfind] at h; cases h
    | some peer =>
      rw [hfind] at h
      dsimp only at h
      cases hrecv : peer.receive d.srcPort d.src with
      | ok passed => rw [hrecv] at h; cases h
      | error b =>
        rw [hrecv] at h
        cases h
        exact ⟨peer, rfl, hrecv⟩

theorem getD_find? (c : ConnectionInfo) (ip : Ip) (key : Port) :
    ((c.peers.find? ip).getD {}).portMap.find? key = c.mapping ip key := by
  rw [mapping]
  cases c.peers.find? ip with
  | none => rfl
  | some peer => rfl

theorem mapping_of_find? {ip : Ip} {peer : PeerInfo} (h : c.peers.find? ip = some peer)
    (key : Port) : c.mapping ip key = peer.portMap.find? key := by
  rw [mapping, h, Option.bind_some]

theorem mapping_setPeer (c : ConnectionInfo) (ip ip' : Ip) (peer : PeerInfo) (key : Port) :
    (c.setPeer ip peer).mapping ip' key =
      if ip' = ip then peer.portMap.find? key else c.mapping ip' key := by
  simp only [mapping, setPeer, c.peers.find?_insert]
  split
  · rfl
  · rfl

theorem actualPort_of_mapping {ip : Ip} {key : Port} {info : PortInfo}
    (h : c.mapping ip key = some info) : c.actualPort ip key = info.port := by
  rw [actualPort, h]

/-- What a call does to the role and to the peers. -/
inductive Change (c : ConnectionInfo) : Event → ConnectionInfo → Prop where
  | kept {e : Event} {c' : ConnectionInfo} (he : ∀ d, e ≠ .datagram d)
    (hrole : c'.isAcceptor = c.isAcceptor) (hpeers : c'.peers = c.peers) : Change c e c'
  | cleared {e : Event} {c' : ConnectionInfo} (he : ∀ d, e ≠ .datagram d)
    (hpeers : c'.peers = .empty) : Change c e c'
  | connect {ip : Ip} {port : Port} (hrole : c.isAcceptor = false) (hport : port ≠ 0) :
    Change c (.connect ip port)
      (c.setPeer ip (((c.peers.find? ip).getD {}).connect port).1)
  | disconnect {ip : Ip} {key : Port} {peer peer' : PeerInfo} (hrole : c.isAcceptor = false)
    (hfind : c.peers.find? ip = some peer) (hpeer : peer.disconnect key = .ok peer') :
    Change c (.disconnect ip key) (c.setPeer ip peer')
  | learn {d : Datagram} (hrole : c.isAcceptor = true) :
    Change c (.datagram d)
      (c.setPeer d.srcIp (((c.peers.find? d.srcIp).getD {}).learn d.srcPort d.src))
  | ignored {d : Datagram} (hrole : c.isAcceptor = false)
    (hpeer : ∀ peer, c.peers.find? d.srcIp = some peer →
      peer.receive d.srcPort d.src = .ok none) :
    Change c (.datagram d) c
  | received {d : Datagram} {peer peer' : PeerInfo} {key : Port}
    (hrole : c.isAcceptor = false) (hfind : c.peers.find? d.srcIp = some peer)
    (hpeer : peer.Received d.srcPort d.src peer' key) :
    Change c (.datagram d) (c.setPeer d.srcIp peer')

theorem clearPeers_ok (h : c.clearPeers = .ok c') : c' = { c with peers := .empty } := by
  rw [clearPeers] at h
  split at h
  · cases h
  · exact (Except.ok.inj h).symm

/-- `pcbBindAcceptor` or `pcbBindConnector`. -/
def bindAs (c : ConnectionInfo) (tcpBind : Option Port) :
    Bool → Except Assertion (ConnectionInfo × Port)
  | true => c.bindAcceptor tcpBind
  | false => c.bindConnector tcpBind

/-- What a bind does: one more handle, with the peers of the other role gone. -/
structure Binds (c : ConnectionInfo) (tcpBind : Option Port) (isAcceptor : Bool)
    (c' : ConnectionInfo) (tcpPort : Port) : Prop where
  role : c.isAcceptor = isAcceptor ∨ c.numHandles = 0
  port : ∃ port, tcpBind = some port ∧
    tcpPort = if isAcceptor && 0 < c.numHandles then c.acceptorLocalPort else port
  eq : c' = { c with
    peers := if c.isAcceptor = isAcceptor then c.peers else .empty
    acceptorLocalPort := if isAcceptor then tcpPort else 0
    isAcceptor := isAcceptor
    numHandles := c.numHandles + 1 }

theorem Binds.bound {tcpBind : Option Port} {tcpPort : Port}
    (h : c.Binds tcpBind false c' tcpPort) : tcpBind = some tcpPort := by
  obtain ⟨port, hbind, rfl⟩ := h.port
  exact hbind

theorem kept_or_cleared {isAcceptor : Bool}
    (h : (if c.isAcceptor = isAcceptor then .ok c else c.clearPeers) = .ok c') :
    c' = { c with peers := if c.isAcceptor = isAcceptor then c.peers else .empty } := by
  split at h
  · cases h
    rw [if_pos ‹_›]
  · rw [if_neg ‹_›]
    exact clearPeers_ok h

/-- A bind does nothing when `tcp_bind` fails. -/
theorem bindAs_ok {tcpBind : Option Port} (isAcceptor : Bool) {tcpPort : Port}
    (h : c.bindAs tcpBind isAcceptor = .ok (c', tcpPort)) :
    c' = c ∧ tcpPort = 0 ∨ tcpPort ≠ 0 ∧ c.Binds tcpBind isAcceptor c' tcpPort := by
  cases isAcceptor with
  | true =>
    change c.bindAcceptor tcpBind = _ at h
    unfold bindAcceptor at h
    split at h
    · cases h
    · rename_i hrole
      split at h
      · cases h
      · cases tcpBind with
        | none =>
          cases h
          exact .inl ⟨rfl, rfl⟩
        | some port =>
          dsimp only at h
          generalize htcp : (if 0 < c.numHandles then c.acceptorLocalPort else port) = p at h
          split at h
          · cases h
          · rename_i hport
            obtain ⟨c₁, hc₁, hres⟩ := map_eq_ok h
            cases hres
            refine .inr ⟨hport, by grind, ⟨port, rfl, by simp [htcp]⟩, ?_⟩
            rw [kept_or_cleared hc₁]
            rfl
  | false =>
    change c.bindConnector tcpBind = _ at h
    unfold bindConnector at h
    split at h
    · cases h
    · rename_i hrole
      cases tcpBind with
      | none =>
        cases h
        exact .inl ⟨rfl, rfl⟩
      | some port =>
        dsimp only at h
        split at h
        · cases h
        · rename_i hport
          obtain ⟨c₁, hc₁, hres⟩ := map_eq_ok h
          cases hres
          have hkept : (if c.isAcceptor = false then .ok c else c.clearPeers) = .ok c₁ := by
            cases hacc : c.isAcceptor <;> simpa [hacc] using hc₁
          refine .inr ⟨hport, by grind, ⟨tcpPort, rfl, rfl⟩, ?_⟩
          rw [kept_or_cleared hkept]
          rfl

theorem pcbConnect_ok {ip : Ip} {port key : Port} (h : c.pcbConnect ip port = .ok (c', key)) :
    ip ≠ 0 ∧ port ≠ 0 ∧ c.isAcceptor = false ∧
      c' = c.setPeer ip (((c.peers.find? ip).getD {}).connect port).1 ∧
      key = (((c.peers.find? ip).getD {}).connect port).2 := by
  rw [pcbConnect] at h
  split at h
  · cases h
  · rename_i hargs
    split at h
    · cases h
    · rename_i hrole
      cases h
      exact ⟨fun hip => hargs (.inl hip), fun hport => hargs (.inr hport),
        Bool.eq_false_iff.mpr hrole, rfl, rfl⟩

theorem pcbDisconnect_ok {ip : Ip} {key : Port} (h : c.pcbDisconnect ip key = .ok c') :
    c.isAcceptor = false ∧ ∃ peer peer', c.peers.find? ip = some peer ∧
      peer.disconnect key = .ok peer' ∧ c' = c.setPeer ip peer' := by
  rw [pcbDisconnect] at h
  split at h
  · cases h
  · split at h
    · cases h
    · rename_i hrole
      refine ⟨Bool.eq_false_iff.mpr hrole, ?_⟩
      cases hfind : c.peers.find? ip with
      | none => rw [hfind] at h; cases h
      | some peer =>
        rw [hfind] at h
        obtain ⟨peer', hpeer, rfl⟩ := map_eq_ok h
        exact ⟨peer, peer', rfl, hpeer, rfl⟩

theorem onRecv_change {d : Datagram} {seg : Option Segment} (h : c.onRecv d = .ok (c', seg)) :
    Change c (.datagram d) c' := by
  rw [onRecv] at h
  cases hrole : c.isAcceptor with
  | true =>
    rw [if_pos hrole] at h
    cases h
    exact .learn hrole
  | false =>
    rw [if_neg (Bool.eq_false_iff.mp hrole)] at h
    cases hfind : c.peers.find? d.srcIp with
    | none =>
      rw [hfind] at h
      cases h
      exact .ignored hrole (fun peer hp => by rw [hfind] at hp; cases hp)
    | some peer =>
      rw [hfind] at h
      obtain ⟨passed, hrecv, hres⟩ := map_eq_ok h
      cases passed with
      | none =>
        cases hres
        exact .ignored hrole (fun p hp => by rw [hfind] at hp; cases hp; exact hrecv)
      | some p =>
        cases hres
        exact .received hrole hfind (PeerInfo.received hrecv)

theorem bindAs_change {tcpBind : Option Port} (isAcceptor : Bool) {tcpPort : Port}
    (h : c.bindAs tcpBind isAcceptor = .ok (c', tcpPort)) (he : ∀ d, e ≠ .datagram d) :
    Change c e c' := by
  rcases bindAs_ok isAcceptor h with ⟨rfl, _⟩ | ⟨_, hbinds⟩
  · exact .kept he rfl rfl
  · rw [hbinds.eq]
    by_cases hrole : c.isAcceptor = isAcceptor
    · exact .kept he hrole.symm (if_pos hrole)
    · exact .cleared he (if_neg hrole)

theorem step_change (h : c.step e = some c') : Change c e c' := by
  have hcall := toOption_eq_some h
  cases e with
  | bindAcceptor tcpBind =>
    obtain ⟨⟨c₁, tcpPort⟩, hok, rfl⟩ := map_eq_ok hcall
    exact bindAs_change true hok (by simp)
  | bindConnector tcpBind =>
    obtain ⟨⟨c₁, tcpPort⟩, hok, rfl⟩ := map_eq_ok hcall
    exact bindAs_change false hok (by simp)
  | accept =>
    simp only [call, accept] at hcall
    split at hcall
    · cases hcall
    · split at hcall
      · cases hcall
        exact .kept (by simp) rfl rfl
      · cases hcall
  | unbind =>
    simp only [call, pcbUnbind] at hcall
    split at hcall
    · cases hcall
      exact .kept (by simp) rfl rfl
    · cases hcall
  | connect ip port =>
    obtain ⟨⟨c₁, key⟩, hok, rfl⟩ := map_eq_ok hcall
    obtain ⟨_, hport, hrole, rfl, _⟩ := pcbConnect_ok hok
    exact .connect hrole hport
  | disconnect ip key =>
    obtain ⟨hrole, peer, peer', hfind, hpeer, rfl⟩ := pcbDisconnect_ok hcall
    exact .disconnect hrole hfind hpeer
  | datagram d =>
    obtain ⟨⟨c₁, seg⟩, hok, rfl⟩ := map_eq_ok hcall
    exact onRecv_change hok

end ConnectionInfo

end DTun.Util.Ltudp
