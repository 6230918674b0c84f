import DTun.Util.Ltudp.Counted

/-!
# Handle counting of LTUDP transports

`listen`, `connect`, accepting, the error callback of lwIP and `kill` count a bind and give
it back once, on every way out but two: a `connect` whose name is not resolved, or that finds
no key for the peer's port, closes the pcb and does not unbind it.
-/

namespace DTun.Util.Ltudp

open Lib (OrderedMap)
open Lib.Calls Lib.Runs

namespace PeerInfo

variable {peer : PeerInfo} {port key : Port}

/-- `pcbConnect` has a key for the port: an entry, or one of its own that is free. -/
def hasKey (peer : PeerInfo) (port : Port) : Bool :=
  peer.portMap.any (fun _ info => info.port = port) ||
    (List.range' 0x400 0xFC00).any fun key => (peer.portMap.find? key).isNone

/-- The candidate wraps around only when all keys from it on are taken. -/
theorem search_full {port use : Nat} {l : List (Nat × PortInfo)} (huse : use ≠ 0)
    (h : search port use l = (false, 0)) :
    ∀ k, use ≤ k → k < 65536 → ∃ e ∈ l, e.1 = k := by
  induction l generalizing use with
  | nil =>
    simp only [search, Prod.mk.injEq, true_and] at h
    exact absurd h huse
  | cons e rest ih =>
    intro k hle hlt
    rw [search] at h
    split at h
    · simp at h
    · split at h
      · rename_i heq
        by_cases hk : k = use
        · exact ⟨e, List.mem_cons_self, heq.trans hk.symm⟩
        · rw [Nat.mod_eq_of_lt (by omega)] at h
          obtain ⟨e', he', hk'⟩ := ih (Nat.succ_ne_zero use) h k (by omega) hlt
          exact ⟨e', List.mem_cons_of_mem _ he', hk'⟩
      · obtain ⟨e', he', hk'⟩ := ih huse h k hle hlt
        exact ⟨e', List.mem_cons_of_mem _ he', hk'⟩

theorem connect_key (hkeys : ∀ key info, peer.portMap.find? key = some info → key ≠ 0)
    (h : peer.hasKey port = true) : (peer.connect port).2 ≠ 0 := by
  rw [connect]
  generalize hsearch : search port 0x400 peer.portMap.entries = r
  obtain ⟨found, key⟩ := r
  cases found with
  | true =>
    obtain ⟨info, hmem, _⟩ := search_found hsearch
    exact hkeys key info (peer.portMap.mem_entries_iff.mp hmem)
  | false =>
    intro hzero
    have hkey : key = 0 := by
      by_contra hne
      simp only [Bool.not_false, Bool.true_and, decide_eq_true_eq, hne, ↓reduceIte] at hzero
    subst hkey
    rcases Bool.or_eq_true_iff.mp h with hany | hfree
    · obtain ⟨k, info, hf, hport⟩ := (peer.portMap.any_iff _).mp hany
      exact search_absent hsearch _ (peer.portMap.mem_entries_iff.mpr hf)
        (of_decide_eq_true hport)
    · obtain ⟨k, hk, hnone⟩ := List.any_eq_true.mp hfree
      obtain ⟨hle, hlt⟩ := List.mem_range'_1.mp hk
      obtain ⟨⟨k', info⟩, he, rfl⟩ := search_full (by decide) hsearch k hle (by omega)
      rw [peer.portMap.mem_entries_iff.mp he] at hnone
      cases hnone

theorem hasKey_empty (port : Port) : hasKey {} port = true := by
  refine Bool.or_eq_true_iff.mpr (.inr (List.any_eq_true.mpr ⟨0x400, ?_, rfl⟩))
  exact List.mem_range'_1.mpr ⟨le_refl _, by decide⟩

end PeerInfo

namespace Manager

variable {m m' : Manager} {e : Event} {es : List Event} {i : Nat} {h h' : Handle} {conn : Conn}
  {slot : Slot ConnectionInfo} {port tcpPort : Port} {leaked owed : Conn → Int}

theorem share_of_none (h : Handle) (hpcb : h.pcb = none) (conn : Conn) : h.share conn = 0 := by
  simp [Handle.share, Handle.boundOn, hpcb]

theorem share_of_conn (h : Handle) {pcb : Pcb} (hpcb : h.pcb = some pcb)
    (hconn : h.conn = some pcb.conn) (conn : Conn) :
    h.share conn = (Pi.single pcb.conn 1 : Conn → Int) conn := by
  rw [Handle.share, Handle.boundOn, hpcb, hconn, Pi.single_apply]
  simp [eq_comm]

theorem Counted.cached (hm : Counted m leaked owed) (hmem : h ∈ m.handles)
    (hconn : h.conn = some conn) : m.Cached conn :=
  hm.live conn (alive_iff.mpr (.inl ⟨h, hmem, hconn⟩))

/-- The pcb of a handle is given back, and the handle still shows it. -/
theorem Counted.release (hm : Counted m leaked 0) (hmem : h ∈ m.handles) {pcb : Pcb}
    (hpcb : h.pcb = some pcb) (hrel : m.release h pcb = .ok m') :
    Counted m' leaked (Pi.single pcb.conn (-1)) ∧ m.Frame m' := by
  obtain ⟨hconn, hlocal⟩ := hm.pcbs h hmem pcb hpcb
  have hcached := hm.cached hmem hconn
  rw [Manager.release] at hrel
  obtain ⟨m₁, hdis, hunb⟩ := bind_eq_ok hrel
  have hmid : Counted m₁ leaked 0 ∧ m₁.Cached pcb.conn ∧ m.Frame m₁ := by
    split at hdis
    · obtain ⟨hcounted, hcached, slot, c, _, _, _, rfl⟩ := hm.pcbDisconnect hlocal hcached hdis
      exact ⟨hcounted, hcached, frame_transports _ _⟩
    · cases hdis
      exact ⟨hm, hcached, Frame.refl m⟩
  obtain ⟨hcounted, hcached, hframe⟩ := hmid
  obtain ⟨hcounted, _, slot, c, _, _, _, rfl⟩ :=
    hcounted.pcbUnbind (by rw [hframe.localPortMap, hlocal]) hcached hunb
  rw [zero_add] at hcounted
  exact ⟨hcounted, hframe.trans (frame_transports _ _)⟩

/-- A handle that has lost its pcb. -/
theorem Counted.dropPcb (hm : Counted m leaked (Pi.single conn (-1)))
    (hi : m.handles[i]? = some h) {pcb : Pcb} (hpcb : h.pcb = some pcb) (hconn : pcb.conn = conn)
    (hpcb' : h'.pcb = none) (hconn' : ∀ c, h'.conn = some c → h.conn = some c) :
    Counted (m.setHandle i h') leaked 0 := by
  have hmem := List.mem_of_getElem? hi
  refine hm.setHandle hi ⟨fun c hc => hm.cached hmem (hconn' c hc), fun p hp => ?_⟩ fun c => ?_
  · rw [hpcb'] at hp
    cases hp
  · rw [share_of_none h' hpcb', share_of_conn h hpcb (hm.pcbs h hmem pcb hpcb).1, hconn,
      ← Pi.add_apply, ← Pi.single_add, Int.add_left_neg, Pi.single_zero]
    rfl

/-- A handle that gets the pcb that was bound for it. -/
theorem Counted.setPcb (hm : Counted m leaked (Pi.single conn 1))
    (hi : m.handles[i]? = some h) (hnone : h.pcb = none) {pcb : Pcb}
    (hpcb : h'.pcb = some pcb) (hpc : pcb.conn = conn) (hconn : h'.conn = some conn)
    (hlocal : m.localPortMap.find? pcb.localPort = some conn.port)
    (hslot : ∃ slot, m.connCache.find? conn.port = some slot ∧ slot.conn = conn ∧
      (slot.info.isAcceptor = true → slot.info.acceptorLocalPort = pcb.localPort)) :
    Counted (m.setHandle i h') leaked 0 := by
  obtain ⟨slot, hs, hsc, hacc⟩ := hslot
  refine hm.setHandle hi ⟨fun c hc => ?_, fun p hp => ?_⟩ fun c => ?_
  · rw [hconn] at hc
    cases hc
    exact ⟨slot, hs, hsc⟩
  · rw [hpcb] at hp
    cases hp
    rw [hpc]
    refine ⟨hconn, hlocal, fun slot' hs' hrole => ?_⟩
    rw [hs] at hs'
    cases hs'
    exact (hacc hrole).symm
  · rw [share_of_none h hnone, share_of_conn h' hpcb (by rw [hconn, hpc]), hpc]
    simp

theorem Counted.listen (hm : Counted m leaked 0) (hi : m.handles[i]? = some h) {env : ListenEnv}
    (hfresh : m.freshPort env.tcpBind = true) (hok : m.listen i h env = .ok m') :
    Counted m' leaked 0 := by
  have hmem := List.mem_of_getElem? hi
  rw [Manager.listen] at hok
  split at hok
  · rename_i conn hconn hnone
    split at hok
    · cases hok
      exact hm
    · obtain ⟨⟨m₁, tcpPort⟩, hbind, hrest⟩ := bind_eq_ok hok
      rcases hm.bindAs (hm.cached hmem hconn) hfresh true hbind with ⟨rfl, rfl⟩ | ⟨hport, hb⟩
      · cases hrest
        exact hm
      · dsimp only at hrest
        rw [if_neg hport] at hrest
        split at hrest
        · cases hrest
          exact hb.counted.setPcb (by rw [hb.handles, hi]) hnone rfl rfl hconn hb.localPort hb.slot
        · obtain ⟨slot, hs, hsc, _⟩ := hb.slot
          obtain ⟨hcounted, _⟩ := hb.counted.pcbUnbind hb.localPort ⟨slot, hs, hsc⟩ hrest
          rwa [← Pi.single_add, Int.add_right_neg, Pi.single_zero] at hcounted
  · cases hok

/-- A `connect` that gets as far as binding its pcb has its name resolved, and the peer has a
key for the port or leaves one free. -/
def resolves (m : Manager) (h : Handle) (env : ConnectEnv) : Bool :=
  !env.sockName || !env.tcpNew || env.tcpBind.isNone ||
    env.resolved.any fun addr =>
      (h.conn.bind fun conn => m.connCache.find? conn.port).all fun slot =>
        slot.info.isAcceptor || (slot.info.peers.find? addr.1).all fun peer => peer.hasKey addr.2

def Resolves (m : Manager) : Event → Prop
  | .connect i env => ((m.handles[i]?).all fun h => m.resolves h env) = true
  | _ => True

instance (m : Manager) (e : Event) : Decidable (m.Resolves e) :=
  match e with
  | .connect _ _ => inferInstanceAs (Decidable (_ = true))
  | .createStreamSocket | .bind .. | .listen .. | .accept .. | .error .. | .kill ..
  | .datagram .. | .transportKilled .. | .reap | .finished .. => inferInstanceAs (Decidable True)

/-- What is owed to a connector may stay so for good. -/
theorem Counted.leak (hm : Counted m leaked (Pi.single conn 1))
    (hslot : m.connCache.find? conn.port = some slot) (hconn : slot.conn = conn)
    (hrole : slot.info.isAcceptor = false) : Counted m (leaked + Pi.single conn 1) 0 := by
  constructor
  case toOwned => exact hm.toOwned
  case reached => exact hm.reached
  case pcbs => exact hm.pcbs
  case acceptors =>
    intro port' slot' hs hacc
    have hne : slot'.conn ≠ conn := by
      intro heq
      rw [← (hm.slots port' slot' hs).1, heq, hslot] at hs
      cases hs
      rw [hrole] at hacc
      cases hacc
    rw [Pi.add_apply, Pi.single_eq_of_ne hne, add_zero]
    exact hm.acceptors port' slot' hs hacc
  case leaks =>
    intro c
    obtain ⟨hpos, hnew⟩ := hm.leaks c
    rw [Pi.add_apply, Pi.single_apply]
    split
    · rename_i heq
      have hid := (hm.slots _ slot hslot).2
      rw [hconn, ← heq] at hid
      exact ⟨by omega, fun hle => by omega⟩
    · rw [add_zero]
      exact ⟨hpos, hnew⟩
  case count =>
    intro port' slot' hs
    rw [hm.count port' slot' hs, Pi.add_apply, Pi.zero_apply, add_zero, add_assoc]

/-- A connector after its pcb was bound. -/
structure BoundConnector (m : Manager) (conn : Conn) (tcpPort : Port) (leaked : Conn → Int) :
    Prop where
  counted : Counted m leaked (Pi.single conn 1)
  localPort : m.localPortMap.find? tcpPort = some conn.port
  slot : ∃ slot, m.connCache.find? conn.port = some slot ∧ slot.conn = conn ∧
    slot.info.isAcceptor = false

theorem BoundConnector.leak (hb : m.BoundConnector conn tcpPort leaked) :
    ∃ leaked', Counted m leaked' 0 := by
  obtain ⟨slot, hslot, hconn, hrole⟩ := hb.slot
  exact ⟨_, hb.counted.leak hslot hconn hrole⟩

theorem BoundConnector.pcbConnect (hb : m.BoundConnector conn tcpPort leaked) {ip : Ip}
    {key : Port} (h : m.pcbConnect tcpPort ip port = .ok (m', key)) :
    m'.BoundConnector conn tcpPort leaked ∧ m.Frame m' ∧
      ∃ slot c, m.connCache.find? conn.port = some slot ∧ slot.conn = conn ∧
        slot.info.pcbConnect ip port = .ok (c, key) ∧ m' = m.setInfo conn.port slot c := by
  obtain ⟨slot, hslot, hconn, hrole⟩ := hb.slot
  obtain ⟨hcounted, _, s, c, hs, _, hok, rfl⟩ :=
    hb.counted.pcbConnect hb.localPort ⟨slot, hslot, hconn⟩ h
  rw [hslot] at hs
  cases hs
  refine ⟨⟨hcounted, hb.localPort, ?_⟩, frame_transports _ _, slot, c, hslot, hconn, hok, rfl⟩
  refine ⟨_, OrderedMap.find?_insert_self _, hconn, ?_⟩
  obtain ⟨_, _, _, hc, _⟩ := ConnectionInfo.pcbConnect_ok hok
  rw [hc]
  exact hrole

/-- The bound pcb is given back. -/
theorem BoundConnector.undo (hb : m.BoundConnector conn tcpPort leaked) {ip : Ip} {key : Port}
    {m₁ : Manager} (hdis : m.pcbDisconnect tcpPort ip key = .ok m₁)
    (hunb : m₁.pcbUnbind tcpPort = .ok m') : Counted m' leaked 0 := by
  obtain ⟨slot, hslot, hconn, _⟩ := hb.slot
  obtain ⟨hcounted, hcached, _, _, _, _, _, rfl⟩ :=
    hb.counted.pcbDisconnect hb.localPort ⟨slot, hslot, hconn⟩ hdis
  obtain ⟨hcounted, _⟩ := hcounted.pcbUnbind hb.localPort hcached hunb
  rwa [← Pi.single_add, Int.add_right_neg, Pi.single_zero] at hcounted

theorem BoundConnector.connectPcb (hb : m.BoundConnector conn tcpPort leaked)
    (hi : m.handles[i]? = some h) (hnone : h.pcb = none) (hconn : h.conn = some conn)
    {env : ConnectEnv} {failed : Bool}
    (hok : m.connectPcb i h conn tcpPort env = .ok (m', failed)) :
    ∃ leaked', Counted m' leaked' 0 ∧
      ((∃ addr, env.resolved = some addr ∧ ∀ m₁ key,
        m.pcbConnect tcpPort addr.1 addr.2 = .ok (m₁, key) → key ≠ 0) → leaked' = leaked) := by
  unfold Manager.connectPcb at hok
  cases haddr : env.resolved with
  | none =>
    rw [haddr] at hok
    cases hok
    obtain ⟨leaked', hm⟩ := hb.leak
    exact ⟨leaked', hm, fun ⟨addr, ha, _⟩ => by cases ha⟩
  | some addr =>
    obtain ⟨ip, port⟩ := addr
    rw [haddr] at hok
    obtain ⟨⟨m₁, key⟩, hconnect, hrest⟩ := bind_eq_ok hok
    obtain ⟨hb₁, hframe, _⟩ := hb.pcbConnect hconnect
    dsimp only at hrest
    split at hrest
    · rename_i hzero
      cases hrest
      obtain ⟨leaked', hm⟩ := hb₁.leak
      refine ⟨leaked', hm, fun ⟨addr, ha, hkey⟩ => ?_⟩
      cases ha
      exact absurd hzero (hkey _ _ hconnect)
    · split at hrest
      · cases hrest
        refine ⟨leaked, ?_, fun _ => rfl⟩
        obtain ⟨slot, hslot, hsc, hrole⟩ := hb₁.slot
        refine hb₁.counted.setPcb (by rw [hframe.handles, hi]) hnone rfl rfl hconn hb₁.localPort
          ⟨slot, hslot, hsc, fun hacc => ?_⟩
        rw [hrole] at hacc
        cases hacc
      · obtain ⟨m₂, hdis, hrest⟩ := bind_eq_ok hrest
        obtain ⟨m₃, hunb, hres⟩ := bind_eq_ok hrest
        cases hres
        exact ⟨leaked, hb₁.undo hdis hunb, fun _ => rfl⟩

theorem Counted.boundConnector (hm : Counted m leaked 0) (hconn : m.Cached conn)
    {tcpBind : Option Port} (hfresh : m.freshPort tcpBind = true)
    (h : m.pcbBind conn.port (fun c => c.bindConnector tcpBind) = .ok (m', tcpPort)) :
    tcpPort = 0 ∧ m' = m ∨ m'.BoundConnector conn tcpPort leaked ∧ tcpBind = some tcpPort ∧
      ∃ slot c, m.connCache.find? conn.port = some slot ∧ slot.conn = conn ∧
        slot.info.bindConnector tcpBind = .ok (c, tcpPort) ∧ tcpPort ≠ 0 ∧
        m' = { m.setInfo conn.port slot c with
          localPortMap := m.localPortMap.insert tcpPort conn.port } := by
  rcases hm.bindAs hconn hfresh false h with hfail | ⟨hport, hb⟩
  · exact .inl hfail
  · rcases pcbBind_ok h with ⟨hzero, _⟩ | ⟨_, slot, c, hslot, hf, rfl⟩
    · exact absurd hzero hport
    · obtain ⟨s, hs, rfl⟩ := hconn
      rw [hslot] at hs
      cases hs
      rcases ConnectionInfo.bindAs_ok false hf with ⟨_, hzero⟩ | ⟨_, hbinds⟩
      · exact absurd hzero hport
      · refine .inr ⟨⟨hb.counted, hb.localPort, _, OrderedMap.find?_insert_self _, rfl, ?_⟩,
          hbinds.bound, slot, c, hslot, rfl, hf, hport, rfl⟩
        rw [hbinds.eq]

/-- The name resolves and the transport has a key for the peer's port. -/
def ResolvesOn (m : Manager) (conn : Conn) (env : ConnectEnv) : Prop :=
  env.tcpBind.isSome = true → ∃ addr, env.resolved = some addr ∧
    ∀ slot, m.connCache.find? conn.port = some slot →
      slot.info.isAcceptor = true ∨
        ((slot.info.peers.find? addr.1).all fun peer => peer.hasKey addr.2) = true

theorem connect_hasKey {c c' c'' : ConnectionInfo} {es : List Ltudp.Event} {ip : Ip}
    {tcpBind : Option Port} {key : Port} (hrun : ConnectionInfo.Run es c)
    (hkey : c.isAcceptor = true ∨
      ((c.peers.find? ip).all fun peer => peer.hasKey port) = true)
    (hbind : c.bindConnector tcpBind = .ok (c', tcpPort)) (hport : tcpPort ≠ 0)
    (hconnect : c'.pcbConnect ip port = .ok (c'', key)) : key ≠ 0 := by
  have hrun' : ConnectionInfo.Run (es ++ [.bindConnector tcpBind]) c' :=
    exec_snoc_iff.mpr ⟨c, hrun, step_of_call (by rw [ConnectionInfo.call, hbind]; rfl)⟩
  obtain ⟨_, _, hrole, _, rfl⟩ := ConnectionInfo.pcbConnect_ok hconnect
  apply PeerInfo.connect_key
  · intro k info hi
    exact ConnectionInfo.run_keyed hrun' hrole ip k info (by rw [← c'.getD_find?, hi])
  · rcases ConnectionInfo.bindAs_ok false hbind with ⟨_, hzero⟩ | ⟨_, _, _, rfl⟩
    · exact absurd hzero hport
    · cases hacc : c.isAcceptor with
      | true => exact PeerInfo.hasKey_empty port
      | false =>
        rw [hacc] at hkey
        have hkey := hkey.resolve_left Bool.false_ne_true
        simp only [↓reduceIte]
        cases hfind : c.peers.find? ip with
        | none => exact PeerInfo.hasKey_empty port
        | some peer =>
          rw [hfind] at hkey
          exact hkey

theorem Counted.connectOn (hm : Counted m leaked 0) (hi : m.handles[i]? = some h)
    (hnone : h.pcb = none) (hconn : h.conn = some conn) {env : ConnectEnv} {failed : Bool}
    (hfresh : m.freshPort env.tcpBind = true)
    (hok : m.connectOn i h conn env = .ok (m', failed)) :
    ∃ leaked', Counted m' leaked' 0 ∧
      (((env.sockName && env.tcpNew) = true → m.ResolvesOn conn env) → leaked' = leaked) := by
  have hmem := List.mem_of_getElem? hi
  rw [Manager.connectOn] at hok
  split at hok
  · cases hok
    exact ⟨leaked, hm, fun _ => rfl⟩
  · rename_i henv
    obtain ⟨⟨m₁, tcpPort⟩, hbind, hrest⟩ := bind_eq_ok hok
    rcases hm.boundConnector (hm.cached hmem hconn) hfresh hbind with
      ⟨rfl, rfl⟩ | ⟨hb, htcp, slot, c, hslot, hsc, hf, hport, rfl⟩
    · cases hrest
      exact ⟨leaked, hm, fun _ => rfl⟩
    · dsimp only at hrest
      rw [if_neg hport] at hrest
      obtain ⟨leaked', hm', hleak⟩ := hb.connectPcb hi hnone hconn hrest
      refine ⟨leaked', hm', fun hres => hleak ?_⟩
      obtain ⟨addr, haddr, hkey⟩ := hres (by simpa using henv) (by rw [htcp]; rfl)
      refine ⟨addr, haddr, fun m₂ key hc => ?_⟩
      obtain ⟨_, _, s, c', hs, _, hok', _⟩ := hb.pcbConnect hc
      obtain rfl := setInfo_slot m conn.port slot c hs
      obtain ⟨es, hrun⟩ := hm.reached _ slot hslot
      exact connect_hasKey hrun (hkey slot hslot) hf hport hok'

/-- A new transport has a key for every port. -/
theorem createTransport_hasKey {bound : Option Port}
    (h : m.createTransport 0 bound = .ok (m', some conn)) (addr : Ip × Port) :
    ∀ slot, m'.connCache.find? conn.port = some slot → slot.info.isAcceptor = true ∨
      ((slot.info.peers.find? addr.1).all fun peer => peer.hasKey addr.2) = true := by
  obtain ⟨t, hcreated, rfl⟩ := createTransport_ok h
  cases hcreated with
  | found hname _ _ => exact absurd rfl hname
  | opened _ _ _ =>
    intro slot hslot
    rw [OrderedMap.find?_insert_self] at hslot
    cases hslot
    exact .inr rfl

/-- A handle without a pcb does not use a port. -/
theorem freshPort_setHandle (hframe : m.Frame m') {tcpBind : Option Port}
    (hfresh : m.freshPort tcpBind = true) (hnone : h'.pcb = none) :
    (m'.setHandle i h').freshPort tcpBind = true := by
  refine freshPort_iff.mpr fun port hport => ?_
  obtain ⟨hhandles, hhalf, hling⟩ := usesPort_iff.mp (freshPort_iff.mp hfresh port hport)
  refine usesPort_iff.mpr ⟨fun g hg pcb hpcb => ?_, ?_, ?_⟩
  · rcases List.mem_or_eq_of_mem_set hg with hg | rfl
    · exact hhandles g (hframe.handles ▸ hg) pcb hpcb
    · rw [hnone] at hpcb
      cases hpcb
  · exact fun pcb hpcb => hhalf pcb (hframe.halfOpen ▸ hpcb)
  · exact fun pcb hpcb => hling pcb (hframe.lingering ▸ hpcb)

/-- A handle without a pcb gets a transport. -/
theorem Counted.setConn (hm : Counted m leaked 0) (hi : m.handles[i]? = some h)
    (hnone : h.pcb = none) {res : Option Conn} (hres : ∀ conn, res = some conn → m.Cached conn) :
    Counted (m.setHandle i { h with conn := res }) leaked 0 := by
  refine hm.setHandle hi ⟨hres, fun pcb hpcb => ?_⟩ fun conn => ?_
  · have hpcb : h.pcb = some pcb := hpcb
    rw [hnone] at hpcb
    cases hpcb
  · rw [share_of_none h hnone, share_of_none { h with conn := res } hnone]

/-- A handle without a pcb takes the transport that was made for it. -/
theorem Counted.setCreated (hm : Counted m leaked 0) (hi : m.handles[i]? = some h)
    (hnone : h.pcb = none) {tcpBind : Option Port} (hfresh : m.freshPort tcpBind = true)
    {name : Port} {bound : Option Port} {m₁ : Manager} {res : Option Conn}
    (hcreate : m.createTransport name bound = .ok (m₁, res)) :
    Counted (m₁.setHandle i { h with conn := res }) leaked 0 ∧
      (m₁.setHandle i { h with conn := res }).handles[i]? = some { h with conn := res } ∧
      (m₁.setHandle i { h with conn := res }).freshPort tcpBind = true := by
  obtain ⟨hm₁, hframe, hcached⟩ := hm.createTransport hcreate
  have hi₁ : m₁.handles[i]? = some h := by rw [hframe.handles, hi]
  exact ⟨hm₁.setConn hi₁ hnone hcached,
    List.getElem?_set_self (List.getElem?_eq_some_iff.mp hi₁).1,
    freshPort_setHandle hframe hfresh hnone⟩

theorem resolves_ok {env : ConnectEnv} (hres : m.resolves h env = true)
    (henv : (env.sockName && env.tcpNew) = true) (hbind : env.tcpBind.isSome = true) :
    ∃ addr, env.resolved = some addr ∧ ∀ conn, h.conn = some conn →
      ∀ slot, m.connCache.find? conn.port = some slot → slot.info.isAcceptor = true ∨
        ((slot.info.peers.find? addr.1).all fun peer => peer.hasKey addr.2) = true := by
  obtain ⟨hname, hnew⟩ := Bool.and_eq_true_iff.mp henv
  obtain ⟨p, hp⟩ := Option.isSome_iff_exists.mp hbind
  rw [resolves, hname, hnew, hp] at hres
  cases haddr : env.resolved with
  | none => rw [haddr] at hres; cases hres
  | some addr =>
    refine ⟨addr, rfl, fun conn hconn slot hslot => ?_⟩
    rw [haddr, hconn] at hres
    simpa [hslot] using hres

theorem Counted.connect (hm : Counted m leaked 0) (hi : m.handles[i]? = some h)
    {env : ConnectEnv} {failed : Bool} (hfresh : m.freshPort env.tcpBind = true)
    (hok : m.connect i h env = .ok (m', failed)) :
    ∃ leaked', Counted m' leaked' 0 ∧ (m.resolves h env = true → leaked' = leaked) := by
  obtain ⟨hnone, hconnects⟩ := connect_ok hok
  cases hconnects with
  | bound hconn hok =>
    obtain ⟨leaked', hm', hleak⟩ := hm.connectOn hi hnone hconn hfresh hok
    refine ⟨leaked', hm', fun hres => hleak fun henv hbind => ?_⟩
    obtain ⟨addr, haddr, hslots⟩ := resolves_ok hres henv hbind
    exact ⟨addr, haddr, hslots _ hconn⟩
  | refused _ hcreate => exact ⟨leaked, (hm.createTransport hcreate).1, fun _ => rfl⟩
  | created _ hcreate hok =>
    obtain ⟨hset, hi₁, hfresh₁⟩ := hm.setCreated hi hnone hfresh hcreate
    obtain ⟨leaked', hm', hleak⟩ := hset.connectOn hi₁ hnone rfl hfresh₁ hok
    refine ⟨leaked', hm', fun hres => hleak fun henv hbind => ?_⟩
    obtain ⟨addr, haddr, _⟩ := resolves_ok hres henv hbind
    exact ⟨addr, haddr, createTransport_hasKey hcreate addr⟩

theorem accept_ok {c c' : ConnectionInfo} (h : c.accept = .ok c') :
    c' = { c with numHandles := c.numHandles + 1 } := by
  rw [ConnectionInfo.accept] at h
  split at h
  · cases h
  · split at h
    · exact (Except.ok.inj h).symm
    · cases h

/-- An accepted pcb has the port and the transport of its listener. -/
theorem Counted.accept (hm : Counted m leaked 0) (hmem : h ∈ m.handles) {pcb listener : Pcb}
    (hpcb : h.pcb = some listener) (hport : pcb.localPort = listener.localPort)
    (hconn : pcb.conn = listener.conn) (hok : m.accept pcb.conn pcb = .ok m') :
    Counted m' leaked 0 := by
  obtain ⟨hhconn, hlocal⟩ := hm.pcbs h hmem listener hpcb
  rw [← hport, ← hconn] at hlocal
  rw [← hconn] at hhconn
  rw [Manager.accept] at hok
  obtain ⟨⟨m₁, _⟩, hupd, rfl⟩ := map_eq_ok hok
  obtain ⟨hm₁, hcached, slot, c, hslot, hsc, hmap, rfl⟩ :=
    hm.updateLocal (d := 1) hlocal (hm.cached hmem hhconn) hupd fun c c' hmap => by
      obtain ⟨c₁, hacc, hres⟩ := map_eq_ok hmap
      cases hres
      refine ⟨⟨.accept, step_of_call hacc⟩, ?_⟩
      rw [accept_ok hacc]
      exact ⟨rfl, rfl, rfl⟩
  refine (hm₁.addHandle ⟨fun conn hc => ?_, fun p hp => ?_⟩ fun conn => ?_).setRest _ _
    fun conn hc => hm₁.live conn (alive_iff.mpr (.inr hc))
  · cases hc
    exact hcached
  · cases hp
    refine ⟨rfl, hlocal, fun slot' hs hrole => ?_⟩
    rw [hport]
    obtain ⟨s, hs', hsc'⟩ := hcached
    rw [hs] at hs'
    cases hs'
    exact (hm₁.acceptors _ slot' hs hrole).2 h hmem listener hpcb (by rw [← hconn, hsc'])
  · rw [share_of_conn _ rfl rfl, zero_add, Pi.zero_apply, zero_add]

theorem Counted.errorFunc (hm : Counted m leaked 0) (hi : m.handles[i]? = some h) {pcb : Pcb}
    (hpcb : h.pcb = some pcb) (hok : m.errorFunc i h pcb = .ok m') : Counted m' leaked 0 := by
  rw [Manager.errorFunc] at hok
  obtain ⟨m₁, hrel, rfl⟩ := map_eq_ok hok
  obtain ⟨hm₁, hframe⟩ := hm.release (List.mem_of_getElem? hi) hpcb hrel
  exact hm₁.dropPcb (by rw [hframe.handles, hi]) hpcb rfl rfl fun c hc => hc

/-- A killed handle leaves its transport to the callback that is posted. -/
theorem Counted.kill (hm : Counted m leaked 0) (hi : m.handles[i]? = some h) {abort : Bool}
    (hok : m.kill i h abort = .ok m') : Counted m' leaked 0 := by
  have hmem := List.mem_of_getElem? hi
  rw [Manager.kill] at hok
  obtain ⟨m₁, hclose, rfl⟩ := map_eq_ok hok
  rw [closePcb] at hclose
  cases hpcb : h.pcb with
  | none =>
    rw [hpcb] at hclose
    cases hclose
    have hset : Counted (m.setHandle i {}) leaked 0 := by
      refine hm.setHandle hi (proper_empty m) fun conn => ?_
      rw [share_of_none h hpcb, share_of_none {} rfl]
    refine hset.setRest _ _ fun conn hc => ?_
    rcases List.mem_append.mp hc with hc | hc
    · exact hm.cached hmem (Option.mem_toList.mp hc)
    · exact hm.live conn (alive_iff.mpr (.inr hc))
  | some pcb =>
    rw [hpcb] at hclose
    obtain ⟨m₂, hrel, hm₁⟩ := map_eq_ok hclose
    obtain ⟨hm₂, hframe⟩ := hm.release hmem hpcb hrel
    have hi₂ : m₂.handles[i]? = some h := by rw [hframe.handles, hi]
    have hset : Counted (m₂.setHandle i {}) leaked 0 :=
      hm₂.dropPcb hi₂ hpcb rfl rfl fun c hc => by cases hc
    have hcached : ∀ conn ∈ h.conn.toList ++ m₂.closing, m₂.Cached conn := by
      intro conn hc
      rcases List.mem_append.mp hc with hc | hc
      · exact hm₂.cached (List.mem_of_getElem? hi₂) (Option.mem_toList.mp hc)
      · exact hm₂.live conn (alive_iff.mpr (.inr hc))
    split at hm₁
    · cases hm₁
      exact hset.setRest _ _ hcached
    · cases hm₁
      exact hset.setRest _ _ hcached

theorem Counted.onRecv (hm : Counted m leaked 0) (hslot : m.connCache.find? port = some slot)
    {d : Datagram} {syn : Bool} (hok : m.onRecv slot d syn = .ok m') : Counted m' leaked 0 := by
  rw [Manager.onRecv, (hm.slots port slot hslot).1] at hok
  obtain ⟨⟨m₁, seg⟩, hupd, hres⟩ := map_eq_ok hok
  obtain ⟨s, c, hs, hrecv, rfl⟩ := update_ok hupd
  rw [hslot] at hs
  cases hs
  have hsame : c.numHandles = slot.info.numHandles + 0 ∧ c.isAcceptor = slot.info.isAcceptor ∧
      c.acceptorLocalPort = slot.info.acceptorLocalPort := by
    rw [add_zero]
    cases ConnectionInfo.onRecv_change hrecv with
    | kept he => exact absurd rfl (he d)
    | cleared he => exact absurd rfl (he d)
    | learn _ => exact ⟨rfl, rfl, rfl⟩
    | ignored _ _ => exact ⟨rfl, rfl, rfl⟩
    | received _ _ _ => exact ⟨rfl, rfl, rfl⟩
  have hstep : slot.info.step (.datagram d) = some c :=
    step_of_call (by rw [ConnectionInfo.call, hrecv]; rfl)
  have hset := hm.setInfo_of_role hslot hstep hsame.1 hsame.2.1 hsame.2.2
  rw [Pi.single_zero, add_zero] at hset
  have hclosing : ∀ conn ∈ m.closing, (m.setInfo port slot c).Cached conn := fun conn hc =>
    hset.live conn (alive_iff.mpr (.inr hc))
  dsimp only at hres
  split at hres
  · cases hres
    exact hset.setRest _ _ hclosing
  · cases hres
    exact hset

theorem Counted.bindTransport (hm : Counted m leaked 0) (hi : m.handles[i]? = some h)
    {name : Port} {bound : Option Port} (hok : m.bind i h name bound = .ok m') :
    Counted m' leaked 0 := by
  obtain ⟨hconn, m₁, res, hcreate, rfl⟩ := bind_ok hok
  obtain ⟨hm₁, hframe, hcached⟩ := hm.createTransport hcreate
  have hnone : h.pcb = none := by
    cases hpcb : h.pcb with
    | none => rfl
    | some pcb =>
      have hc := (hm.pcbs h (List.mem_of_getElem? hi) pcb hpcb).1
      rw [hconn] at hc
      cases hc
  exact hm₁.setConn (by rw [hframe.handles, hi]) hnone hcached

theorem step_counted (hm : Counted m leaked 0) (hstep : m.step e = some m') :
    ∃ leaked', Counted m' leaked' 0 ∧ (m.Resolves e → leaked' = leaked) := by
  obtain ⟨r, hcall, hok⟩ := step_cases hstep
  -- Only a `connect` can leave a bind behind.
  suffices hsame : (∀ i env, e ≠ .connect i env) → Counted m' leaked 0 by
    cases hcall with
    | connect hi hfresh =>
      obtain ⟨⟨m₁, failed⟩, hconnect, rfl⟩ := map_eq_ok hok
      obtain ⟨leaked', hm', hleak⟩ := hm.connect hi hfresh hconnect
      refine ⟨leaked', hm', fun hres => hleak ?_⟩
      simpa [Resolves, hi] using hres
    | createStreamSocket | bind | listen | accept | error | kill | datagram | transportKilled
    | reap | finished => exact ⟨leaked, hsame (fun _ _ h => by cases h), fun _ => rfl⟩
  intro hne
  cases hcall with
  | connect => exact absurd rfl (hne _ _)
  | createStreamSocket =>
    cases hok
    exact hm.addHandle (proper_empty m) fun conn => by rw [share_of_none {} rfl, add_zero]
  | bind hi => exact hm.bindTransport hi hok
  | listen hi hfresh => exact hm.listen hi hfresh hok
  | accept hi _ hconn hpcb _ hport hpc =>
    have hmem := List.mem_of_getElem? hi
    have hlc := (hm.pcbs _ hmem _ hpcb).1
    rw [hconn, ← hpc] at hlc
    cases hlc
    exact hm.accept hmem hpcb hport hpc hok
  | error hi _ hpcb => exact hm.errorFunc hi hpcb hok
  | kill hi => exact hm.kill hi hok
  | datagram hslot => exact hm.onRecv hslot hok
  | transportKilled =>
    cases hok
    exact hm.setRest _ _ fun c hc =>
      hm.live c (alive_iff.mpr (.inr (List.mem_of_mem_erase hc)))
  | reap =>
    cases hok
    exact hm.shrink (Transports.shrunk_reap m.toTransports m.alive)
  | finished =>
    cases hok
    exact hm.setRest _ _ fun c hc => hm.live c (alive_iff.mpr (.inr hc))

end Manager

end DTun.Util.Ltudp
