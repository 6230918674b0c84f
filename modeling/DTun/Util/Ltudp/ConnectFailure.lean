import DTun.Util.Ltudp.Handles

/-!
# LTUDP connects that fail

The counts over whole runs, and what a `connect` leaves that reports a failure through its
callback. The way out after a failed `tcp_connect` gives back the entry and the bind. The
ways out before it do not, which is seen as a handle too many for as long as the transport
lives.
-/

namespace DTun.Util.Ltudp

open Lib (OrderedMap)
open Lib.Calls Lib.Runs

namespace PeerInfo

variable {peer peer' : PeerInfo} {port key : Port}

/-- `numActiveConns` of the entry of a TCP port, 0 when there is none. -/
def numActive (peer : PeerInfo) (key : Port) : Int :=
  ((peer.portMap.find? key).map PortInfo.numActiveConns).getD 0

theorem numActive_of_find? {info : PortInfo} (h : peer.portMap.find? key = some info) :
    peer.numActive key = info.numActiveConns := by
  rw [numActive, h]
  rfl

theorem numActive_insert (peer : PeerInfo) (key : Port) (info : PortInfo) (rev : PortMap)
    (key' : Port) :
    numActive { portMap := peer.portMap.insert key info, revPortMap := rev } key' =
      if key' = key then info.numActiveConns else peer.numActive key' := by
  rw [numActive, OrderedMap.find?_insert]
  split
  · rfl
  · rfl

/-- `connect` counts one more for the key that it returns. -/
theorem connect_numActive (hkey : (peer.connect port).2 ≠ 0) (key' : Port) :
    (peer.connect port).1.numActive key' =
      peer.numActive key' + if key' = (peer.connect port).2 then 1 else 0 := by
  have hconn := connected peer port
  generalize peer.connect port = r at hconn hkey ⊢
  cases hconn with
  | busy _ => exact absurd rfl hkey
  | joined hfind _ =>
    rw [numActive_insert]
    split
    · rename_i heq
      rw [heq, numActive_of_find? hfind]
    · exact (add_zero _).symm
  | opened _ hfind _ =>
    rw [numActive_insert]
    split
    · rename_i heq
      rw [heq, numActive, hfind]
      rfl
    · exact (add_zero _).symm

theorem disconnect_numActive (h : peer.disconnect key = .ok peer') (key' : Port) :
    peer'.numActive key' = peer.numActive key' - if key' = key then 1 else 0 := by
  obtain ⟨info, hfind, _, rfl⟩ := disconnect_ok h
  rw [numActive_insert]
  split
  · rename_i heq
    rw [heq, numActive_of_find? hfind]
  · exact (sub_zero _).symm

end PeerInfo

namespace ConnectionInfo

variable {c c₁ c₂ c₃ c₄ : ConnectionInfo} {ip : Ip} {port tcpPort key : Port}

/-- `numActiveConns` of the entry of a TCP port, 0 when there is none. -/
def numActive (c : ConnectionInfo) (ip : Ip) (key : Port) : Int :=
  ((c.peers.find? ip).getD {}).numActive key

/-- The counts of two states are the same. -/
def SameCounts (c c' : ConnectionInfo) : Prop :=
  c'.numHandles = c.numHandles ∧ ∀ ip key, c'.numActive ip key = c.numActive ip key

theorem clearPeers_idle (h : c.clearPeers = .ok c₁) (ip : Ip) (key : Port) :
    c.numActive ip key = 0 := by
  rw [clearPeers] at h
  split at h
  · cases h
  · rename_i hidle
    rw [numActive]
    cases hpeer : c.peers.find? ip with
    | none => rfl
    | some peer =>
      rw [Option.getD_some]
      cases hinfo : peer.portMap.find? key with
      | none =>
        rw [PeerInfo.numActive, hinfo]
        rfl
      | some info =>
        rw [PeerInfo.numActive_of_find? hinfo]
        by_contra hne
        apply hidle
        rw [OrderedMap.any_iff]
        exact ⟨ip, peer, hpeer, (OrderedMap.any_iff _ _).mpr ⟨key, info, hinfo, by simpa⟩⟩

/-- Binding a connector changes no `numActiveConns`: what a role change clears is 0. -/
theorem bindConnector_numActive {tcpBind : Option Port}
    (h : c.bindConnector tcpBind = .ok (c₁, tcpPort)) (ip : Ip) (key : Port) :
    c₁.numActive ip key = c.numActive ip key := by
  rcases bindAs_ok false h with ⟨rfl, _⟩ | ⟨hport, hbinds⟩
  · rfl
  · obtain rfl := hbinds.bound
    have hc₁ := hbinds.eq
    cases hacc : c.isAcceptor with
    | false =>
      rw [hacc] at hc₁
      subst hc₁
      rfl
    | true =>
      have hclear : ∃ c', c.clearPeers = .ok c' := by
        unfold bindConnector at h
        split at h
        · cases h
        · dsimp only at h
          rw [if_neg hport] at h
          obtain ⟨c', hc', _⟩ := map_eq_ok h
          exact ⟨c', hc'⟩
      obtain ⟨c', hc'⟩ := hclear
      rw [hacc] at hc₁
      subst hc₁
      rw [clearPeers_idle hc']
      rfl

theorem numActive_setPeer (c : ConnectionInfo) (ip : Ip) (peer : PeerInfo) (ip' : Ip)
    (key : Port) : (c.setPeer ip peer).numActive ip' key =
      if ip' = ip then peer.numActive key else c.numActive ip' key := by
  rw [numActive, setPeer, OrderedMap.find?_insert]
  split
  · rfl
  · rfl

/-- A connect that is undone after `tcp_connect` leaves the counts as they were. -/
theorem undo_sameCounts {tcpBind : Option Port}
    (hbind : c.bindConnector tcpBind = .ok (c₁, tcpPort)) (hport : tcpPort ≠ 0)
    (hconnect : c₁.pcbConnect ip port = .ok (c₂, key)) (hkey : key ≠ 0)
    (hdis : c₂.pcbDisconnect ip key = .ok c₃) (hunb : c₃.pcbUnbind = .ok c₄) :
    SameCounts c c₄ := by
  have hbound := bindConnector_numActive hbind
  rcases bindAs_ok false hbind with ⟨_, hzero⟩ | ⟨_, hbinds⟩
  · exact absurd hzero hport
  obtain ⟨_, _, _, rfl, rfl⟩ := pcbConnect_ok hconnect
  obtain ⟨_, peer, peer', hfind, hpeer, rfl⟩ := pcbDisconnect_ok hdis
  obtain ⟨_, rfl⟩ := Manager.pcbUnbind_ok hunb
  rw [setPeer, OrderedMap.find?_insert_self] at hfind
  cases hfind
  refine ⟨?_, fun ip' key' => ?_⟩
  · have hcount : c₁.numHandles = c.numHandles + 1 := by rw [hbinds.eq]
    show c₁.numHandles - 1 = c.numHandles
    omega
  · have hstep := PeerInfo.disconnect_numActive hpeer key'
    rw [PeerInfo.connect_numActive hkey] at hstep
    rw [← hbound ip' key']
    show ((c₁.setPeer ip _).setPeer ip peer').numActive ip' key' = _
    rw [numActive_setPeer]
    split
    · rename_i heq
      rw [hstep, heq, numActive]
      omega
    · rename_i hne
      rw [numActive_setPeer, if_neg hne]

end ConnectionInfo

namespace Manager

variable {m m' : Manager} {e : Event} {es : List Event} {i : Nat} {h : Handle} {conn : Conn}
  {slot : Slot ConnectionInfo} {port tcpPort : Port} {leaked : Conn → Int}

/-- The `ConnectionInfo` of a transport, a new one when it has none. -/
def info (m : Manager) (conn : Conn) : ConnectionInfo :=
  match m.connCache.find? conn.port with
  | some slot => if slot.conn = conn then slot.info else {}
  | none => {}

theorem Counted.info_eq (hm : Counted m leaked 0) (hslot : m.connCache.find? port = some slot) :
    m.info slot.conn = slot.info := by
  rw [info, (hm.slots port slot hslot).1, hslot]
  exact if_pos rfl

/-- The counts of every transport are as before. -/
def CountsKept (m m' : Manager) : Prop :=
  ∀ port slot, m'.connCache.find? port = some slot → (m.info slot.conn).SameCounts slot.info

/-- The transports are as before, with their counts. -/
def Unchanged (m m' : Manager) : Prop :=
  ∀ port slot', m'.connCache.find? port = some slot' →
    ∃ slot, m.connCache.find? port = some slot ∧ slot.conn = slot'.conn ∧
      slot.info.SameCounts slot'.info

theorem Unchanged.refl (m : Manager) : m.Unchanged m :=
  fun _ slot hslot => ⟨slot, hslot, rfl, rfl, fun _ _ => rfl⟩

theorem CountsKept.trans {m₁ : Manager} (h : m.CountsKept m₁) (h' : m₁.Unchanged m') :
    m.CountsKept m' := by
  intro port slot' hslot'
  obtain ⟨slot, hslot, hconn, hcount, hactive⟩ := h' port slot' hslot'
  obtain ⟨hcount', hactive'⟩ := h port slot hslot
  rw [← hconn]
  exact ⟨hcount.trans hcount', fun ip key => (hactive ip key).trans (hactive' ip key)⟩

theorem Counted.countsKept (hm : Counted m leaked 0) : m.CountsKept m := by
  intro port slot hslot
  rw [hm.info_eq hslot]
  exact ⟨rfl, fun _ _ => rfl⟩

theorem info_fresh (hm : Counted m leaked 0) (hid : conn.id = m.created) :
    m.info conn = {} := by
  rw [info]
  split
  · rename_i slot hslot
    split
    · rename_i heq
      have := (hm.slots _ slot hslot).2
      rw [heq] at this
      omega
    · rfl
  · rfl

theorem createTransport_countsKept (hm : Counted m leaked 0) {bound : Option Port}
    {res : Option Conn} (h : m.createTransport 0 bound = .ok (m', res)) : m.CountsKept m' := by
  obtain ⟨t, hcreated, rfl⟩ := createTransport_ok h
  cases hcreated with
  | found hname _ _ => exact absurd rfl hname
  | failed hshrunk => exact fun port slot hslot => hm.countsKept port slot (hshrunk.sub _ _ hslot)
  | opened hshrunk hid _ =>
    intro port slot hslot
    rcases Transports.find?_insert_cases hslot with ⟨_, rfl⟩ | hslot
    · rw [info_fresh hm hid]
      exact ⟨rfl, fun _ _ => rfl⟩
    · exact hm.countsKept port slot (hshrunk.sub _ _ hslot)

/-- A failure of `connect` with a transport. -/
theorem Counted.connectOn_failed (hm : Counted m leaked 0) (hmem : h ∈ m.handles)
    (hconn : h.conn = some conn) {env : ConnectEnv} (hfresh : m.freshPort env.tcpBind = true)
    (hres : (env.sockName && env.tcpNew) = true → m.ResolvesOn conn env)
    (hok : m.connectOn i h conn env = .ok (m', true)) : m.Unchanged m' := by
  rw [Manager.connectOn] at hok
  split at hok
  · cases hok
    exact Unchanged.refl m
  · rename_i henv
    obtain ⟨⟨m₁, tcpPort⟩, hbind, hrest⟩ := bind_eq_ok hok
    rcases hm.boundConnector (hm.cached hmem hconn) hfresh hbind with
      ⟨rfl, rfl⟩ | ⟨hb, htcp, slot, c, hslot, hsc, hf, hport, rfl⟩
    · cases hrest
      exact Unchanged.refl _
    · dsimp only at hrest
      rw [if_neg hport] at hrest
      obtain ⟨⟨ip, port⟩, haddr, hkey⟩ := hres (by simpa using henv) (by rw [htcp]; rfl)
      unfold Manager.connectPcb at hrest
      rw [haddr] at hrest
      obtain ⟨⟨m₂, key⟩, hconnect, hrest⟩ := bind_eq_ok hrest
      obtain ⟨hb₂, _, s, c₂, hs, _, hc₂, rfl⟩ := hb.pcbConnect hconnect
      obtain rfl := setInfo_slot m conn.port slot c hs
      obtain ⟨es, hrun⟩ := hm.reached _ slot hslot
      have hne : key ≠ 0 := connect_hasKey hrun (hkey slot hslot) hf hport hc₂
      dsimp only at hrest
      rw [if_neg hne] at hrest
      split at hrest
      · cases hrest
      · obtain ⟨m₃, hdis, hrest⟩ := bind_eq_ok hrest
        obtain ⟨m₄, hunb, hres⟩ := bind_eq_ok hrest
        cases hres
        obtain ⟨hm₃, hcached, s₃, c₃, hs₃, _, hc₃, rfl⟩ := hb₂.counted.pcbDisconnect
          hb₂.localPort ⟨_, OrderedMap.find?_insert_self _, hsc⟩ hdis
        obtain rfl := setInfo_slot _ _ _ _ hs₃
        obtain ⟨_, _, s₄, c₄, hs₄, _, hc₄, rfl⟩ := hm₃.pcbUnbind hb₂.localPort hcached hunb
        obtain rfl := setInfo_slot _ _ _ _ hs₄
        intro port' slot' hslot'
        simp only [Manager.setInfo, Transports.find?_setInfo] at hslot'
        split at hslot'
        · rename_i heq
          cases hslot'
          exact ⟨slot, heq ▸ hslot, rfl, ConnectionInfo.undo_sameCounts hf hport hc₂ hne hc₃ hc₄⟩
        · exact ⟨slot', hslot', rfl, rfl, fun _ _ => rfl⟩

theorem Counted.connect_failed (hm : Counted m leaked 0) (hi : m.handles[i]? = some h)
    {env : ConnectEnv} (hfresh : m.freshPort env.tcpBind = true)
    (hres : m.resolves h env = true) (hok : m.connect i h env = .ok (m', true)) :
    m.CountsKept m' := by
  obtain ⟨hnone, hconnects⟩ := connect_ok hok
  cases hconnects with
  | bound hconn hok =>
    have hmem := List.mem_of_getElem? hi
    refine hm.countsKept.trans (hm.connectOn_failed hmem hconn hfresh (fun henv hbind => ?_) hok)
    obtain ⟨addr, haddr, hslots⟩ := resolves_ok hres henv hbind
    exact ⟨addr, haddr, hslots _ hconn⟩
  | refused _ hcreate => exact createTransport_countsKept hm hcreate
  | @created m₁ conn _ _ hcreate hok =>
    obtain ⟨hset, hi₁, hfresh₁⟩ := hm.setCreated hi hnone hfresh hcreate
    have hcreated := createTransport_countsKept hm hcreate
    have hkept : m.CountsKept (m₁.setHandle i { h with conn := some conn }) := hcreated
    refine hkept.trans (hset.connectOn_failed (List.mem_of_getElem? hi₁) rfl hfresh₁
      (fun henv hbind => ?_) hok)
    obtain ⟨addr, haddr, _⟩ := resolves_ok hres henv hbind
    exact ⟨addr, haddr, createTransport_hasKey hcreate addr⟩

/-- In every run in which every `connect` that binds its pcb has its name resolved and finds a
key for the port: `numHandles` of every `ConnectionInfo` is the number of handles that have a
pcb on its transport, and a `connect` that reports a failure leaves `numHandles` and every
`numActiveConns` as they were. -/
theorem handles_counted (hres : Along step Resolves {} es) (hrun : Run es m) :
    (∀ port slot, m.connCache.find? port = some slot →
      slot.info.numHandles = m.bound slot.conn) ∧
    ∀ i h env m', m.handles[i]? = some h → m.freshPort env.tcpBind = true →
      m.resolves h env = true → m.connect i h env = .ok (m', true) →
      ∀ port slot, m'.connCache.find? port = some slot →
        slot.info.numHandles = (m.info slot.conn).numHandles ∧
        ∀ ip key, slot.info.numActive ip key = (m.info slot.conn).numActive ip key := by
  have hm : Counted m 0 0 := by
    refine exec_invariant_along (I := fun m => Counted m 0 0) (fun s e s' hs hr hstep => ?_)
      counted_init hres hrun
    obtain ⟨leaked', hs', hleak⟩ := step_counted hs hstep
    rwa [hleak hr] at hs'
  constructor
  · intro port slot hslot
    have hcount := hm.count port slot hslot
    simpa using hcount
  · intro i h env m' hi hfresh hr hok
    exact hm.connect_failed hi hfresh hr hok

/-- The handle's `connect` reports a failure. -/
def connectFails (m : Manager) (i : Nat) (env : ConnectEnv) : Bool :=
  m.handles[i]?.any fun h => (m.connect i h env).toOption.any Prod.snd

theorem connect_of_connectFails {env : ConnectEnv} (hf : m.connectFails i env = true) :
    ∃ h m', m.handles[i]? = some h ∧ m.connect i h env = .ok (m', true) := by
  rw [connectFails] at hf
  cases hi : m.handles[i]? with
  | none => rw [hi] at hf; cases hf
  | some h =>
    rw [hi, Option.any_some] at hf
    cases hok : m.connect i h env with
    | error a => rw [hok] at hf; cases hf
    | ok r =>
      rw [hok] at hf
      have hfailed : r.2 = true := hf
      exact ⟨h, r.1, rfl, hok.trans (by rw [← hfailed])⟩

/-- Two handles on the transport of UDP port 50 connect, one of them is killed and a third
one gets an error from `tcp_connect`. -/
theorem handles_counted_tcpConnect :
    let es : List Event := [.createStreamSocket, .createStreamSocket, .createStreamSocket,
      .bind 0 50 (some 0), .bind 1 50 none, .bind 2 50 none,
      .connect 0 { tcpBind := some 1000, resolved := some (9, 100) },
      .connect 1 { tcpBind := some 1001, resolved := some (9, 100) }, .kill 1 false]
    let env : ConnectEnv :=
      { tcpBind := some 1002, resolved := some (9, 100), tcpConnect := false }
    ∃ m, Run es m ∧ (∀ slot, m.connCache.find? 50 = some slot →
        slot.info.numHandles = m.bound slot.conn) ∧ m.bound ⟨0, 50⟩ = 1 ∧
      ∃ h m', m.handles[2]? = some h ∧ m.connect 2 h env = .ok (m', true) ∧
        ∀ slot, m'.connCache.find? 50 = some slot →
          slot.info.numActive 9 0x400 = (m.info slot.conn).numActive 9 0x400 := by
  intro es env
  obtain ⟨m, hrun, hbound, hfresh, hres, hfails⟩ : ∃ m, Run es m ∧ (m.bound ⟨0, 50⟩ = 1 ∧
      m.freshPort env.tcpBind = true ∧ m.Resolves (.connect 2 env) ∧
      m.connectFails 2 env = true) := exec_check (by decide +kernel)
  obtain ⟨hcounts, hfailed⟩ := handles_counted (by decide +kernel) hrun
  obtain ⟨h, m', hi, hok⟩ := connect_of_connectFails hfails
  have hr : m.resolves h env = true := by simpa [Resolves, hi] using hres
  refine ⟨m, hrun, hcounts 50, hbound, h, m', hi, hok, fun slot hslot => ?_⟩
  exact (hfailed 2 h env m' hi hfresh hr hok 50 slot hslot).2 9 0x400

/-- A `connect` whose name is not resolved reports the failure and leaves its transport with
a handle that does not exist, so that the transport cannot become an acceptor. -/
theorem unresolved_connect_counted :
    let env : ConnectEnv := { transport := some 50, tcpBind := some 1000, resolved := none }
    (∃ m, Run [.createStreamSocket] m ∧ m.connectFails 0 env = true ∧
      (m.info ⟨0, 50⟩).numHandles = 0) ∧
    ∃ m, Run [.createStreamSocket, .connect 0 env] m ∧
      (m.info ⟨0, 50⟩).numHandles = 1 ∧ m.bound ⟨0, 50⟩ = 0 ∧
      (m.call (.listen 0 { tcpBind := some 1001 })).bind failed = some .role :=
  ⟨exec_check (by decide +kernel), exec_check (by decide +kernel)⟩

end Manager

end DTun.Util.Ltudp
