import DTun.Util.Utp.Routes

/-!
# Sockets, handles and transports of the UTP manager

The invariant of whole runs. A socket that has a handle is the one its handle has, a socket
that listens has a handle, libutp has one socket for each peer name, and the `ConnectionInfo`
of every transport in the cache is `Exact`.
-/

namespace DTun.Util.Utp

open Lib (OrderedMap)
open Lib.Calls Lib.Runs

namespace Manager

variable {m m' : Manager} {i : Nat} {h h' : Handle} {conn : Conn} {slot : Slot ConnectionInfo}
  {port : Port} {s : Nat} {k : Socket} {ip : Ip} {u : UtpPort}

/-- The datagram that is being received through the transport. -/
def recvOn (m : Manager) (conn : Conn) : Option (Ip × UtpPort) :=
  m.inRecv.bind fun r => if r.1 = conn then some r.2 else none

structure Sound (m : Manager) : Prop extends Transports.Owned m.toTransports m.alive where
  ids : ∀ s k, m.sockets.find? s = some k →
    s < m.numSockets ∧ k.conn.id < m.created ∧ k.localPort = k.conn.port
  unique : ∀ s s' k k' name, m.sockets.find? s = some k → m.sockets.find? s' = some k' →
    k.name = some name → k'.name = some name → s = s'
  handled : ∀ s k i, m.sockets.find? s = some k → k.handle = some i →
    ∃ h, m.handles[i]? = some h ∧ h.utpSock = some s
  bound : ∀ i h s, m.handles[i]? = some h → h.utpSock = some s →
    ∃ k, m.sockets.find? s = some k ∧ k.handle = some i ∧ h.conn = some k.conn
  listening : ∀ s k, m.sockets.find? s = some k → k.name = none → k.handle.isSome = true
  exact : ∀ port slot, m.connCache.find? port = some slot →
    Exact m.sockets (m.recvOn slot.conn) slot.conn slot.info

theorem sound_init : Sound {} where
  slots := fun port slot h => by cases h
  live := fun conn h => by cases h
  ids := fun s k h => by cases h
  unique := fun s s' k k' name h => by cases h
  handled := fun s k i h => by cases h
  bound := fun i h s hi => by cases hi
  listening := fun s k h => by cases h
  exact := fun port slot h => by cases h

theorem alive_iff : m.alive conn = true ↔ (∃ h ∈ m.handles, h.conn = some conn) ∨
    conn ∈ m.closing ∨ ∃ r, m.inRecv = some r ∧ r.1 = conn := by
  rw [alive, Bool.or_eq_true, Bool.or_eq_true, or_assoc]
  cases m.inRecv with
  | none => simp
  | some r => simp

theorem alive_of_handle (hi : m.handles[i]? = some h) (hconn : h.conn = some conn) :
    m.alive conn = true :=
  alive_iff.mpr (.inl ⟨h, List.mem_of_getElem? hi, hconn⟩)

theorem Sound.find?_numSockets (hm : m.Sound) : m.sockets.find? m.numSockets = none := by
  cases hk : m.sockets.find? m.numSockets with
  | none => rfl
  | some k => exact absurd (hm.ids _ k hk).1 (Nat.lt_irrefl _)

/-- Different entries of the cache are of different transports. -/
theorem Sound.conn_ne (hm : m.Sound) {port' : Port} {slot' : Slot ConnectionInfo}
    (hslot : m.connCache.find? port = some slot) (hslot' : m.connCache.find? port' = some slot')
    (hne : port' ≠ port) : slot'.conn ≠ slot.conn := by
  intro heq
  rw [← (hm.slots _ _ hslot).1, ← (hm.slots _ _ hslot').1, heq] at hne
  exact hne rfl

/-- The handles that have sockets stay as they are. -/
theorem Sound.setHandles (hm : m.Sound) {hs : List Handle}
    (hconn : ∀ g ∈ hs, ∀ conn, g.conn = some conn → m.alive conn = true ∨ m.Cached conn)
    (hsame : ∀ (i : Nat) (g : Handle) (s : Nat), (hs[i]? = some g ∧ g.utpSock = some s) ↔
      (m.handles[i]? = some g ∧ g.utpSock = some s)) :
    Sound { m with handles := hs } := by
  constructor
  case toOwned =>
    refine hm.toOwned.hold fun conn halive => ?_
    rcases alive_iff.mp halive with ⟨g, hg, hgc⟩ | hrest
    · exact hconn g hg conn hgc
    · exact .inl (alive_iff.mpr (.inr hrest))
  case ids => exact hm.ids
  case unique => exact hm.unique
  case handled =>
    intro s k i hk hh
    obtain ⟨g, hg⟩ := hm.handled s k i hk hh
    exact ⟨g, (hsame i g s).mpr hg⟩
  case bound =>
    intro i g s hi hs
    obtain ⟨hi, hs⟩ := (hsame i g s).mp ⟨hi, hs⟩
    exact hm.bound i g s hi hs
  case listening => exact hm.listening
  case exact => exact hm.exact

theorem Sound.addHandle (hm : m.Sound) : Sound { m with handles := m.handles ++ [{}] } := by
  refine hm.setHandles (fun g hg conn hc => ?_) fun i g s => ?_
  · rcases List.mem_append.mp hg with hg | hg
    · exact .inl (alive_iff.mpr (.inl ⟨g, hg, hc⟩))
    · rw [List.mem_singleton.mp hg] at hc
      cases hc
  · rw [List.getElem?_append]
    split
    · exact Iff.rfl
    · rename_i hlt
      rw [List.getElem?_eq_none (Nat.le_of_not_lt hlt)]
      constructor
      · rintro ⟨hi, hs⟩
        rw [List.mem_singleton.mp (List.mem_of_getElem? hi)] at hs
        cases hs
      · rintro ⟨hi, _⟩
        cases hi

/-- A handle without a socket becomes another one. -/
theorem Sound.setFree (hm : m.Sound) (hi : m.handles[i]? = some h) (hold : h.utpSock = none)
    (hnew : h'.utpSock = none)
    (hconn : ∀ conn, h'.conn = some conn → m.alive conn = true ∨ m.Cached conn) :
    Sound (m.setHandle i h') := by
  refine hm.setHandles (fun g hg conn hc => ?_) fun j g s => ?_
  · rcases List.mem_or_eq_of_mem_set hg with hg | rfl
    · exact .inl (alive_iff.mpr (.inl ⟨g, hg, hc⟩))
    · exact hconn conn hc
  · by_cases hji : j = i
    · rw [hji, List.getElem?_set_self (List.getElem?_eq_some_iff.mp hi).1, hi]
      constructor
      · rintro ⟨hj, hs⟩
        cases hj
        rw [hnew] at hs
        cases hs
      · rintro ⟨hj, hs⟩
        cases hj
        rw [hold] at hs
        cases hs
    · rw [List.getElem?_set_ne (fun heq => hji heq.symm)]

/-- Sockets and handles stay, the transports and what holds them change. -/
theorem Sound.frame (hm : m.Sound) {t : Transports ConnectionInfo} {closing : List Conn}
    {recv : Option (Conn × Ip × UtpPort)}
    (howned : t.Owned (alive { m with closing := closing, inRecv := recv }))
    (hcreated : m.created ≤ t.created)
    (hexact : ∀ port slot, t.connCache.find? port = some slot →
      Exact m.sockets (recvOn { m with inRecv := recv } slot.conn) slot.conn slot.info) :
    Sound { m with toTransports := t, closing := closing, inRecv := recv } := by
  constructor
  case toOwned => exact howned
  case ids =>
    intro s k hk
    obtain ⟨hs, hid, hp⟩ := hm.ids s k hk
    exact ⟨hs, Nat.lt_of_lt_of_le hid hcreated, hp⟩
  case unique => exact hm.unique
  case handled => exact hm.handled
  case bound => exact hm.bound
  case listening => exact hm.listening
  case exact => exact hexact

theorem Sound.setClosing (hm : m.Sound) {closing : List Conn}
    (hclosing : ∀ conn ∈ closing, m.Cached conn) : Sound { m with closing := closing } := by
  refine hm.frame (hm.toOwned.hold fun conn halive => ?_) (Nat.le_refl _) hm.exact
  rcases alive_iff.mp halive with hh | hc | hr
  · exact .inl (alive_iff.mpr (.inl hh))
  · exact .inr (hclosing conn hc)
  · exact .inl (alive_iff.mpr (.inr (.inr hr)))

theorem Sound.shrink (hm : m.Sound) {cache : OrderedMap Port (Slot ConnectionInfo)}
    (hshrunk : Transports.Shrunk m.alive m.connCache cache) :
    Sound { m with connCache := cache } := by
  exact hm.frame (hm.toOwned.shrink hshrunk) (Nat.le_refl _)
    fun port slot hs => hm.exact port slot (hshrunk.sub port slot hs)

theorem recvOn_dead (hdead : m.alive conn = false) : m.recvOn conn = none := by
  rw [recvOn]
  cases hr : m.inRecv with
  | none => rfl
  | some r =>
    rw [Option.bind_some, if_neg]
    intro heq
    rw [alive_iff.mpr (.inr (.inr ⟨r, hr, heq⟩))] at hdead
    cases hdead

theorem Sound.insertConn (hm : m.Sound) (conn : Conn) (hid : conn.id = m.created)
    (hfree : ∀ slot, m.connCache.find? conn.port = some slot → m.alive slot.conn = false) :
    Sound { m with
      connCache := m.connCache.insert conn.port { conn := conn, info := {} }
      created := m.created + 1 } := by
  have hdead : m.alive conn = false := by
    rw [Bool.eq_false_iff]
    intro halive
    obtain ⟨slot, hslot, rfl⟩ := hm.live conn halive
    have := (hm.slots _ slot hslot).2
    omega
  refine hm.frame (hm.toOwned.insertConn conn {} hid hfree) (Nat.le_succ _) ?_
  intro port slot hs
  rcases Transports.find?_insert_cases hs with ⟨rfl, rfl⟩ | hs
  · show Exact m.sockets (m.recvOn conn) conn {}
    rw [recvOn_dead hdead]
    refine Exact.fresh fun s k hk heq => ?_
    have := (hm.ids s k hk).2.1
    rw [heq] at this
    omega
  · exact hm.exact port slot hs

theorem Sound.created (hm : m.Sound) {name : Port} {res : Option Conn}
    {t : Transports ConnectionInfo}
    (hc : Transports.Created m.alive {} m.toTransports name t res) :
    Sound { m with toTransports := t } := by
  cases hc with
  | found _ _ _ => exact hm
  | failed hshrunk => exact hm.shrink hshrunk
  | opened hshrunk hid hfree => exact (hm.shrink hshrunk).insertConn _ hid hfree

/-- An entry whose transport is gone has routes only if it has sockets. -/
theorem Sound.not_stale (hm : m.Sound) (hslot : m.connCache.find? port = some slot)
    (hdead : m.alive slot.conn = false) (hempty : slot.info.utpSocks = []) :
    slot.info.peers.entries.isEmpty = true := by
  have hexact := hm.exact port slot hslot
  rw [recvOn_dead hdead] at hexact
  refine hexact.peers.peers_isEmpty fun ip u => ?_
  rw [← Option.not_isSome_iff_eq_none, hexact.routed]
  rintro (hnamed | hrecv)
  · obtain ⟨s, k, hk, hc, _⟩ := named_iff.mp hnamed
    have hmem := (hexact.socks s).mpr ⟨k, hk, hc⟩
    rw [hempty] at hmem
    cases hmem
  · cases hrecv

theorem Sound.destroyDropped (hm : m.Sound)
    (hkeep : ∀ port slot, m.connCache.find? port = some slot → m.alive slot.conn = true →
      (m'.connCache.find? port).map Slot.conn = some slot.conn) :
    m.destroyDropped m' = .ok m' := by
  rw [Manager.destroyDropped, if_neg]
  rw [OrderedMap.any_iff]
  rintro ⟨port, slot, hslot, hdrop⟩
  simp only [Bool.and_eq_true, decide_eq_true_eq, List.isEmpty_iff, Bool.not_eq_true'] at hdrop
  obtain ⟨⟨hne, hempty⟩, hpeers⟩ := hdrop
  have hdead : m.alive slot.conn = false := by
    rw [Bool.eq_false_iff]
    exact fun halive => hne (hkeep port slot hslot halive)
  rw [hm.not_stale hslot hdead hempty] at hpeers
  cases hpeers

/-- `createTransport` and reaping drop no entry with routes and no sockets. -/
theorem Sound.createTransport (hm : m.Sound) {name : Port} {bound : Option Port}
    {t : Transports ConnectionInfo} {res : Option Conn}
    (h : m.toTransports.createTransport m.alive {} name bound = some (t, res)) :
    m.createTransport name bound = .ok ({ m with toTransports := t }, res) ∧
      Sound { m with toTransports := t } ∧ ∀ conn, res = some conn → t.Cached conn := by
  have hcreated := Transports.createTransport_created h
  refine ⟨?_, hm.created hcreated, (hm.toOwned.created hcreated).2⟩
  rw [Manager.createTransport, h]
  dsimp only
  rw [hm.destroyDropped fun port slot hslot halive => ?_]
  · rfl
  · obtain ⟨s, hs, hsc⟩ := (hm.toOwned.created hcreated).1.live _ halive
    rw [(hm.slots port slot hslot).1] at hs
    show (t.connCache.find? port).map Slot.conn = _
    rw [hs, Option.map_some, hsc]

theorem Sound.reap (hm : m.Sound) :
    m.reapConnCache = .ok { m with toTransports := m.toTransports.reapConnCache m.alive } ∧
      Sound { m with toTransports := m.toTransports.reapConnCache m.alive } := by
  have hshrunk := Transports.shrunk_reap m.toTransports m.alive
  refine ⟨?_, hm.shrink hshrunk⟩
  rw [reapConnCache, hm.destroyDropped fun port slot hslot halive => ?_]
  show ((m.toTransports.reapConnCache m.alive).connCache.find? port).map Slot.conn = _
  rw [hshrunk.keep port slot hslot halive]
  rfl

/-- The cache when the `ConnectionInfo` of one transport changes along with the sockets. -/
theorem Sound.exact_setInfo (hm : m.Sound) (hslot : m.connCache.find? port = some slot)
    {c : ConnectionInfo} {sockets : OrderedMap Nat Socket} {recv : Conn → Option (Ip × UtpPort)}
    (hown : Exact sockets (recv slot.conn) slot.conn c)
    (hother : ∀ port' slot', m.connCache.find? port' = some slot' → slot'.conn ≠ slot.conn →
      Exact sockets (recv slot'.conn) slot'.conn slot'.info) :
    ∀ port' slot', (m.setInfo port slot c).connCache.find? port' = some slot' →
      Exact sockets (recv slot'.conn) slot'.conn slot'.info := by
  intro port' slot' hs
  rcases Transports.find?_setInfo_cases hs with ⟨rfl, rfl⟩ | ⟨hne, hs⟩
  · exact hown
  · exact hother port' slot' hs (hm.conn_ne hslot hs hne)

/-- A new socket of a transport in use, for a handle that had none. -/
theorem Sound.addSocket (hm : m.Sound) (hslot : m.connCache.find? port = some slot)
    (hconn : k.conn = slot.conn) (hport : k.localPort = port) (hhandle : k.handle = some i)
    {c : ConnectionInfo}
    (hexact : Exact (m.sockets.insert m.numSockets k) (m.recvOn slot.conn) slot.conn c)
    (hname : ∀ s k' name, m.sockets.find? s = some k' → k'.name = some name →
      k.name ≠ some name)
    {hs : List Handle} (hnew : hs[i]? = some ⟨some slot.conn, some m.numSockets⟩)
    (hsame : ∀ j, j ≠ i → hs[j]? = m.handles[j]?)
    (hold : ∀ g, m.handles[i]? = some g → g.utpSock = none) :
    Sound { (m.setInfo port slot c).addSocket k with handles := hs } := by
  have hnone := hm.find?_numSockets
  have hslotPort := (hm.slots port slot hslot)
  have hfind : ∀ s k', (m.sockets.insert m.numSockets k).find? s = some k' →
      s = m.numSockets ∧ k' = k ∨ s ≠ m.numSockets ∧ m.sockets.find? s = some k' := by
    intro s k' hk'
    rw [OrderedMap.find?_insert] at hk'
    split at hk'
    · rename_i heq
      exact .inl ⟨heq, (Option.some.inj hk').symm⟩
    · rename_i hne
      exact .inr ⟨hne, hk'⟩
  constructor
  case toOwned =>
    refine (hm.toOwned.setInfo hslot c).hold fun conn halive => ?_
    rcases alive_iff.mp halive with ⟨g, hg, hgc⟩ | hrest
    · obtain ⟨j, hj⟩ := List.getElem?_of_mem hg
      by_cases hji : j = i
      · subst hji
        have hj : hs[j]? = some g := hj
        rw [hnew] at hj
        cases hj
        cases hgc
        refine .inr (Transports.cached_setInfo hslot c ⟨slot, ?_, rfl⟩)
        rw [hslotPort.1]
        exact hslot
      · have hj : hs[j]? = some g := hj
        rw [hsame j hji] at hj
        exact .inl (alive_of_handle hj hgc)
    · exact .inl (alive_iff.mpr (.inr hrest))
  case ids =>
    intro s k' hk'
    rcases hfind s k' hk' with ⟨rfl, rfl⟩ | ⟨_, hk'⟩
    · refine ⟨Nat.lt_succ_self _, ?_, ?_⟩
      · rw [hconn]
        exact hslotPort.2
      · rw [hport, hconn, hslotPort.1]
    · obtain ⟨hlt, hid, hp⟩ := hm.ids s k' hk'
      exact ⟨Nat.lt_succ_of_lt hlt, hid, hp⟩
  case unique =>
    intro s s' k₁ k₂ name hk₁ hk₂ hn₁ hn₂
    rcases hfind s k₁ hk₁ with ⟨rfl, rfl⟩ | ⟨_, hold₁⟩
    · rcases hfind s' k₂ hk₂ with ⟨rfl, rfl⟩ | ⟨_, hold₂⟩
      · rfl
      · exact absurd hn₁ (hname s' k₂ name hold₂ hn₂)
    · rcases hfind s' k₂ hk₂ with ⟨rfl, rfl⟩ | ⟨_, hold₂⟩
      · exact absurd hn₂ (hname s k₁ name hold₁ hn₁)
      · exact hm.unique s s' k₁ k₂ name hold₁ hold₂ hn₁ hn₂
  case handled =>
    intro s k' j hk' hj
    rcases hfind s k' hk' with ⟨rfl, rfl⟩ | ⟨_, hk'⟩
    · rw [hhandle] at hj
      cases hj
      exact ⟨_, hnew, rfl⟩
    · obtain ⟨g, hg, hgs⟩ := hm.handled s k' j hk' hj
      have hji : j ≠ i := by
        intro heq
        rw [heq] at hg
        rw [hold g hg] at hgs
        cases hgs
      exact ⟨g, (hsame j hji).trans hg, hgs⟩
  case bound =>
    intro j g s hj hgs
    by_cases hji : j = i
    · subst hji
      have hj : hs[j]? = some g := hj
      rw [hnew] at hj
      cases hj
      cases hgs
      exact ⟨k, OrderedMap.find?_insert_self _, hhandle, by rw [hconn]⟩
    · have hj : hs[j]? = some g := hj
      rw [hsame j hji] at hj
      obtain ⟨k', hk', hh, hc⟩ := hm.bound j g s hj hgs
      refine ⟨k', ?_, hh, hc⟩
      show (m.sockets.insert m.numSockets k).find? s = some k'
      rw [OrderedMap.find?_insert_of_ne]
      · exact hk'
      · exact Nat.ne_of_lt (hm.ids s k' hk').1
  case listening =>
    intro s k' hk' hn
    rcases hfind s k' hk' with ⟨rfl, rfl⟩ | ⟨_, hk'⟩
    · rw [hhandle]
      rfl
    · exact hm.listening s k' hk' hn
  case exact =>
    refine hm.exact_setInfo hslot hexact fun port' slot' hs hne =>
      (hm.exact port' slot' hs).insert_other (fun k' hk' => ?_) ?_
    · cases hnone.symm.trans hk'
    · rw [hconn]
      exact hne.symm

/-- A socket without a handle goes. -/
theorem Sound.eraseSocket (hm : m.Sound) (hk : m.sockets.find? s = some k)
    (hhandle : k.handle = none) {t : Transports ConnectionInfo} (howned : t.Owned m.alive)
    (hcreated : t.created = m.created)
    (hexact : ∀ port slot, t.connCache.find? port = some slot →
      Exact (m.sockets.erase s) (m.recvOn slot.conn) slot.conn slot.info) :
    Sound { m with toTransports := t, sockets := m.sockets.erase s } := by
  have hsub : ∀ s' k', (m.sockets.erase s).find? s' = some k' → m.sockets.find? s' = some k' :=
    fun s' k' h => OrderedMap.find?_of_erase _ h
  constructor
  case toOwned => exact howned
  case ids =>
    intro s' k' hk'
    obtain ⟨hlt, hid, hp⟩ := hm.ids s' k' (hsub s' k' hk')
    exact ⟨hlt, hcreated ▸ hid, hp⟩
  case unique =>
    exact fun s₁ s₂ k₁ k₂ name h₁ h₂ => hm.unique s₁ s₂ k₁ k₂ name (hsub _ _ h₁) (hsub _ _ h₂)
  case handled => exact fun s' k' j h => hm.handled s' k' j (hsub s' k' h)
  case bound =>
    intro j g s' hj hgs
    obtain ⟨k', hk', hh, hc⟩ := hm.bound j g s' hj hgs
    refine ⟨k', ?_, hh, hc⟩
    show (m.sockets.erase s).find? s' = some k'
    rw [OrderedMap.find?_erase_of_ne]
    · exact hk'
    · intro heq
      rw [heq, hk] at hk'
      cases hk'
      rw [hhandle] at hh
      cases hh
  case listening => exact fun s' k' h => hm.listening s' k' (hsub s' k' h)
  case exact => exact hexact

/-- The assertions in `removeUtpSock` hold, and the socket is gone. -/
theorem Sound.destroy (hm : m.Sound) (hk : m.sockets.find? s = some k) (hrecv : m.inRecv = none)
    (hname : k.name.isSome = true) (hhandle : k.handle = none) :
    ∃ m', m.destroy s k = .ok m' ∧ m'.Sound := by
  obtain ⟨⟨ip, u⟩, hname⟩ := Option.isSome_iff_exists.mp hname
  have hnone : ∀ conn, m.recvOn conn = none := fun conn => by rw [recvOn, hrecv]; rfl
  have hother : ∀ port slot, m.connCache.find? port = some slot → slot.conn ≠ k.conn →
      Exact (m.sockets.erase s) (m.recvOn slot.conn) slot.conn slot.info := by
    intro port slot hslot hne
    refine (hm.exact port slot hslot).erase_other fun k' hk' heq => ?_
    rw [hk] at hk'
    cases hk'
    exact hne heq.symm
  have hport : ∀ port slot, m.connCache.find? port = some slot → slot.conn = k.conn →
      m.connCache.find? k.localPort = some slot := by
    intro port slot hslot heq
    rw [(hm.ids s k hk).2.2, ← heq, (hm.slots port slot hslot).1]
    exact hslot
  rw [Manager.destroy]
  cases hslot : m.connCache.find? k.localPort with
  | none =>
    refine ⟨_, rfl, hm.eraseSocket hk hhandle hm.toOwned rfl fun port slot hs => ?_⟩
    refine hother port slot hs fun heq => ?_
    cases hslot.symm.trans (hport port slot hs heq)
  | some slot =>
    dsimp only
    have hexact := hm.exact _ slot hslot
    rw [hnone] at hexact
    by_cases hc : k.conn = slot.conn
    · obtain ⟨c, hok, hc'⟩ := hexact.removeUtpSock hk hc hname
        fun s' k' hk' hn => hm.unique s' s k' k (ip, u) hk' hk hn hname
      rw [hname, hok]
      refine ⟨_, rfl, hm.eraseSocket hk hhandle (hm.toOwned.setInfo hslot c) rfl ?_⟩
      exact hm.exact_setInfo hslot (by rw [hnone]; exact hc') fun port' slot' hs hne =>
        hother port' slot' hs fun heq => hne (heq.trans hc)
    · have hmem : s ∉ slot.info.utpSocks := by
        intro hmem
        obtain ⟨k', hk', hc'⟩ := (hexact.socks s).mp hmem
        rw [hk] at hk'
        cases hk'
        exact hc hc'
      rw [ConnectionInfo.removeUtpSock, if_pos hmem]
      refine ⟨_, rfl, hm.eraseSocket hk hhandle (hm.toOwned.setInfo hslot slot.info) rfl ?_⟩
      refine hm.exact_setInfo hslot (hother _ slot hslot fun heq => hc heq.symm)
        fun port' slot' hs _ => hother port' slot' hs fun heq => ?_
      have hsame := Option.some.inj (hslot.symm.trans (hport port' slot' hs heq))
      rw [hsame] at hc
      exact hc heq.symm

/-- A socket has lost its handle, or is gone. -/
structure Detached (sockets sockets' : OrderedMap Nat Socket) (s : Nat) : Prop where
  same : ∀ s', s' ≠ s → sockets'.find? s' = sockets.find? s'
  own : ∀ k', sockets'.find? s = some k' →
    ∃ k, sockets.find? s = some k ∧ k' = { k with handle := none } ∧ k.name ≠ none

theorem Detached.cases {sockets sockets' : OrderedMap Nat Socket} (hd : Detached sockets sockets' s)
    {s' : Nat} {k' : Socket} (hk' : sockets'.find? s' = some k') :
    sockets.find? s' = some k' ∨ ∃ k, sockets.find? s' = some k ∧
      k' = { k with handle := none } ∧ k.name ≠ none := by
  by_cases heq : s' = s
  · subst heq
    exact .inr (hd.own k' hk')
  · exact .inl ((hd.same s' heq).symm.trans hk')

/-- The handle of the socket that is closed. -/
theorem Sound.detach (hm : m.Sound) (hi : m.handles[i]? = some h) (hsock : h.utpSock = some s)
    (hnone : h'.utpSock = none) (hconn : ∀ conn, h'.conn = some conn → h.conn = some conn)
    {sockets : OrderedMap Nat Socket} (hd : Detached m.sockets sockets s)
    {t : Transports ConnectionInfo} (howned : t.Owned m.alive) (hcreated : t.created = m.created)
    (hexact : ∀ port slot, t.connCache.find? port = some slot →
      Exact sockets (m.recvOn slot.conn) slot.conn slot.info) :
    Sound { m with toTransports := t, sockets := sockets, handles := m.handles.set i h' } := by
  have hset : ∀ j g s', (m.handles.set i h')[j]? = some g → g.utpSock = some s' →
      j ≠ i ∧ m.handles[j]? = some g := by
    intro j g s' hj hgs
    by_cases hji : j = i
    · rw [hji, List.getElem?_set_self (List.getElem?_eq_some_iff.mp hi).1] at hj
      cases hj
      rw [hnone] at hgs
      cases hgs
    · rw [List.getElem?_set_ne (fun heq => hji heq.symm)] at hj
      exact ⟨hji, hj⟩
  constructor
  case toOwned =>
    refine howned.hold fun conn halive => .inl ?_
    rcases alive_iff.mp halive with ⟨g, hg, hgc⟩ | hrest
    · rcases List.mem_or_eq_of_mem_set hg with hg | rfl
      · exact alive_iff.mpr (.inl ⟨g, hg, hgc⟩)
      · exact alive_of_handle hi (hconn conn hgc)
    · exact alive_iff.mpr (.inr hrest)
  case ids =>
    intro s' k' hk'
    show s' < m.numSockets ∧ k'.conn.id < t.created ∧ k'.localPort = k'.conn.port
    rw [hcreated]
    rcases hd.cases hk' with hk | ⟨k, hk, rfl, _⟩
    · exact hm.ids s' k' hk
    · exact hm.ids s' k hk
  case unique =>
    intro s₁ s₂ k₁ k₂ name hk₁ hk₂ hn₁ hn₂
    have hold : ∀ s' k', sockets.find? s' = some k' →
        ∃ k, m.sockets.find? s' = some k ∧ k.name = k'.name := by
      intro s' k' hk'
      rcases hd.cases hk' with hk | ⟨k, hk, rfl, _⟩
      · exact ⟨k', hk, rfl⟩
      · exact ⟨k, hk, rfl⟩
    obtain ⟨k₁', hk₁', hn₁'⟩ := hold s₁ k₁ hk₁
    obtain ⟨k₂', hk₂', hn₂'⟩ := hold s₂ k₂ hk₂
    exact hm.unique s₁ s₂ k₁' k₂' name hk₁' hk₂' (hn₁'.trans hn₁) (hn₂'.trans hn₂)
  case handled =>
    intro s' k' j hk' hj
    rcases hd.cases hk' with hk | ⟨k, hk, rfl, _⟩
    · obtain ⟨g, hg, hgs⟩ := hm.handled s' k' j hk hj
      refine ⟨g, ?_, hgs⟩
      show (m.handles.set i h')[j]? = some g
      rw [List.getElem?_set_ne]
      · exact hg
      · intro heq
        rw [← heq, hi] at hg
        cases hg
        rw [hsock] at hgs
        cases hgs
        obtain ⟨k, _, rfl, _⟩ := hd.own k' hk'
        cases hj
    · cases hj
  case bound =>
    intro j g s' hj hgs
    obtain ⟨hji, hj⟩ := hset j g s' hj hgs
    obtain ⟨k', hk', hh, hc⟩ := hm.bound j g s' hj hgs
    refine ⟨k', ?_, hh, hc⟩
    show sockets.find? s' = some k'
    rw [hd.same]
    · exact hk'
    · intro heq
      obtain ⟨k, hk, hh', _⟩ := hm.bound i h s hi hsock
      rw [heq, hk] at hk'
      cases hk'
      rw [hh'] at hh
      exact hji (Option.some.inj hh).symm
  case listening =>
    intro s' k' hk' hn
    rcases hd.cases hk' with hk | ⟨k, _, rfl, hname⟩
    · exact hm.listening s' k' hk hn
    · exact absurd hn hname
  case exact => exact hexact

/-- The `ConnectionInfo` of a handle's socket. -/
theorem Sound.slot_of_handle (hm : m.Sound) (hi : m.handles[i]? = some h)
    (hsock : h.utpSock = some s) (hk : m.sockets.find? s = some k) :
    k.handle = some i ∧ h.conn = some k.conn ∧
      ∃ slot, m.connCache.find? k.localPort = some slot ∧ slot.conn = k.conn := by
  obtain ⟨k', hk', hh, hc⟩ := hm.bound i h s hi hsock
  rw [hk] at hk'
  cases hk'
  obtain ⟨slot, hslot, hsc⟩ := hm.live _ (alive_of_handle hi hc)
  exact ⟨hh, hc, slot, by rw [(hm.ids s k hk).2.2]; exact hslot, hsc⟩

/-- The handle of a socket is the acceptor handle of its transport only if the socket
listens. -/
theorem Sound.acceptor_iff (hm : m.Sound) (hi : m.handles[i]? = some h)
    (hsock : h.utpSock = some s) (hk : m.sockets.find? s = some k)
    (hslot : m.connCache.find? port = some slot) (hconn : slot.conn = k.conn) :
    slot.info.acceptorHandle = k.handle ↔ k.name = none := by
  obtain ⟨hhandle, _, _⟩ := hm.slot_of_handle hi hsock hk
  have hexact := hm.exact port slot hslot
  rw [hhandle, hexact.acceptor]
  constructor
  · rintro ⟨s', k', hk', _, hname, hh⟩
    obtain ⟨g, hg, hgs⟩ := hm.handled s' k' i hk' hh
    rw [hi] at hg
    cases hg
    rw [hsock] at hgs
    cases hgs
    rw [hk] at hk'
    cases hk'
    exact hname
  · exact fun hname => ⟨s, k, hk, hconn.symm, hname, hhandle⟩

/-- A handle's socket is closed: the one that listens goes, another one stays without its
handle. -/
theorem Sound.closeSock (hm : m.Sound) (hi : m.handles[i]? = some h)
    (hok : m.closeSock h = .ok m') (h' : Handle) (hnone : h'.utpSock = none)
    (hconn : ∀ conn, h'.conn = some conn → h.conn = some conn) :
    Sound (m'.setHandle i h') ∧ m'.closing = m.closing ∧
      ∀ conn, m.Cached conn → m'.Cached conn := by
  rw [Manager.closeSock] at hok
  cases hsock : h.utpSock with
  | none =>
    rw [hsock] at hok
    cases hok
    refine ⟨hm.setFree hi hsock hnone fun conn hc => ?_, rfl, fun _ hc => hc⟩
    exact .inl (alive_of_handle hi (hconn conn hc))
  | some s =>
    rw [hsock] at hok
    cases hk : m.sockets.find? s with
    | none =>
      simp only [hk] at hok
      cases hok
    | some k =>
      simp only [hk] at hok
      obtain ⟨hhandle, _, slot, hslot, hsc⟩ := hm.slot_of_handle hi hsock hk
      have hiff := hm.acceptor_iff hi hsock hk hslot hsc
      have hexact := hm.exact _ slot hslot
      rw [unbind, hslot] at hok
      dsimp only at hok
      split at hok
      · rename_i hacc
        have hname := hiff.mp hacc
        split at hok
        · cases hok
          have hd : Detached m.sockets (m.sockets.erase s) s := by
            refine ⟨fun s' hne => OrderedMap.find?_erase_of_ne _ hne, fun k' hk' => ?_⟩
            rw [OrderedMap.find?_erase, if_pos rfl] at hk'
            cases hk'
          refine ⟨hm.detach hi hsock hnone hconn hd (hm.toOwned.setInfo hslot _) rfl ?_, rfl,
            fun conn hc => Transports.cached_setInfo hslot _ hc⟩
          refine hm.exact_setInfo hslot (hexact.removeListening hk hname ?_) ?_
          · -- another listening socket would have the same handle
            intro s' k' hk' hc' hn'
            obtain ⟨j, hj⟩ := Option.isSome_iff_exists.mp (hm.listening s' k' hk' hn')
            have hacc' := (hexact.acceptor j).mpr ⟨s', k', hk', hc', hn', hj⟩
            rw [hacc, hhandle] at hacc'
            cases hacc'
            obtain ⟨g, hg, hgs⟩ := hm.handled s' k' i hk' hj
            rw [hi] at hg
            cases hg
            rw [hsock] at hgs
            exact (Option.some.inj hgs).symm
          · intro port' slot' hs hne
            refine (hm.exact port' slot' hs).erase_other fun k' hk' heq => ?_
            rw [hk] at hk'
            cases hk'
            exact hne (heq.symm.trans hsc.symm)
        · cases hok
      · rename_i hacc
        have hname : k.name ≠ none := fun hn => hacc (hiff.mpr hn)
        cases hok
        have hd : Detached m.sockets (m.sockets.insert s { k with handle := none }) s := by
          refine ⟨fun s' hne => OrderedMap.find?_insert_of_ne _ hne, fun k' hk' => ?_⟩
          rw [OrderedMap.find?_insert_self] at hk'
          cases hk'
          exact ⟨k, hk, rfl, hname⟩
        refine ⟨hm.detach hi hsock hnone hconn hd hm.toOwned rfl fun port' slot' hs => ?_, rfl,
          fun _ hc => hc⟩
        exact (hm.exact port' slot' hs).detach hk hname

end Manager

end DTun.Util.Utp
