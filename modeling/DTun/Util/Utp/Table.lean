import DTun.Util.Utp.Sockets

/-!
# The UTP routing table over whole runs

Every event keeps the invariant, also inside of a datagram that is being received, and no
assertion about routes can fail. At the top level the routes of a transport are the peer names
of its sockets. A datagram that nobody waits for leaves the manager as it was.
-/

namespace DTun.Util.Utp

open Lib (OrderedMap)
open Lib.Calls Lib.Runs

namespace Manager

variable {m m' : Manager} {e : Event} {es : List Event} {i : Nat} {h h' : Handle} {conn : Conn}
  {slot : Slot ConnectionInfo} {port : Port} {s : Nat} {k : Socket} {ip : Ip} {u : UtpPort}

theorem recvOn_none (hrecv : m.inRecv = none) (conn : Conn) : m.recvOn conn = none := by
  rw [recvOn, hrecv]
  rfl

theorem recvOn_some {r : Conn × Ip × UtpPort} (hrecv : m.inRecv = some r) (conn : Conn) :
    m.recvOn conn = if r.1 = conn then some r.2 else none := by
  rw [recvOn, hrecv]
  rfl

/-- What is received changes, along with the transport it is received through. -/
theorem Sound.setRecv (hm : m.Sound) {t : Transports ConnectionInfo}
    {recv : Option (Conn × Ip × UtpPort)} (howned : t.Owned m.alive)
    (hcreated : t.created = m.created)
    (halive : ∀ r, recv = some r → m.alive r.1 = true)
    (hexact : ∀ port slot, t.connCache.find? port = some slot →
      Exact m.sockets (recvOn { m with inRecv := recv } slot.conn) slot.conn slot.info) :
    Sound { m with toTransports := t, inRecv := recv } := by
  refine hm.frame (howned.hold fun conn hc => .inl ?_) (Nat.le_of_eq hcreated.symm) hexact
  rcases alive_iff.mp hc with hh | hclosing | ⟨r, hr, hrc⟩
  · exact alive_iff.mpr (.inl hh)
  · exact alive_iff.mpr (.inr (.inl hclosing))
  · exact hrc ▸ halive r hr

theorem Sound.recvBegin (hm : m.Sound) (hslot : m.connCache.find? port = some slot)
    (hrecv : m.inRecv = none) (halive : m.alive slot.conn = true) (srcPort : Port) :
    (m.recvBegin port slot ip srcPort u).Sound := by
  have hexact := hm.exact port slot hslot
  rw [recvOn_none hrecv] at hexact
  refine hm.setRecv (hm.toOwned.setInfo hslot _) rfl (fun r hr => ?_) ?_
  · cases hr
    exact halive
  · refine hm.exact_setInfo hslot ?_ fun port' slot' hs hne => ?_
    · rw [recvOn_some rfl, if_pos rfl]
      exact hexact.recvBegin srcPort
    · rw [recvOn_some rfl, if_neg hne.symm]
      have hother := hm.exact port' slot' hs
      rwa [recvOn_none hrecv] at hother

theorem Sound.recvEnd (hm : m.Sound) (hrecv : m.inRecv = some (conn, ip, u))
    (hok : m.recvEnd conn ip u = .ok m') : m'.Sound := by
  have halive : m.alive conn = true := alive_iff.mpr (.inr (.inr ⟨_, hrecv, rfl⟩))
  obtain ⟨slot, hslot, rfl⟩ := hm.live conn halive
  rw [Manager.recvEnd, hslot] at hok
  cases hok
  have hexact := hm.exact _ slot hslot
  rw [recvOn_some hrecv, if_pos rfl] at hexact
  refine hm.setRecv (hm.toOwned.setInfo hslot _) rfl (fun r hr => (by cases hr)) ?_
  refine hm.exact_setInfo hslot hexact.recvEnd fun port' slot' hs hne => ?_
  have hother := hm.exact port' slot' hs
  rwa [recvOn_some hrecv, if_neg hne.symm] at hother

theorem Sound.bindAcceptor (hm : m.Sound) (hi : m.handles[i]? = some h)
    (hconn : h.conn = some conn) (hnone : h.utpSock = none)
    (hok : m.bindAcceptor i h conn = .ok m') : m'.Sound := by
  obtain ⟨slot, hslot, rfl⟩ := hm.live conn (alive_of_handle hi hconn)
  rw [Manager.bindAcceptor, hslot] at hok
  dsimp only at hok
  split at hok
  · cases hok
  · rename_i hacc
    cases hok
    refine hm.addSocket hslot rfl rfl rfl ?_ (fun s k' name _ _ hn => (by cases hn)) ?_ ?_ ?_
    · exact (hm.exact _ slot hslot).addListening hm.find?_numSockets
        (Option.not_isSome_iff_eq_none.mp hacc) rfl rfl rfl
    · exact (List.getElem?_set_self (List.getElem?_eq_some_iff.mp hi).1).trans (by rw [hconn])
    · exact fun j hji => List.getElem?_set_ne (fun heq => hji heq.symm)
    · intro g hg
      rw [hi] at hg
      cases hg
      exact hnone

theorem freshUtpPort_ne (hfresh : m.freshUtpPort u = true) (hk : m.sockets.find? s = some k)
    {name : Ip × UtpPort} (hname : k.name = some name) : name.2 ≠ u := by
  intro heq
  obtain ⟨hsocks, _⟩ := Bool.and_eq_true_iff.mp hfresh
  rw [Bool.not_eq_true', Bool.eq_false_iff] at hsocks
  apply hsocks
  rw [OrderedMap.any_iff]
  refine ⟨s, k, hk, ?_⟩
  rw [hname, Option.any_some]
  exact decide_eq_true heq

theorem Sound.bindConnector (hm : m.Sound) (hi : m.handles[i]? = some h)
    (hconn : h.conn = some conn) (hnone : h.utpSock = none) (hfresh : m.freshUtpPort u = true)
    {port : Port} (hok : m.bindConnector i h conn ip port u = .ok m') : m'.Sound := by
  obtain ⟨slot, hslot, rfl⟩ := hm.live conn (alive_of_handle hi hconn)
  rw [Manager.bindConnector, hslot] at hok
  dsimp only at hok
  split at hok
  · cases hok
    refine hm.addSocket hslot rfl rfl rfl ?_ (fun s k' name hk' hn' hn => ?_) ?_ ?_ ?_
    · exact (hm.exact _ slot hslot).addNamed hm.find?_numSockets rfl rfl port
    · cases hn
      exact freshUtpPort_ne hfresh hk' hn' rfl
    · exact (List.getElem?_set_self (List.getElem?_eq_some_iff.mp hi).1).trans (by rw [hconn])
    · exact fun j hji => List.getElem?_set_ne (fun heq => hji heq.symm)
    · intro g hg
      rw [hi] at hg
      cases hg
      exact hnone
  · cases hok

/-- The transport that the firewall finds is the one the datagram came through. -/
theorem Sound.accept_slot (hm : m.Sound) (hrecv : m.inRecv = some (conn, ip, u))
    (hpeer : m.hasPeer ip u = false) {found : Port × Slot ConnectionInfo}
    (hfound : m.connCache.entries.find? (fun e => (e.2.info.route ip u).isSome) = some found) :
    m.connCache.find? found.1 = some found.2 ∧ found.2.conn = conn := by
  have hmem := List.mem_of_find?_eq_some hfound
  have hslot : m.connCache.find? found.1 = some found.2 := m.connCache.mem_entries_iff.mp hmem
  refine ⟨hslot, ?_⟩
  have hroute := List.find?_some hfound
  rcases (hm.exact _ _ hslot).routed.mp hroute with hnamed | hr
  · obtain ⟨s, k, hk, _, hname⟩ := named_iff.mp hnamed
    rw [hasPeer, Bool.eq_false_iff] at hpeer
    exact absurd ((OrderedMap.any_iff _ _).mpr ⟨s, k, hk, decide_eq_true hname⟩) hpeer
  · rw [recvOn_some hrecv] at hr
    split at hr
    · rename_i heq
      exact heq.symm
    · cases hr

theorem Sound.accept (hm : m.Sound) (hrecv : m.inRecv = some (conn, ip, u))
    (hpeer : m.hasPeer ip u = false) (hok : m.accept ip u = .ok m') : m'.Sound := by
  rw [Manager.accept] at hok
  cases hfound : m.connCache.entries.find? (fun e => (e.2.info.route ip u).isSome) with
  | none =>
    rw [hfound] at hok
    cases hok
  | some found =>
    rw [hfound] at hok
    obtain ⟨hslot, _⟩ := hm.accept_slot hrecv hpeer hfound
    dsimp only at hok
    split at hok
    · cases hok
      exact hm
    · split at hok
      · cases hok
        refine hm.addSocket hslot rfl rfl rfl ?_ (fun s k' name hk' hn' hn => ?_) ?_ ?_ ?_
        · exact (hm.exact _ _ hslot).addNamed hm.find?_numSockets rfl rfl _
        · cases hn
          rw [hasPeer, Bool.eq_false_iff] at hpeer
          exact hpeer ((OrderedMap.any_iff _ _).mpr ⟨s, k', hk', decide_eq_true hn'⟩)
        · rw [List.getElem?_append_right (Nat.le_refl _), Nat.sub_self]
          rfl
        · intro j hji
          rw [List.getElem?_append]
          split
          · rfl
          · rename_i hlt
            rw [List.getElem?_eq_none (Nat.le_of_not_lt hlt), List.getElem?_eq_none]
            rw [List.length_singleton]
            omega
        · intro g hg
          rw [List.getElem?_eq_none (Nat.le_refl _)] at hg
          cases hg
      · cases hok

theorem createTransport_some {name : Port} {bound : Option Port} {res : Option Conn}
    (hm : m.Sound) (hok : m.createTransport name bound = .ok (m', res)) :
    m'.Sound ∧ m'.handles = m.handles ∧ m'.sockets = m.sockets ∧ m'.inRecv = m.inRecv ∧
      ∀ conn, res = some conn → m'.Cached conn := by
  cases h : m.toTransports.createTransport m.alive {} name bound with
  | none =>
    rw [Manager.createTransport, h] at hok
    cases hok
  | some r =>
    obtain ⟨heq, hsound, hcached⟩ := hm.createTransport h
    rw [heq] at hok
    cases hok
    exact ⟨hsound, rfl, rfl, rfl, hcached⟩

/-- A handle without a socket takes the transport that was made for it. -/
theorem Sound.setCreated (hm : m.Sound) (hi : m.handles[i]? = some h) (hnone : h.utpSock = none)
    {name : Port} {bound : Option Port} {m₁ : Manager} {res : Option Conn}
    (hcreate : m.createTransport name bound = .ok (m₁, res)) :
    Sound (m₁.setHandle i { h with conn := res }) ∧
      (m₁.setHandle i { h with conn := res }).handles[i]? = some { h with conn := res } := by
  obtain ⟨hm₁, hhandles, _, _, hcached⟩ := createTransport_some hm hcreate
  have hi₁ : m₁.handles[i]? = some h := by rw [hhandles, hi]
  exact ⟨hm₁.setFree hi₁ hnone hnone fun c hc => .inr (hcached c hc),
    List.getElem?_set_self (List.getElem?_eq_some_iff.mp hi₁).1⟩

theorem Sound.connectOn (hm : m.Sound) (hi : m.handles[i]? = some h) (hconn : h.conn = some conn)
    (hnone : h.utpSock = none) {env : ConnectEnv}
    (hfresh : env.random.all m.freshUtpPort = true) (hok : m.connectOn i h conn env = .ok m') :
    m'.Sound := by
  rw [Manager.connectOn] at hok
  split at hok
  · rename_i ip port u _ hrandom
    rw [hrandom] at hfresh
    exact hm.bindConnector hi hconn hnone hfresh hok
  · cases hok
    exact hm

theorem Sound.connect (hm : m.Sound) (hi : m.handles[i]? = some h) {env : ConnectEnv}
    (hfresh : env.random.all m.freshUtpPort = true) (hok : m.connect i h env = .ok m') :
    m'.Sound := by
  obtain ⟨hnone, hconnects⟩ := connect_ok hok
  cases hconnects with
  | bound hconn hok => exact hm.connectOn hi hconn hnone hfresh hok
  | failed _ hcreate => exact (createTransport_some hm hcreate).1
  | @created m₁ conn _ hcreate hok =>
    obtain ⟨_, _, hsockets, hrecv, _⟩ := createTransport_some hm hcreate
    obtain ⟨hset, hi₁⟩ := hm.setCreated hi hnone hcreate
    have hsame : (m₁.setHandle i { h with conn := some conn }).freshUtpPort = m.freshUtpPort := by
      funext u
      simp only [freshUtpPort, setHandle, hsockets, hrecv]
    exact hset.connectOn hi₁ rfl hnone (by rw [hsame, hfresh]) hok

theorem Sound.kill (hm : m.Sound) (hi : m.handles[i]? = some h) (hok : m.kill i h = .ok m') :
    m'.Sound := by
  rw [Manager.kill] at hok
  obtain ⟨m₁, hclose, rfl⟩ := map_eq_ok hok
  obtain ⟨hset, hclosing, hcached⟩ := hm.closeSock hi hclose {} rfl fun conn hc => by cases hc
  refine hset.setClosing fun conn hc => hcached conn ?_
  rcases List.mem_append.mp hc with hc | hc
  · exact hm.live conn (alive_of_handle hi (Option.mem_toList.mp hc))
  · exact hm.live conn (alive_iff.mpr (.inr (.inl (hclosing ▸ hc))))

theorem Sound.bind (hm : m.Sound) (hi : m.handles[i]? = some h) {name : Port}
    {bound : Option Port} (hok : m.bind i h name bound = .ok m') : m'.Sound := by
  obtain ⟨hconn, m₁, res, hcreate, rfl⟩ := bind_ok hok
  have hnone : h.utpSock = none := by
    cases hs : h.utpSock with
    | none => rfl
    | some s =>
      obtain ⟨k, _, _, hc⟩ := hm.bound i h s hi hs
      rw [hconn] at hc
      cases hc
  exact (hm.setCreated hi hnone hcreate).1

theorem step_sound (hm : m.Sound) (hstep : m.step e = some m') : m'.Sound := by
  obtain ⟨r, hcall, hok⟩ := step_cases hstep
  cases hcall with
  | createStreamSocket =>
    cases hok
    exact hm.addHandle
  | bind hi => exact hm.bind hi hok
  | listen hi =>
    rcases listen_ok hok with rfl | ⟨conn, hconn, hnone, hbind⟩
    · exact hm
    · exact hm.bindAcceptor hi hconn hnone hbind
  | connect hi hfresh => exact hm.connect hi hfresh hok
  | getPeerName =>
    obtain ⟨_, _, rfl⟩ := map_eq_ok hok
    exact hm
  | @error i h hi =>
    obtain ⟨m₁, hclose, rfl⟩ := map_eq_ok hok
    exact (hm.closeSock hi hclose { h with utpSock := none } rfl fun conn hc => hc).1
  | kill _ hi => exact hm.kill hi hok
  | recvBegin hslot hrecv halive =>
    cases hok
    exact hm.recvBegin hslot hrecv halive _
  | accept hrecv hpeer => exact hm.accept hrecv hpeer hok
  | recvEnd hrecv => exact hm.recvEnd hrecv hok
  | destroy hk hrecv hname hhandle =>
    obtain ⟨m₁, hok₁, hm₁⟩ := hm.destroy hk hrecv hname hhandle
    rw [hok₁] at hok
    cases hok
    exact hm₁
  | transportKilled =>
    cases hok
    exact hm.setClosing fun c hc =>
      hm.live c (alive_iff.mpr (.inr (.inl (List.mem_of_mem_erase hc))))
  | reap =>
    rw [hm.reap.1] at hok
    cases hok
    exact hm.reap.2

theorem run_sound (hrun : Run es m) : m.Sound :=
  exec_invariant (fun _ _ _ h hstep => step_sound h hstep) sound_init hrun

theorem Sound.createTransport_error (hm : m.Sound) {name : Port} {bound : Option Port}
    {a : Assertion} (h : m.createTransport name bound = .error a) : a = .found := by
  cases hc : m.toTransports.createTransport m.alive {} name bound with
  | none =>
    rw [Manager.createTransport, hc] at h
    exact (Except.error.inj h).symm
  | some r =>
    rw [(hm.createTransport hc).1] at h
    cases h

theorem Sound.bindAcceptor_error (hm : m.Sound) (hi : m.handles[i]? = some h)
    (hconn : h.conn = some conn) {a : Assertion} (herr : m.bindAcceptor i h conn = .error a) :
    a = .acceptorHandle := by
  obtain ⟨slot, hslot, _⟩ := hm.live conn (alive_of_handle hi hconn)
  rw [Manager.bindAcceptor, hslot] at herr
  dsimp only at herr
  split at herr
  · exact (Except.error.inj herr).symm
  · cases herr

theorem Sound.connectOn_ok (hm : m.Sound) (hi : m.handles[i]? = some h)
    (hconn : h.conn = some conn) (env : ConnectEnv) :
    ∃ m', m.connectOn i h conn env = .ok m' := by
  have halive := alive_of_handle hi hconn
  obtain ⟨slot, hslot, rfl⟩ := hm.live conn halive
  rw [Manager.connectOn]
  split
  · rw [Manager.bindConnector, hslot]
    dsimp only
    rw [if_pos halive]
    exact ⟨_, rfl⟩
  · exact ⟨m, rfl⟩

theorem Sound.connect_error (hm : m.Sound) (hi : m.handles[i]? = some h) {env : ConnectEnv}
    {a : Assertion} (herr : m.connect i h env = .error a) : a = .found ∨ a = .handle := by
  rw [Manager.connect] at herr
  split at herr
  · exact .inr (Except.error.inj herr).symm
  · rename_i hsome
    split at herr
    · rename_i conn hconn
      obtain ⟨m', hok⟩ := hm.connectOn_ok hi hconn env
      rw [hok] at herr
      cases herr
    · cases hcreate : m.createTransport 0 env.transport with
      | error b =>
        rw [hcreate] at herr
        cases herr
        exact .inl (hm.createTransport_error hcreate)
      | ok r =>
        obtain ⟨m₁, res⟩ := r
        rw [hcreate] at herr
        cases res with
        | none => cases herr
        | some conn =>
          have hnone : h.utpSock = none := Option.not_isSome_iff_eq_none.mp hsome
          obtain ⟨hset, hi₁⟩ := hm.setCreated hi hnone hcreate
          obtain ⟨m', hok⟩ := hset.connectOn_ok hi₁ rfl env
          have herr : (m₁.setHandle i { h with conn := some conn }).connectOn i
            { h with conn := some conn } conn env = .error a := herr
          rw [hok] at herr
          cases herr

theorem Sound.closeSock_ok (hm : m.Sound) (hi : m.handles[i]? = some h) :
    ∃ m', m.closeSock h = .ok m' := by
  rw [Manager.closeSock]
  cases hsock : h.utpSock with
  | none => exact ⟨m, rfl⟩
  | some s =>
    obtain ⟨k, hk, _, _⟩ := hm.bound i h s hi hsock
    obtain ⟨_, _, slot, hslot, hsc⟩ := hm.slot_of_handle hi hsock hk
    have hmem : s ∈ slot.info.utpSocks := ((hm.exact _ slot hslot).socks s).mpr ⟨k, hk, hsc.symm⟩
    simp only [hk]
    rw [unbind, hslot]
    dsimp only
    split
    · exact ⟨_, rfl⟩
    · exact ⟨_, rfl⟩

/-- The peer name of a handle's socket has a route. -/
theorem Sound.getMappedPeerPort_ok (hm : m.Sound) (hi : m.handles[i]? = some h)
    (hconn : h.conn = some conn) (hsock : h.utpSock = some s) (hk : m.sockets.find? s = some k)
    (hname : k.name = some (ip, u)) : ∃ port, m.getMappedPeerPort conn.port ip u = .ok port := by
  obtain ⟨_, hc, slot, hslot, hsc⟩ := hm.slot_of_handle hi hsock hk
  rw [hconn] at hc
  cases hc
  rw [(hm.ids s k hk).2.2] at hslot
  have hnamed := named_iff.mpr ⟨s, k, hk, hsc.symm, hname⟩
  obtain ⟨info, hinfo⟩ :=
    Option.isSome_iff_exists.mp ((hm.exact _ slot hslot).routed.mpr (.inl hnamed))
  refine ⟨info.port, ?_⟩
  rw [getMappedPeerPort, hslot, Option.bind_some, hinfo]

/-- The firewall finds the route of the datagram. -/
theorem Sound.accept_found (hm : m.Sound) (hrecv : m.inRecv = some (conn, ip, u)) :
    ∃ found, m.connCache.entries.find? (fun e => (e.2.info.route ip u).isSome) = some found := by
  rw [← Option.isSome_iff_exists, List.find?_isSome]
  obtain ⟨slot, hslot, rfl⟩ := hm.live conn (alive_iff.mpr (.inr (.inr ⟨_, hrecv, rfl⟩)))
  have hroute : (slot.info.route ip u).isSome = true := by
    rw [(hm.exact _ slot hslot).routed, recvOn_some hrecv, if_pos rfl]
    exact .inr rfl
  exact ⟨_, m.connCache.mem_entries_iff.mpr hslot, hroute⟩

theorem Sound.accept_ok (hm : m.Sound) (hrecv : m.inRecv = some (conn, ip, u))
    (hpeer : m.hasPeer ip u = false) : ∃ m', m.accept ip u = .ok m' := by
  have halive : m.alive conn = true := alive_iff.mpr (.inr (.inr ⟨_, hrecv, rfl⟩))
  obtain ⟨found, hfound⟩ := hm.accept_found hrecv
  obtain ⟨_, hfc⟩ := hm.accept_slot hrecv hpeer hfound
  rw [Manager.accept, hfound]
  dsimp only
  rw [hfc]
  split
  · exact ⟨_, rfl⟩
  · exact ⟨_, rfl⟩

/-- Nobody listens on the transport. -/
theorem Sound.accept_blocked (hm : m.Sound) (hrecv : m.inRecv = some (conn, ip, u))
    (hpeer : m.hasPeer ip u = false)
    (hacc : ∀ slot, m.connCache.find? conn.port = some slot → slot.info.acceptorHandle = none) :
    m.accept ip u = .ok m := by
  obtain ⟨found, hfound⟩ := hm.accept_found hrecv
  obtain ⟨hslot, hfc⟩ := hm.accept_slot hrecv hpeer hfound
  have hport := (hm.slots _ _ hslot).1
  rw [← hport, hfc] at hslot
  rw [Manager.accept, hfound]
  dsimp only
  rw [hacc _ hslot]
  rfl

theorem Sound.recvEnd_ok (hm : m.Sound) (hrecv : m.inRecv = some (conn, ip, u)) :
    ∃ m', m.recvEnd conn ip u = .ok m' := by
  obtain ⟨slot, hslot, _⟩ := hm.live conn (alive_iff.mpr (.inr (.inr ⟨_, hrecv, rfl⟩)))
  rw [Manager.recvEnd, hslot]
  exact ⟨_, rfl⟩

/-- The only assertions that can fail are about what the application does: a transport on a
port in use, a second listener on a transport, a handle that is bound or not bound. -/
theorem Sound.call_failed (hm : m.Sound) {a : Assertion}
    (hfailed : (m.call e).bind failed = some a) :
    a = .found ∨ a = .acceptorHandle ∨ a = .handle := by
  obtain ⟨r, hcall, hr⟩ := Option.bind_eq_some_iff.mp hfailed
  have herr := failed_eq_some hr
  cases call_cases hcall with
  | createStreamSocket => cases herr
  | bind =>
    rw [Manager.bind] at herr
    split at herr
    · exact .inr (.inr (Except.error.inj herr).symm)
    · exact .inl (hm.createTransport_error (map_eq_error herr))
  | listen hi =>
    rw [listen] at herr
    split at herr
    · rename_i conn hconn _
      split at herr
      · exact .inr (.inl (hm.bindAcceptor_error hi hconn herr))
      · cases herr
    · exact .inr (.inr (Except.error.inj herr).symm)
  | connect hi =>
    rcases hm.connect_error hi herr with hf | hh
    · exact .inl hf
    · exact .inr (.inr hh)
  | getPeerName hi hconn hsock hk hname =>
    obtain ⟨port, hok⟩ := hm.getMappedPeerPort_ok hi hconn hsock hk hname
    rw [hok] at herr
    cases herr
  | error hi =>
    obtain ⟨m', hok⟩ := hm.closeSock_ok hi
    rw [onError, hok] at herr
    cases herr
  | kill _ hi =>
    obtain ⟨m', hok⟩ := hm.closeSock_ok hi
    rw [Manager.kill, hok] at herr
    cases herr
  | recvBegin => cases herr
  | accept hrecv hpeer =>
    obtain ⟨m', hok⟩ := hm.accept_ok hrecv hpeer
    rw [hok] at herr
    cases herr
  | recvEnd hrecv =>
    obtain ⟨m', hok⟩ := hm.recvEnd_ok hrecv
    rw [hok] at herr
    cases herr
  | destroy hk hrecv hname hhandle =>
    obtain ⟨m', hok, _⟩ := hm.destroy hk hrecv hname hhandle
    rw [hok] at herr
    cases herr
  | transportKilled => cases herr
  | reap =>
    rw [hm.reap.1] at herr
    cases herr

/-- A route that is made and dropped again leaves nothing. -/
theorem dropRoute_setRoute {c : ConnectionInfo} (hc : c.NoEmptyPeer) (hnone : c.route ip u = none)
    {info : PortInfo} (hmtu : info.mtuDiscovery = false) :
    (c.setRoute ip u info).dropRoute ip u = c := by
  have hpm := c.getD_find? ip u
  rw [hnone] at hpm
  generalize hpeer : ((c.peers.find? ip).getD {}).portMap = pm at hpm
  have herase : (pm.insert u info).erase u = pm := by
    refine OrderedMap.ext_find? fun u' => ?_
    rw [OrderedMap.find?_erase]
    split
    · rename_i heq
      rw [heq, hpm]
    · rename_i hne
      rw [OrderedMap.find?_insert_of_ne _ hne]
  have hfind : (c.setRoute ip u info).peers.find? ip = some { portMap := pm.insert u info } := by
    rw [ConnectionInfo.setRoute, hpeer]
    exact OrderedMap.find?_insert_self _
  rw [ConnectionInfo.dropRoute_of_not hfind (OrderedMap.find?_insert_self _) hmtu]
  have hpeers : ((c.setRoute ip u info).eraseRoute ip { portMap := pm.insert u info } u).peers =
      c.peers := by
    refine OrderedMap.ext_find? fun ip' => ?_
    simp only [ConnectionInfo.eraseRoute, herase, ConnectionInfo.setRoute]
    by_cases hip : ip' = ip
    · subst hip
      cases hold : c.peers.find? ip' with
      | none =>
        rw [hold] at hpeer
        have hempty : pm.entries.isEmpty = true := by rw [← hpeer]; rfl
        rw [if_pos hempty, OrderedMap.find?_erase, if_pos rfl]
      | some peer =>
        rw [hold, Option.getD_some] at hpeer
        subst hpeer
        rw [if_neg (Bool.eq_false_iff.mp (hc ip' peer hold)), OrderedMap.find?_insert_self]
    · split
      · rw [OrderedMap.find?_erase_of_ne _ hip, OrderedMap.find?_insert_of_ne _ hip]
      · rw [OrderedMap.find?_insert_of_ne _ hip, OrderedMap.find?_insert_of_ne _ hip]
  show { c with peers := ((c.setRoute ip u info).eraseRoute ip _ u).peers } = c
  rw [hpeers]

/-- The state in which a datagram is received that has no route. -/
theorem Sound.recvEnd_recvBegin (hm : m.Sound) (hslot : m.connCache.find? port = some slot)
    (hrecv : m.inRecv = none) (hnone : slot.info.route ip u = none) (srcPort : Port) :
    (m.recvBegin port slot ip srcPort u).recvEnd slot.conn ip u = .ok m := by
  have hport := (hm.slots port slot hslot).1
  have hdrop : (slot.info.setRoute ip u { port := srcPort }).dropRoute ip u = slot.info :=
    dropRoute_setRoute (hm.exact port slot hslot).peers hnone rfl
  rw [Manager.recvEnd, hport, Manager.recvBegin, hnone]
  have hfind : ∀ c, (m.setInfo port slot c).connCache.find? port =
      some { slot with info := c } := fun c => OrderedMap.find?_insert_self _
  simp only [Option.getD_none, hfind, hdrop]
  have hcache : ∀ c, ((m.setInfo port slot c).setInfo port { slot with info := c }
      slot.info).connCache = m.connCache := by
    intro c
    refine OrderedMap.ext_find? fun port' => ?_
    simp only [setInfo, Transports.find?_setInfo]
    split
    · rename_i heq
      rw [heq, hslot]
    · rfl
  have hstate : ∀ c, { m with
      toTransports :=
        { connCache := ((m.setInfo port slot c).setInfo port { slot with info := c }
            slot.info).connCache
          created := m.created }
      inRecv := none } = m := by
    intro c
    rw [hcache, ← hrecv]
  exact congrArg Except.ok (hstate _)

/-- A datagram without a route, also one that libutp takes for a SYN while nobody listens on
the transport. -/
theorem Sound.unsolicited (hm : m.Sound) (hslot : m.connCache.find? port = some slot)
    (hrecv : m.inRecv = none) (halive : m.alive slot.conn = true)
    (hnone : slot.info.route ip u = none) (srcPort : Port) :
    exec step m [.recvBegin port ip srcPort u, .recvEnd] = some m ∧
      (slot.info.acceptorHandle = none → m.hasPeer ip u = false →
        exec step m [.recvBegin port ip srcPort u, .accept, .recvEnd] = some m) := by
  have hbegin : m.step (.recvBegin port ip srcPort u) =
      some (m.recvBegin port slot ip srcPort u) := by
    rw [step, call, hslot, Option.bind_some, hrecv, halive]
    rfl
  have hend : (m.recvBegin port slot ip srcPort u).step .recvEnd = some m := by
    show Option.bind (some ((m.recvBegin port slot ip srcPort u).recvEnd slot.conn ip u)) _ = _
    rw [hm.recvEnd_recvBegin hslot hrecv hnone srcPort]
    rfl
  constructor
  · rw [exec, hbegin, Option.bind_some, exec, hend, Option.bind_some]
    rfl
  · intro hacc hpeer
    have hblocked : (m.recvBegin port slot ip srcPort u).step .accept =
        some (m.recvBegin port slot ip srcPort u) := by
      have hsound := step_sound hm hbegin
      have hport := (hm.slots port slot hslot).1
      have hblock := hsound.accept_blocked (show _ = some (slot.conn, ip, u) from rfl) hpeer
        (fun slot' hs => by
          rw [hport, Manager.recvBegin] at hs
          rw [← Option.some.inj ((OrderedMap.find?_insert_self _).symm.trans hs)]
          exact hacc)
      show Option.bind (if m.hasPeer ip u = true then none else _) _ = _
      rw [hpeer]
      show Option.bind (some ((m.recvBegin port slot ip srcPort u).accept ip u)) _ = _
      rw [hblock]
      rfl
    rw [exec, hbegin, Option.bind_some, exec, hblocked, Option.bind_some, exec, hend,
      Option.bind_some]
    rfl

/-- The routes of a transport are the peer names of its sockets that do not listen. -/
structure RoutesMatch (m : Manager) (c : ConnectionInfo) : Prop where
  socks : ∀ s ∈ c.utpSocks, (m.sockets.find? s).isSome = true
  routes : ∀ ip u, (c.route ip u).isSome = true ↔
    ∃ s ∈ c.utpSocks, ∃ k, m.sockets.find? s = some k ∧ k.name = some (ip, u)
  unique : ∀ s ∈ c.utpSocks, ∀ s' ∈ c.utpSocks, ∀ k k' name, m.sockets.find? s = some k →
    m.sockets.find? s' = some k' → k.name = some name → k'.name = some name → s = s'
  mtuDiscovery : ∀ ip u info, c.route ip u = some info → info.mtuDiscovery = true
  peers : c.NoEmptyPeer

theorem Sound.routesMatch (hm : m.Sound) (hrecv : m.inRecv = none)
    (hslot : m.connCache.find? port = some slot) : m.RoutesMatch slot.info := by
  have hexact := hm.exact port slot hslot
  rw [recvOn_none hrecv] at hexact
  constructor
  · intro s hs
    obtain ⟨k, hk, _⟩ := (hexact.socks s).mp hs
    rw [hk]
    rfl
  · intro ip u
    rw [hexact.routed, named_iff]
    constructor
    · intro hnamed
      obtain ⟨s, k, hk, hconn, hname⟩ := hnamed.resolve_right (fun h => by cases h)
      exact ⟨s, (hexact.socks s).mpr ⟨k, hk, hconn⟩, k, hk, hname⟩
    · intro hsome
      obtain ⟨s, hs, k, hk, hname⟩ := hsome
      obtain ⟨k', hk', hconn⟩ := (hexact.socks s).mp hs
      cases hk.symm.trans hk'
      exact .inl ⟨s, k, hk, hconn, hname⟩
  · intro s _ s' _ k k' name hk hk' hname hname'
    exact hm.unique s s' k k' name hk hk' hname hname'
  · intro ip u info hroute
    have hmtu := hexact.routes ip u
    rw [hroute, expected] at hmtu
    split at hmtu
    · exact Option.some.inj hmtu
    · cases hmtu
  · exact hexact.peers

/-- Whatever is bound, received, accepted, closed and destroyed: between datagrams the routes
of every transport are those of its sockets, the assertions about routes hold, and a datagram
that belongs to no socket and makes none leaves the manager as it was. -/
theorem routes_match_sockets {es : List Event} (hrun : Run es m) :
    (m.inRecv = none → ∀ port slot, m.connCache.find? port = some slot →
      m.RoutesMatch slot.info) ∧
    (∀ e a, (m.call e).bind failed = some a → a ≠ .route ∧ a ≠ .staleRoute) ∧
    ∀ port slot ip u, m.inRecv = none → m.connCache.find? port = some slot →
      m.alive slot.conn = true → slot.info.route ip u = none → ∀ srcPort,
        exec step m [.recvBegin port ip srcPort u, .recvEnd] = some m ∧
        (slot.info.acceptorHandle = none → m.hasPeer ip u = false →
          exec step m [.recvBegin port ip srcPort u, .accept, .recvEnd] = some m) := by
  have hm := run_sound hrun
  refine ⟨fun hrecv port slot hslot => hm.routesMatch hrecv hslot, ?_, ?_⟩
  · intro e a hfailed
    have hcases := hm.call_failed hfailed
    constructor
    · rintro rfl
      simp at hcases
    · rintro rfl
      simp at hcases
  · intro port slot ip u hrecv hslot halive hnone srcPort
    exact hm.unsolicited hslot hrecv halive hnone srcPort

/-- A peer is accepted and another one is connected to; both handles are killed, and libutp
destroys the first socket. A late datagram of the first peer finds no route. -/
theorem routes_match_sockets_destroy :
    let es : List Event := [.createStreamSocket, .createStreamSocket, .bind 0 50 (some 0),
      .bind 1 50 none, .listen 0 true, .recvBegin 50 9 100 7, .accept, .recvEnd,
      .connect 1 { resolved := some (9, 200), random := some 8 }, .kill 2, .kill 1, .destroy 1]
    ∃ m, Run es m ∧ ∃ slot, m.connCache.find? 50 = some slot ∧
      slot.info.utpSocks.length = 2 ∧ m.RoutesMatch slot.info ∧
      exec step m [.recvBegin 50 9 101 7, .recvEnd] = some m ∧
      ∀ e a, (m.call e).bind failed = some a → a ≠ .route := by
  intro es
  obtain ⟨m, hrun, hrecv, hfound⟩ : ∃ m, Run es m ∧ (m.inRecv = none ∧
      (m.connCache.find? 50).any (fun slot => slot.info.utpSocks.length = 2 &&
        m.alive slot.conn && (slot.info.route 9 7).isNone) = true) :=
    exec_check (by decide +kernel)
  obtain ⟨slot, hslot, hinfo⟩ := (Option.any_eq_true _ _).mp hfound
  simp only [Bool.and_eq_true, decide_eq_true_eq, Option.isNone_iff_eq_none] at hinfo
  obtain ⟨hmatch, hassert, hdatagram⟩ := routes_match_sockets hrun
  exact ⟨m, hrun, slot, hslot, hinfo.1.1, hmatch hrecv 50 slot hslot,
    (hdatagram 50 slot 9 7 hrecv hslot hinfo.1.2 hinfo.2 101).1,
    fun e a hfailed => (hassert e a hfailed).1⟩

end Manager

end DTun.Util.Utp
