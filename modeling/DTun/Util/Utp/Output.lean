import DTun.Util.Utp.Table

/-!
# Where the UTP manager sends the packets of a socket

`utpSendToFunc` goes by the local port in the user data of the socket and takes the transport
that has it by then. `Own` says that it is the one the socket was bound on. There the route of
the peer is in place as long as the socket is, so that what is left to know of it is that its
port is not 0.
-/

namespace DTun.Util.Utp

open Lib (OrderedMap)
open Lib.Calls Lib.Runs

namespace ConnectionInfo

variable {c c' : ConnectionInfo} {ip : Ip} {u : UtpPort}

/-- Routes lead to ports. -/
def Ported (c : ConnectionInfo) : Prop := ∀ ip u info, c.route ip u = some info → info.port ≠ 0

theorem Ported.sub (h : c.Ported)
    (hsub : ∀ ip u info, c'.route ip u = some info → c.route ip u = some info) : c'.Ported :=
  fun ip u info hroute => h ip u info (hsub ip u info hroute)

theorem Ported.setRoute (h : c.Ported) {new : PortInfo} (hport : new.port ≠ 0) (ip : Ip)
    (u : UtpPort) : (c.setRoute ip u new).Ported := by
  intro ip' u' info hroute
  rw [route_setRoute] at hroute
  split at hroute
  · cases hroute
    exact hport
  · exact h ip' u' info hroute

theorem Ported.eraseRoute (h : c.Ported) {peer : PeerInfo} (hfind : c.peers.find? ip = some peer)
    (u : UtpPort) : (c.eraseRoute ip peer u).Ported := by
  refine h.sub fun ip' u' info hroute => ?_
  rw [route_eraseRoute hfind] at hroute
  split at hroute
  · cases hroute
  · exact hroute

theorem Ported.removeUtpSock (h : c.Ported) {s : Nat} {name : Option (Ip × UtpPort)}
    (hok : c.removeUtpSock s name = .ok c') : c'.Ported := by
  rw [ConnectionInfo.removeUtpSock] at hok
  split at hok
  · cases hok
    exact h
  · dsimp only at hok
    have herased : ({ c with utpSocks := c.utpSocks.erase s } : ConnectionInfo).Ported := h
    split at hok
    · cases hok
    · split at hok
      · cases hok
      · rename_i hpeer
        split at hok
        · cases hok
          exact herased.eraseRoute hpeer _
        · cases hok

/-- A peer without routes may be there for the while. -/
theorem Ported.dropRoute (h : c.Ported) (ip : Ip) (u : UtpPort) : (c.dropRoute ip u).Ported := by
  cases hpeer : c.peers.find? ip with
  | none =>
    refine h.sub fun ip' u' info hroute => ?_
    simp only [ConnectionInfo.dropRoute, hpeer, Option.getD_none] at hroute
    rw [if_neg (by simp), route, OrderedMap.find?_insert] at hroute
    split at hroute
    · cases hroute
    · exact hroute
  | some peer =>
    simp only [ConnectionInfo.dropRoute, hpeer, Option.getD_some]
    split
    · exact h.eraseRoute hpeer u
    · refine h.sub fun ip' u' info hroute => ?_
      rw [route, OrderedMap.find?_insert] at hroute
      split at hroute
      · rename_i heq
        rw [heq, route_of_find? hpeer]
        exact hroute
      · exact hroute

end ConnectionInfo

namespace Manager

variable {m m' : Manager} {e : Event} {es : List Event} {i : Nat} {h : Handle} {conn : Conn}
  {slot : Slot ConnectionInfo} {port : Port} {s : Nat} {k : Socket} {ip : Ip} {u : UtpPort}

/-- The local port of every socket leads to the transport it was bound on, as long as there is
one, and no route leads to port 0. -/
structure Own (m : Manager) : Prop where
  own : ∀ s k slot, m.sockets.find? s = some k → m.connCache.find? k.localPort = some slot →
    slot.conn = k.conn
  ports : ∀ port slot, m.connCache.find? port = some slot → slot.info.Ported

/-- Transports stay or go, and a socket is an old one or is bound on a transport that is
there. -/
theorem Own.change (hown : m.Own)
    (hsock : ∀ s k, m'.sockets.find? s = some k →
      (∃ k', m.sockets.find? s = some k' ∧ k'.conn = k.conn ∧ k'.localPort = k.localPort) ∨
        ∃ slot, m.connCache.find? k.localPort = some slot ∧ slot.conn = k.conn)
    (hslot : ∀ port slot', m'.connCache.find? port = some slot' → ∃ slot,
      m.connCache.find? port = some slot ∧ slot'.conn = slot.conn ∧
        (slot.info.Ported → slot'.info.Ported)) : m'.Own where
  own := by
    intro s k slot' hk hs'
    obtain ⟨slot, hs, hconn, _⟩ := hslot _ slot' hs'
    rw [hconn]
    rcases hsock s k hk with ⟨k', hk', hkc, hkp⟩ | ⟨slot₀, hs₀, hsc⟩
    · rw [← hkc]
      exact hown.own s k' slot hk' (hkp ▸ hs)
    · rw [hs] at hs₀
      cases hs₀
      exact hsc
  ports := by
    intro port slot' hs'
    obtain ⟨slot, hs, _, hports⟩ := hslot port slot' hs'
    exact hports (hown.ports port slot hs)

theorem slot_setInfo (hslot : m.connCache.find? port = some slot) {c : ConnectionInfo}
    (hc : slot.info.Ported → c.Ported) (port' : Port) (slot' : Slot ConnectionInfo)
    (hs : (m.setInfo port slot c).connCache.find? port' = some slot') :
    ∃ s, m.connCache.find? port' = some s ∧ slot'.conn = s.conn ∧
      (s.info.Ported → slot'.info.Ported) := by
  rcases Transports.find?_setInfo_cases hs with ⟨rfl, rfl⟩ | ⟨_, hs⟩
  · exact ⟨slot, hslot, rfl, hc⟩
  · exact ⟨slot', hs, rfl, id⟩

theorem Own.setInfo (hown : m.Own) (hslot : m.connCache.find? port = some slot)
    {c : ConnectionInfo} (hc : slot.info.Ported → c.Ported) : (m.setInfo port slot c).Own :=
  hown.change (fun _ k hk => .inl ⟨k, hk, rfl, rfl⟩) (slot_setInfo hslot hc)

/-- A new socket of a transport, which may have a new route. -/
theorem Own.addSocket (hown : m.Own) (hslot : m.connCache.find? port = some slot)
    {c : ConnectionInfo} (hc : slot.info.Ported → c.Ported) (hport : k.localPort = port)
    (hconn : k.conn = slot.conn) : ((m.setInfo port slot c).addSocket k).Own := by
  refine hown.change (fun s k' hk' => ?_) (slot_setInfo hslot hc)
  have hk' : (m.sockets.insert m.numSockets k).find? s = some k' := hk'
  rw [OrderedMap.find?_insert] at hk'
  split at hk'
  · cases hk'
    exact .inr ⟨slot, by rw [hport, hslot], hconn.symm⟩
  · exact .inl ⟨k', hk', rfl, rfl⟩

theorem Own.eraseSocket (hown : m.Own) (s : Nat) : Own { m with sockets := m.sockets.erase s } :=
  hown.change (fun _ k hk => .inl ⟨k, OrderedMap.find?_of_erase _ hk, rfl, rfl⟩)
    fun _ slot hs => ⟨slot, hs, rfl, id⟩

theorem Own.shrink (hown : m.Own) {cache : OrderedMap Port (Slot ConnectionInfo)}
    (hshrunk : Transports.Shrunk m.alive m.connCache cache) :
    Own { m with connCache := cache } :=
  hown.change (fun _ k hk => .inl ⟨k, hk, rfl, rfl⟩)
    fun port slot hs => ⟨slot, hshrunk.sub port slot hs, rfl, id⟩

/-- A socket that loses its handle. -/
theorem Own.detach (hown : m.Own) (hk : m.sockets.find? s = some k) :
    Own { m with sockets := m.sockets.insert s { k with handle := none } } := by
  refine hown.change (fun s' k' hk' => .inl ?_) fun _ slot hs => ⟨slot, hs, rfl, id⟩
  have hk' : (m.sockets.insert s { k with handle := none }).find? s' = some k' := hk'
  rw [OrderedMap.find?_insert] at hk'
  split at hk'
  · rename_i heq
    cases hk'
    exact ⟨k, by rw [heq, hk], rfl, rfl⟩
  · exact ⟨k', hk', rfl, rfl⟩

theorem Own.closeSock (hown : m.Own) (hok : m.closeSock h = .ok m') : m'.Own := by
  rw [Manager.closeSock] at hok
  split at hok
  · cases hok
    exact hown
  · rename_i s _
    split at hok
    · cases hok
    · rename_i k hk
      rw [unbind] at hok
      split at hok
      · cases hok
      · rename_i slot hslot
        split at hok
        · split at hok
          · cases hok
            have hset : (m.setInfo k.localPort slot { slot.info with
                acceptorHandle := none
                utpSocks := slot.info.utpSocks.erase s }).Own :=
              hown.setInfo hslot fun hports => hports
            exact hset.eraseSocket s
          · cases hok
        · cases hok
          exact hown.detach hk

/-- The transport of a handle is the one under its port. -/
theorem Sound.slot_conn (hm : m.Sound) (hi : m.handles[i]? = some h) (hconn : h.conn = some conn)
    (hslot : m.connCache.find? conn.port = some slot) : slot.conn = conn :=
  (hm.live conn (alive_of_handle hi hconn)).slot_eq hslot

theorem Own.bindAcceptor (hown : m.Own) (hm : m.Sound) (hi : m.handles[i]? = some h)
    (hconn : h.conn = some conn) (hok : m.bindAcceptor i h conn = .ok m') : m'.Own := by
  rw [Manager.bindAcceptor] at hok
  split at hok
  · cases hok
  · rename_i slot hslot
    split at hok
    · cases hok
    · cases hok
      have hadd := hown.addSocket (k := ⟨none, conn.port, some i, conn⟩) hslot
        (c := { slot.info with
          acceptorHandle := some i
          utpSocks := m.numSockets :: slot.info.utpSocks })
        (fun hports => hports) rfl (hm.slot_conn hi hconn hslot).symm
      exact ⟨hadd.own, hadd.ports⟩

theorem Own.bindConnector (hown : m.Own) (hm : m.Sound) (hi : m.handles[i]? = some h)
    (hconn : h.conn = some conn) (hport : port ≠ 0)
    (hok : m.bindConnector i h conn ip port u = .ok m') : m'.Own := by
  rw [Manager.bindConnector] at hok
  split at hok
  · cases hok
  · rename_i slot hslot
    split at hok
    · cases hok
      have hadd := hown.addSocket (k := ⟨some (ip, u), conn.port, some i, conn⟩) hslot
        (c := { slot.info.setRoute ip u { port := port, mtuDiscovery := true } with
          utpSocks := m.numSockets :: slot.info.utpSocks })
        (fun hports => hports.setRoute hport ip u) rfl (hm.slot_conn hi hconn hslot).symm
      exact ⟨hadd.own, hadd.ports⟩
    · cases hok

theorem Own.accept (hown : m.Own) (hok : m.accept ip u = .ok m') : m'.Own := by
  rw [Manager.accept] at hok
  split at hok
  · cases hok
  · rename_i port slot hfound
    have hslot := m.connCache.mem_entries_iff.mp (List.mem_of_find?_eq_some hfound)
    obtain ⟨info, hinfo⟩ : ∃ info, slot.info.route ip u = some info :=
      Option.isSome_iff_exists.mp (by simpa using List.find?_some hfound)
    split at hok
    · cases hok
      exact hown
    · split at hok
      · cases hok
        have hadd := hown.addSocket
          (k := ⟨some (ip, u), port, some m.handles.length, slot.conn⟩) hslot
          (c := { slot.info.setRoute ip u
              { (slot.info.route ip u).getD { port := 0 } with mtuDiscovery := true } with
            utpSocks := m.numSockets :: slot.info.utpSocks })
          (fun hports => hports.setRoute (by rw [hinfo]; exact hports ip u info hinfo) ip u)
          rfl rfl
        exact ⟨hadd.own, hadd.ports⟩
      · cases hok

/-- No socket without a handle has the local port. -/
def portLeft (m : Manager) (port : Port) : Bool :=
  !(m.sockets.any fun _ k => k.handle.isNone && k.localPort = port)

/-- No new transport on the port of a socket that no handle has any more. Datagrams come from
a port and connections go to one. -/
def Separate (m : Manager) : Event → Prop
  | .bind _ name bound => (m.openedPort m.alive name bound).all m.portLeft = true
  | .connect i env => ((m.handles[i]?).all fun h => env.resolved.all (fun addr => addr.2 ≠ 0) &&
      (h.conn.isSome || (m.openedPort m.alive 0 env.transport).all m.portLeft)) = true
  | .recvBegin _ _ srcPort _ => srcPort ≠ 0
  | _ => True

instance (m : Manager) (e : Event) : Decidable (m.Separate e) :=
  match e with
  | .bind .. | .connect .. => inferInstanceAs (Decidable (_ = true))
  | .recvBegin .. => inferInstanceAs (Decidable (_ ≠ _))
  | .createStreamSocket | .listen .. | .getPeerName .. | .error .. | .kill .. | .accept
  | .recvEnd | .destroy .. | .transportKilled .. | .reap => inferInstanceAs (Decidable True)

theorem localPort_ne (hleft : m.portLeft port = true) (hk : m.sockets.find? s = some k)
    (hhandle : k.handle = none) : k.localPort ≠ port := by
  intro heq
  rw [portLeft, Bool.not_eq_true', Bool.eq_false_iff, ne_eq, OrderedMap.any_iff] at hleft
  exact hleft ⟨s, k, hk, by rw [hhandle, decide_eq_true heq]; rfl⟩

theorem Own.createTransport (hown : m.Own) (hm : m.Sound) {name : Port} {bound : Option Port}
    {res : Option Conn} (hleft : (m.openedPort m.alive name bound).all m.portLeft = true)
    (hok : m.createTransport name bound = .ok (m', res)) : m'.Own := by
  cases hr : m.toTransports.createTransport m.alive {} name bound with
  | none =>
    rw [Manager.createTransport, hr] at hok
    cases hok
  | some r =>
    rw [(hm.createTransport hr).1] at hok
    cases hok
    constructor
    · intro s k slot hk hs
      rcases Transports.createTransport_slots hr hs with hold | ⟨hopened, _, hdead⟩
      · exact hown.own s k slot hk hold
      · cases hhandle : k.handle with
        | none =>
          rw [hopened, Option.all_some] at hleft
          exact absurd rfl (localPort_ne hleft hk hhandle)
        | some i =>
          -- the handle of the socket holds the transport
          obtain ⟨g, hg, hgs⟩ := hm.handled s k i hk hhandle
          obtain ⟨k', hk', _, hconn⟩ := hm.bound i g s hg hgs
          cases hk.symm.trans hk'
          have halive := alive_of_handle hg hconn
          obtain ⟨old, hold, hoc⟩ := hm.live k.conn halive
          rw [(hm.ids s k hk).2.2] at hdead
          rw [← hoc, hdead old hold] at halive
          cases halive
    · intro port slot hs
      rcases Transports.createTransport_slots hr hs with hold | ⟨_, hfresh, _⟩
      · exact hown.ports port slot hold
      · rw [hfresh]
        exact fun ip u info hroute => by cases hroute

theorem Own.connectOn (hown : m.Own) (hm : m.Sound) (hi : m.handles[i]? = some h)
    (hconn : h.conn = some conn) {env : ConnectEnv}
    (hport : env.resolved.all (fun addr => addr.2 ≠ 0) = true)
    (hok : m.connectOn i h conn env = .ok m') : m'.Own := by
  rw [Manager.connectOn] at hok
  split at hok
  · rename_i ip port u hresolved _
    rw [hresolved] at hport
    exact hown.bindConnector hm hi hconn (of_decide_eq_true hport) hok
  · cases hok
    exact hown

theorem Own.connect (hown : m.Own) (hm : m.Sound) (hi : m.handles[i]? = some h)
    {env : ConnectEnv} (hport : env.resolved.all (fun addr => addr.2 ≠ 0) = true)
    (hleft : h.conn = none → (m.openedPort m.alive 0 env.transport).all m.portLeft = true)
    (hok : m.connect i h env = .ok m') : m'.Own := by
  obtain ⟨hnone, hconnects⟩ := connect_ok hok
  cases hconnects with
  | bound hconn hok => exact hown.connectOn hm hi hconn hport hok
  | failed hconn hcreate => exact hown.createTransport hm (hleft hconn) hcreate
  | @created m₁ conn hconn hcreate hok =>
    have hown₁ := hown.createTransport hm (hleft hconn) hcreate
    obtain ⟨hset, hi₁⟩ := hm.setCreated hi hnone hcreate
    have hownset : Own (m₁.setHandle i { h with conn := some conn }) := ⟨hown₁.own, hown₁.ports⟩
    exact hownset.connectOn hset hi₁ rfl hport hok

theorem Own.destroy (hown : m.Own) (hok : m.destroy s k = .ok m') : m'.Own := by
  rw [Manager.destroy] at hok
  split at hok
  · cases hok
    exact hown.eraseSocket s
  · rename_i slot hslot
    obtain ⟨c, hremove, rfl⟩ := map_eq_ok hok
    have hset : (m.setInfo k.localPort slot c).Own :=
      hown.setInfo hslot fun hports => hports.removeUtpSock hremove
    exact hset.eraseSocket s

theorem step_own (hm : m.Sound) (hown : m.Own) (hsep : m.Separate e)
    (hstep : m.step e = some m') : m'.Own := by
  obtain ⟨r, hcall, hok⟩ := step_cases hstep
  cases hcall with
  | createStreamSocket =>
    cases hok
    exact ⟨hown.own, hown.ports⟩
  | bind =>
    obtain ⟨-, m₁, res, hcreate, rfl⟩ := bind_ok hok
    have hown₁ := hown.createTransport hm hsep hcreate
    exact ⟨hown₁.own, hown₁.ports⟩
  | listen hi =>
    rcases listen_ok hok with rfl | ⟨conn, hconn, -, hbind⟩
    · exact hown
    · exact hown.bindAcceptor hm hi hconn hbind
  | connect hi =>
    rw [Separate, hi, Option.all_some, Bool.and_eq_true, Bool.or_eq_true] at hsep
    refine hown.connect hm hi hsep.1 (fun hconn => ?_) hok
    exact hsep.2.resolve_left (by simp [hconn])
  | getPeerName =>
    obtain ⟨_, _, rfl⟩ := map_eq_ok hok
    exact hown
  | error =>
    obtain ⟨m₁, hclose, rfl⟩ := map_eq_ok hok
    have hown₁ := hown.closeSock hclose
    exact ⟨hown₁.own, hown₁.ports⟩
  | kill =>
    obtain ⟨m₁, hclose, rfl⟩ := map_eq_ok hok
    have hown₁ := hown.closeSock hclose
    exact ⟨hown₁.own, hown₁.ports⟩
  | @recvBegin port slot ip srcPort u hslot =>
    cases hok
    have hsrc : srcPort ≠ 0 := hsep
    have hset : (m.setInfo port slot (slot.info.setRoute ip u
        { (slot.info.route ip u).getD { port := srcPort } with port := srcPort })).Own :=
      hown.setInfo hslot fun hports => hports.setRoute hsrc ip u
    exact ⟨hset.own, hset.ports⟩
  | accept => exact hown.accept hok
  | @recvEnd conn ip u =>
    rw [recvEnd] at hok
    split at hok
    · cases hok
    · rename_i slot hslot
      cases hok
      have hset : (m.setInfo conn.port slot (slot.info.dropRoute ip u)).Own :=
        hown.setInfo hslot fun hports => hports.dropRoute ip u
      exact ⟨hset.own, hset.ports⟩
  | destroy => exact hown.destroy hok
  | transportKilled =>
    cases hok
    exact ⟨hown.own, hown.ports⟩
  | reap =>
    rw [hm.reap.1] at hok
    cases hok
    exact hown.shrink (Transports.shrunk_reap m.toTransports m.alive)

theorem own_init : Own {} where
  own := fun s k slot hk => by cases hk
  ports := fun port slot hs => by cases hs

theorem run_own (hsep : Along step Separate {} es) (hrun : Run es m) : m.Sound ∧ m.Own :=
  exec_invariant_along (I := fun m => m.Sound ∧ m.Own)
    (fun _ _ _ h hsep hstep => ⟨step_sound h.1 hstep, step_own h.1 h.2 hsep hstep⟩)
    ⟨sound_init, own_init⟩ hsep hrun

/-- What becomes of a packet of the socket to its peer: it is dropped, or it goes through the
transport that the socket was bound on, to the UDP port that the transport has for the peer. -/
def SendsOwn (m : Manager) (k : Socket) (ip : Ip) (u : UtpPort) : Prop :=
  m.utpSendToFunc (some k) ip u = .ok none ∨
    ∃ slot info, m.connCache.find? k.conn.port = some slot ∧ slot.conn = k.conn ∧
      slot.info.route ip u = some info ∧ info.port ≠ 0 ∧
      m.utpSendToFunc (some k) ip u = .ok (some (k.conn, ip, info.port))

theorem Own.sends (hown : m.Own) (hm : m.Sound) (hk : m.sockets.find? s = some k)
    (hname : k.name = some (ip, u)) : m.SendsOwn k ip u := by
  have hport := (hm.ids s k hk).2.2
  rw [SendsOwn, utpSendToFunc, sendPort, Option.bind_some, ← hport]
  cases hslot : m.connCache.find? k.localPort with
  | none => exact .inl rfl
  | some slot =>
    have hconn := hown.own s k slot hk hslot
    have hexact := hm.exact _ slot hslot
    have hnamed : (slot.info.route ip u).isSome = true := by
      rw [hexact.routed]
      exact .inl (named_iff.mpr ⟨s, k, hk, hconn.symm, hname⟩)
    obtain ⟨info, hinfo⟩ := Option.isSome_iff_exists.mp hnamed
    have hne := hown.ports _ slot hslot ip u info hinfo
    dsimp only
    split
    · refine .inr ⟨slot, info, rfl, hconn, hinfo, hne, ?_⟩
      rw [hinfo, Option.map_some, Option.getD_some, if_neg hne, hconn]
    · exact .inl rfl

end Manager

end DTun.Util.Utp
