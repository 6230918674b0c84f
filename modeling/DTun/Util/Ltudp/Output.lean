import DTun.Util.Ltudp.Handles

/-!
# Where the LTUDP manager sends the segments of a pcb

`netifOutputFunc` knows the TCP port a segment comes from and looks for the transport anew:
`localPortMap_` leads to a UDP port, and the segment goes through whatever transport has that
port by then. `Own` says that this is the transport the pcb was bound on and that the peer of
the pcb has a UDP port there. The handles look after the pcbs they have. A pcb that lwIP goes
on sending for without a handle depends on what happens to the transport meanwhile.
-/

namespace DTun.Util.Ltudp

open Lib (OrderedMap)
open Lib.Calls Lib.Runs

namespace ConnectionInfo

variable {c c' : ConnectionInfo} {ip ip' : Ip} {key port : Port} {d : Datagram}

/-- A segment to the TCP port has a UDP port to go to. -/
def Mapped (c : ConnectionInfo) (ip : Ip) (key : Port) : Prop :=
  ∃ info, c.mapping ip key = some info ∧ info.port ≠ 0

theorem mapped_of_actualPort (h : c.actualPort ip key ≠ 0) : c.Mapped ip key := by
  rw [actualPort] at h
  split at h
  · rename_i info hinfo
    exact ⟨info, hinfo, h⟩
  · exact absurd rfl h

theorem Mapped.congr (h : c.Mapped ip key) (hpeers : c'.peers = c.peers) : c'.Mapped ip key := by
  rw [Mapped, mapping, hpeers]
  exact h

/-- Entries of one peer become others. -/
theorem Mapped.setPeer (h : c.Mapped ip key) {peer : PeerInfo}
    (hpeer : ip = ip' → ∀ info, c.mapping ip' key = some info → info.port ≠ 0 →
      ∃ info', peer.portMap.find? key = some info' ∧ info'.port ≠ 0) :
    (c.setPeer ip' peer).Mapped ip key := by
  obtain ⟨info, hinfo, hport⟩ := h
  rw [Mapped, mapping_setPeer]
  split
  · rename_i heq
    exact hpeer heq info (heq ▸ hinfo) hport
  · exact ⟨info, hinfo, hport⟩

/-- A changed entry that has a UDP port, next to those there were. -/
theorem Mapped.setPeer_insert (h : c.Mapped ip key) {portMap rev : PortMap} {k : Port}
    {new : PortInfo} (hnew : key = k → ∀ info, c.mapping ip' key = some info → info.port ≠ 0 →
      new.port ≠ 0)
    (hmap : ip = ip' → key ≠ k → ∀ info, c.mapping ip' key = some info →
      portMap.find? key = some info) :
    (c.setPeer ip' { portMap := portMap.insert k new, revPortMap := rev }).Mapped ip key := by
  refine h.setPeer fun hip info hinfo hport => ?_
  rw [OrderedMap.find?_insert]
  split
  · rename_i heq
    exact ⟨new, rfl, hnew heq info hinfo hport⟩
  · rename_i hne
    exact ⟨info, hmap hip hne info hinfo, hport⟩

theorem Mapped.pcbConnect (h : c.Mapped ip key) {k : Port}
    (hok : c.pcbConnect ip' port = .ok (c', k)) : c'.Mapped ip key := by
  obtain ⟨_, _, _, rfl, _⟩ := pcbConnect_ok hok
  have hconn := PeerInfo.connected ((c.peers.find? ip').getD {}) port
  generalize ((c.peers.find? ip').getD {}).connect port = r at hconn
  cases hconn with
  | busy _ =>
    refine h.setPeer fun _ info hinfo hport => ⟨info, ?_, hport⟩
    rw [c.getD_find?, hinfo]
  | joined hfind hport =>
    refine h.setPeer_insert (fun heq info hinfo hne => ?_) fun _ _ info hinfo => ?_
    · rw [c.getD_find?, ← heq, hinfo] at hfind
      cases hfind
      exact hne
    · rw [c.getD_find?, hinfo]
  | opened _ hfind _ =>
    refine h.setPeer_insert (fun heq info hinfo _ => ?_) fun _ _ info hinfo => ?_
    · rw [c.getD_find?, ← heq, hinfo] at hfind
      cases hfind
    · rw [c.getD_find?, hinfo]

/-- The peer that is connected to has a UDP port. -/
theorem mapped_pcbConnect (hok : c.pcbConnect ip port = .ok (c', key)) (hkey : key ≠ 0) :
    c'.Mapped ip key := by
  obtain ⟨_, hport, _, rfl, rfl⟩ := pcbConnect_ok hok
  have hconn := PeerInfo.connected ((c.peers.find? ip).getD {}) port
  generalize ((c.peers.find? ip).getD {}).connect port = r at hconn hkey
  rw [Mapped, mapping_setPeer, if_pos rfl]
  cases hconn with
  | busy _ => exact absurd rfl hkey
  | joined _ heq => exact ⟨_, OrderedMap.find?_insert_self _, by rw [← heq] at hport; exact hport⟩
  | opened _ _ _ => exact ⟨_, OrderedMap.find?_insert_self _, hport⟩

theorem Mapped.pcbDisconnect (h : c.Mapped ip key) {k : Port}
    (hok : c.pcbDisconnect ip' k = .ok c') : c'.Mapped ip key := by
  obtain ⟨_, peer, peer', hfind, hdis, rfl⟩ := pcbDisconnect_ok hok
  obtain ⟨old, hold, _, rfl⟩ := PeerInfo.disconnect_ok hdis
  refine h.setPeer_insert (fun heq info hinfo hne => ?_) fun _ _ info hinfo => ?_
  · rw [mapping_of_find? hfind, heq, hold] at hinfo
    cases hinfo
    exact hne
  · rw [← mapping_of_find? hfind, hinfo]

/-- The key of the entry that a datagram takes the UDP port from. -/
def takenKey (c : ConnectionInfo) (d : Datagram) : Option Port :=
  (c.peers.find? d.srcIp).bind fun peer =>
    if !c.isAcceptor && peer.remaps d.srcPort d.src then
      (peer.portMap.first? (·.port = d.srcPort)).map Prod.fst
    else none

/-- The TCP port that the segment in a datagram is for. -/
def dstPort (c : ConnectionInfo) (d : Datagram) : Port :=
  if c.isAcceptor then c.acceptorLocalPort else d.dst

theorem onRecv_dst {seg : Segment} (h : c.onRecv d = .ok (c', some seg)) :
    seg.dst = c.dstPort d := by
  rw [onRecv] at h
  rw [dstPort]
  split at h
  · rename_i hrole
    cases h
    rw [if_pos hrole]
  · rename_i hrole
    rw [if_neg hrole]
    cases hfind : c.peers.find? d.srcIp with
    | none => rw [hfind] at h; cases h
    | some peer =>
      rw [hfind] at h
      obtain ⟨passed, _, hres⟩ := map_eq_ok h
      cases passed with
      | none => cases hres
      | some p =>
        cases hres
        rfl

theorem Mapped.received (h : c.Mapped ip key) (hrole : c.isAcceptor = false) {peer peer' : PeerInfo}
    {k : Port} (hfind : c.peers.find? d.srcIp = some peer)
    (hr : peer.Received d.srcPort d.src peer' k) (hsrc : d.srcPort ≠ 0)
    (htaken : ip = d.srcIp → c.takenKey d ≠ some key) :
    (c.setPeer d.srcIp peer').Mapped ip key := by
  have hmapping := mapping_of_find? hfind key
  cases hr with
  | same _ _ _ =>
    exact h.setPeer fun _ info hinfo hport => ⟨info, by rw [← hmapping, hinfo], hport⟩
  | fresh _ _ =>
    exact h.setPeer fun _ info hinfo hport => ⟨info, by rw [← hmapping, hinfo], hport⟩
  | moved _ _ _ _ =>
    exact h.setPeer_insert (fun _ _ _ _ => hsrc) fun _ _ info hinfo => by rw [← hmapping, hinfo]
  | taken hrev hinfo hport hfirst _ =>
    have hkey : ∀ tmpPort other, peer.portMap.first? (·.port = d.srcPort) = some (tmpPort, other) →
        c.takenKey d = some tmpPort := by
      intro tmpPort other hf
      rw [takenKey, hfind, Option.bind_some, hrole, if_pos, hf]
      · rfl
      · simp [PeerInfo.remaps, hrev, hinfo, hport]
    refine h.setPeer_insert (fun _ _ _ _ => hsrc) fun hip _ info hi => ?_
    rw [OrderedMap.find?_erase_of_ne, ← hmapping, hi]
    intro heq
    exact htaken hip (by rw [hkey _ _ hfirst, heq])

theorem Mapped.onRecv (h : c.Mapped ip key) {seg : Option Segment}
    (hok : c.onRecv d = .ok (c', seg)) (hsrc : d.srcPort ≠ 0)
    (htaken : ip = d.srcIp → c.takenKey d ≠ some key) : c'.Mapped ip key := by
  cases onRecv_change hok with
  | kept he => exact absurd rfl (he d)
  | cleared he => exact absurd rfl (he d)
  | learn _ =>
    refine h.setPeer_insert (fun _ _ _ _ => hsrc) fun _ _ info hinfo => ?_
    rw [c.getD_find?, hinfo]
  | ignored _ _ => exact h
  | received hrole hfind hr => exact h.received hrole hfind hr hsrc htaken

end ConnectionInfo

namespace Manager

variable {m m' : Manager} {e : Event} {es : List Event} {i : Nat} {h h' : Handle} {conn : Conn}
  {slot : Slot ConnectionInfo} {port tcpPort : Port} {leaked : Conn → Int} {pcb : Pcb}

/-- The pcbs that lwIP sends for and that no handle has. -/
def detached (m : Manager) : List Pcb := m.halfOpen ++ m.lingering

/-- The pcbs that lwIP sends for. -/
def pcbs (m : Manager) : List Pcb :=
  m.handles.filterMap (fun h => if h.listening then none else h.pcb) ++ m.detached

theorem mem_pcbs : pcb ∈ m.pcbs ↔
    (∃ h ∈ m.handles, h.listening = false ∧ h.pcb = some pcb) ∨ pcb ∈ m.detached := by
  rw [pcbs, List.mem_append, List.mem_filterMap]
  refine or_congr_left (exists_congr fun h => and_congr_right fun _ => ?_)
  cases h.listening with
  | true => simp
  | false => simp

theorem mem_pcbs_setHandle (hmem : pcb ∈ (m.setHandle i h').pcbs) :
    pcb ∈ m.pcbs ∨ h'.listening = false ∧ h'.pcb = some pcb := by
  rcases mem_pcbs.mp hmem with ⟨g, hg, hlisten, hpcb⟩ | hdet
  · rcases List.mem_or_eq_of_mem_set hg with hg | rfl
    · exact .inl (mem_pcbs.mpr (.inl ⟨g, hg, hlisten, hpcb⟩))
    · exact .inr ⟨hlisten, hpcb⟩
  · exact .inl (mem_pcbs.mpr (.inr hdet))

theorem Frame.mem_pcbs (hframe : m.Frame m') (hmem : pcb ∈ m'.pcbs) : pcb ∈ m.pcbs := by
  rw [pcbs, detached, hframe.handles, hframe.halfOpen, hframe.lingering] at hmem
  exact hmem

theorem localPort_ne_of_fresh (hfresh : m.usesPort tcpPort = false) (hmem : pcb ∈ m.pcbs) :
    pcb.localPort ≠ tcpPort := by
  obtain ⟨hhandles, hhalf, hling⟩ := usesPort_iff.mp hfresh
  rcases mem_pcbs.mp hmem with ⟨g, hg, _, hpcb⟩ | hdet
  · exact hhandles g hg pcb hpcb
  · rcases List.mem_append.mp hdet with hdet | hdet
    · exact hhalf pcb hdet
    · exact hling pcb hdet

/-- The segments of the pcb find the transport it was bound on, as long as there is one, and
there the UDP port of the peer. -/
structure Own (m : Manager) (pcb : Pcb) : Prop where
  route : m.localPortMap.find? pcb.localPort = some pcb.conn.port
  slot : ∀ slot, m.connCache.find? pcb.conn.port = some slot →
    slot.conn = pcb.conn ∧ slot.info.Mapped pcb.remoteIp pcb.remotePort

theorem Own.setInfo (hown : m.Own pcb) (hslot : m.connCache.find? port = some slot)
    {c : ConnectionInfo} (hc : slot.conn = pcb.conn →
      slot.info.Mapped pcb.remoteIp pcb.remotePort → c.Mapped pcb.remoteIp pcb.remotePort) :
    (m.setInfo port slot c).Own pcb where
  route := hown.route
  slot := by
    intro slot' hs
    rcases Transports.find?_setInfo_cases hs with ⟨rfl, rfl⟩ | ⟨_, hs⟩
    · obtain ⟨hconn, hmapped⟩ := hown.slot slot hslot
      exact ⟨hconn, hc hconn hmapped⟩
    · exact hown.slot slot' hs

theorem Own.insertLocal (hown : m.Own pcb)
    (hport : pcb.localPort = tcpPort → pcb.conn.port = port) :
    Own { m with localPortMap := m.localPortMap.insert tcpPort port } pcb where
  route := by
    rw [OrderedMap.find?_insert]
    split
    · rename_i heq
      rw [hport heq]
    · exact hown.route
  slot := hown.slot

theorem Own.shrink (hown : m.Own pcb) {cache : OrderedMap Port (Slot ConnectionInfo)}
    (hshrunk : Transports.Shrunk m.alive m.connCache cache) :
    Own { m with connCache := cache } pcb where
  route := hown.route
  slot := fun slot hs => hown.slot slot (hshrunk.sub _ slot hs)

/-- No new transport on the port, unless the one that has it is in use. -/
theorem Own.createTransport (hown : m.Own pcb) {name : Port} {bound : Option Port}
    {res : Option Conn} (hok : m.createTransport name bound = .ok (m', res))
    (hport : m.openedPort m.alive name bound = some pcb.conn.port →
      ∃ slot, m.connCache.find? pcb.conn.port = some slot ∧ m.alive slot.conn = true) :
    m'.Own pcb := by
  rw [Manager.createTransport] at hok
  split at hok
  · rename_i r hr
    cases hok
    refine ⟨hown.route, fun slot hs => ?_⟩
    rcases Transports.createTransport_slots hr hs with hold | ⟨hopened, _, hdead⟩
    · exact hown.slot slot hold
    · obtain ⟨s, hs, halive⟩ := hport hopened
      rw [hdead s hs] at halive
      cases halive
  · cases hok

theorem Own.updateLocal (hown : m.Own pcb) {α : Type} {a : α}
    {f : ConnectionInfo → Except Assertion (ConnectionInfo × α)}
    (hok : m.updateLocal tcpPort f = .ok (m', a))
    (hf : ∀ c c', f c = .ok (c', a) → c.Mapped pcb.remoteIp pcb.remotePort →
      c'.Mapped pcb.remoteIp pcb.remotePort) : m'.Own pcb := by
  cases hlocal : m.localPortMap.find? tcpPort with
  | none =>
    rw [Manager.updateLocal, hlocal] at hok
    cases hok
  | some port =>
    obtain ⟨slot, c, hslot, hc, rfl⟩ := updateLocal_ok hok hlocal
    exact hown.setInfo hslot fun _ => hf slot.info c hc

theorem Own.pcbConnect (hown : m.Own pcb) {ip : Ip} {key : Port}
    (hok : m.pcbConnect tcpPort ip port = .ok (m', key)) : m'.Own pcb := by
  rw [Manager.pcbConnect] at hok
  split at hok
  · cases hok
  · exact hown.updateLocal hok fun c c' hc hmapped => hmapped.pcbConnect hc

theorem Own.pcbDisconnect (hown : m.Own pcb) {ip : Ip} {key : Port}
    (hok : m.pcbDisconnect tcpPort ip key = .ok m') : m'.Own pcb := by
  rw [Manager.pcbDisconnect] at hok
  split at hok
  · cases hok
  · obtain ⟨⟨m₁, _⟩, hupd, rfl⟩ := map_eq_ok hok
    refine hown.updateLocal hupd fun c c' hc hmapped => ?_
    obtain ⟨c₁, hdis, hres⟩ := map_eq_ok hc
    cases hres
    exact hmapped.pcbDisconnect hdis

theorem Own.pcbUnbind (hown : m.Own pcb) (hok : m.pcbUnbind tcpPort = .ok m') : m'.Own pcb := by
  rw [Manager.pcbUnbind] at hok
  split at hok
  · cases hok
  · obtain ⟨⟨m₁, _⟩, hupd, rfl⟩ := map_eq_ok hok
    refine hown.updateLocal hupd fun c c' hc hmapped => ?_
    obtain ⟨c₁, hunb, hres⟩ := map_eq_ok hc
    cases hres
    exact hmapped.congr (by rw [(pcbUnbind_ok hunb).2])

theorem Own.release (hown : m.Own pcb) {pcb' : Pcb} (hok : m.release h pcb' = .ok m') :
    m'.Own pcb := by
  rw [Manager.release] at hok
  obtain ⟨m₁, hdis, hunb⟩ := bind_eq_ok hok
  split at hdis
  · exact (hown.pcbDisconnect hdis).pcbUnbind hunb
  · cases hdis
    exact hown.pcbUnbind hunb

/-- No pcb without a handle was bound on a transport with the UDP port. -/
def portLeft (m : Manager) (port : Port) : Bool := m.detached.all fun pcb => pcb.conn.port ≠ port

/-- No pcb without a handle was bound on the transport. -/
def idle (m : Manager) (conn : Conn) : Bool := m.detached.all fun pcb => pcb.conn ≠ conn

/-- The transport of the handle has the role already, or it can be given up. -/
def roleKept (m : Manager) (h : Handle) (isAcceptor : Bool) : Bool :=
  (h.conn.bind fun conn => m.connCache.find? conn.port).all fun slot =>
    slot.info.isAcceptor = isAcceptor || m.idle slot.conn

/-- The entry that the datagram takes the UDP port from is not that of a pcb. -/
def sparesPcbs (m : Manager) (slot : Slot ConnectionInfo) (d : Datagram) : Bool :=
  (slot.info.takenKey d).all fun key => m.pcbs.all fun pcb =>
    !(pcb.conn = slot.conn && pcb.remoteIp = d.srcIp && pcb.remotePort = key)

/-- The pcbs that no handle looks after are left alone: no new transport on their UDP port, no
new role for their transport. A datagram has a source port, a SYN comes through the transport
of the pcb that listens, and no entry goes that a pcb needs. -/
def Separate (m : Manager) : Event → Prop
  | .bind _ name bound => (m.openedPort m.alive name bound).all m.portLeft = true
  | .listen i _ => ((m.handles[i]?).all fun h => m.roleKept h true) = true
  | .connect i env => ((m.handles[i]?).all fun h => m.roleKept h false &&
      (h.conn.isSome || (m.openedPort m.alive 0 env.transport).all m.portLeft)) = true
  | .datagram port d syn => ((m.connCache.find? port).all fun slot =>
      d.srcPort ≠ 0 && m.sparesPcbs slot d &&
        (!syn || (m.listener (slot.info.dstPort d)).all fun conn => conn = slot.conn)) = true
  | _ => True

instance (m : Manager) (e : Event) : Decidable (m.Separate e) :=
  match e with
  | .bind .. | .listen .. | .connect .. | .datagram .. => inferInstanceAs (Decidable (_ = true))
  | .createStreamSocket | .accept .. | .error .. | .kill .. | .transportKilled .. | .reap
  | .finished .. => inferInstanceAs (Decidable True)

theorem not_detached (hidle : m.idle conn = true) (hdet : pcb ∈ m.detached) : pcb.conn ≠ conn := by
  simpa using List.all_eq_true.mp hidle pcb hdet

theorem Counted.conn_ne (hm : Counted m leaked 0) (hslot : m.connCache.find? port = some slot)
    (hzero : slot.info.numHandles = 0) (hidle : m.idle slot.conn = true) (hmem : pcb ∈ m.pcbs) :
    slot.conn ≠ pcb.conn := by
  rcases mem_pcbs.mp hmem with ⟨g, hg, _, hpcb⟩ | hdet
  · exact ((hm.no_pcb hslot hzero).2 g hg pcb hpcb).symm
  · exact (not_detached hidle hdet).symm

theorem Own.bindAs (hm : Counted m leaked 0) (hmem : pcb ∈ m.pcbs) (hown : m.Own pcb)
    {isAcceptor : Bool} (hrole : ∀ slot, m.connCache.find? port = some slot →
      slot.info.isAcceptor = isAcceptor ∨ m.idle slot.conn = true)
    {tcpBind : Option Port} (hfresh : m.freshPort tcpBind = true)
    (hok : m.pcbBind port (fun c => c.bindAs tcpBind isAcceptor) = .ok (m', tcpPort)) :
    m'.Own pcb := by
  rcases pcbBind_ok hok with ⟨_, rfl⟩ | ⟨hport, slot, c, hslot, hf, rfl⟩
  · exact hown
  rcases ConnectionInfo.bindAs_ok isAcceptor hf with ⟨_, hzero⟩ | ⟨_, hbinds⟩
  · exact absurd hzero hport
  obtain ⟨p, rfl, htcp⟩ := hbinds.port
  have hset : (m.setInfo port slot c).Own pcb := hown.setInfo hslot fun hconn hmapped => by
    by_cases hold : slot.info.isAcceptor = isAcceptor
    · exact hmapped.congr (by rw [hbinds.eq, if_pos hold])
    · have hidle := (hrole slot hslot).resolve_left hold
      exact absurd hconn (hm.conn_ne hslot (hbinds.role.resolve_left hold) hidle hmem)
  refine hset.insertLocal fun hlocal => ?_
  split at htcp
  · obtain ⟨rfl, hpos⟩ : isAcceptor = true ∧ 0 < slot.info.numHandles := by simp_all
    have hshared := hm.acceptor_port hslot (hbinds.role.resolve_right (by omega)) hpos
    have hroute := hown.route
    rw [hlocal, htcp, hshared] at hroute
    exact (Option.some.inj hroute).symm
  · have hnew : m.usesPort tcpPort = false := by simpa [freshPort, htcp] using hfresh
    exact absurd hlocal (localPort_ne_of_fresh hnew hmem)

theorem updateLocal_pcbs {α : Type} {a : α}
    {f : ConnectionInfo → Except Assertion (ConnectionInfo × α)}
    (hok : m.updateLocal tcpPort f = .ok (m', a)) : m'.pcbs = m.pcbs := by
  cases hlocal : m.localPortMap.find? tcpPort with
  | none =>
    rw [Manager.updateLocal, hlocal] at hok
    cases hok
  | some port =>
    obtain ⟨slot, c, _, _, rfl⟩ := updateLocal_ok hok hlocal
    rfl

theorem pcbConnect_pcbs {ip : Ip} {key : Port}
    (hok : m.pcbConnect tcpPort ip port = .ok (m', key)) : m'.pcbs = m.pcbs := by
  rw [Manager.pcbConnect] at hok
  split at hok
  · cases hok
  · exact updateLocal_pcbs hok

theorem pcbDisconnect_pcbs {ip : Ip} {key : Port} (hok : m.pcbDisconnect tcpPort ip key = .ok m') :
    m'.pcbs = m.pcbs := by
  rw [Manager.pcbDisconnect] at hok
  split at hok
  · cases hok
  · obtain ⟨⟨m₁, _⟩, hupd, rfl⟩ := map_eq_ok hok
    exact updateLocal_pcbs hupd

theorem pcbUnbind_pcbs (hok : m.pcbUnbind tcpPort = .ok m') : m'.pcbs = m.pcbs := by
  rw [Manager.pcbUnbind] at hok
  split at hok
  · cases hok
  · obtain ⟨⟨m₁, _⟩, hupd, rfl⟩ := map_eq_ok hok
    exact updateLocal_pcbs hupd

theorem pcbBind_pcbs {f : ConnectionInfo → Except Assertion (ConnectionInfo × Port)}
    (hok : m.pcbBind port f = .ok (m', tcpPort)) : m'.pcbs = m.pcbs := by
  rcases pcbBind_ok hok with ⟨_, rfl⟩ | ⟨_, _, _, _, _, rfl⟩
  · rfl
  · rfl

/-- Every pcb that lwIP sends for is `Own`. -/
def OwnAll (m : Manager) : Prop := ∀ pcb ∈ m.pcbs, m.Own pcb

theorem OwnAll.keep (hown : m.OwnAll) (hpcbs : ∀ pcb ∈ m'.pcbs, pcb ∈ m.pcbs)
    (hkeep : ∀ pcb ∈ m.pcbs, m.Own pcb → m'.Own pcb) : m'.OwnAll :=
  fun pcb hmem => hkeep pcb (hpcbs pcb hmem) (hown pcb (hpcbs pcb hmem))

/-- A handle that gets a pcb, or none. -/
theorem OwnAll.setHandle (hown : m.OwnAll)
    (hnew : ∀ pcb, h'.listening = false → h'.pcb = some pcb → m.Own pcb ∨ pcb ∈ m.pcbs) :
    (m.setHandle i h').OwnAll := by
  intro pcb hmem
  have hold : m.Own pcb := by
    rcases mem_pcbs_setHandle hmem with hmem | ⟨hlisten, hpcb⟩
    · exact hown pcb hmem
    · exact (hnew pcb hlisten hpcb).elim id (hown pcb)
  exact ⟨hold.route, hold.slot⟩

theorem OwnAll.pcbUnbind (hown : m.OwnAll) (hok : m.pcbUnbind tcpPort = .ok m') : m'.OwnAll :=
  hown.keep (fun _ hmem => pcbUnbind_pcbs hok ▸ hmem) fun _ _ h => h.pcbUnbind hok

theorem OwnAll.pcbConnect (hown : m.OwnAll) {ip : Ip} {key : Port}
    (hok : m.pcbConnect tcpPort ip port = .ok (m', key)) : m'.OwnAll :=
  hown.keep (fun _ hmem => pcbConnect_pcbs hok ▸ hmem) fun _ _ h => h.pcbConnect hok

theorem OwnAll.pcbDisconnect (hown : m.OwnAll) {ip : Ip} {key : Port}
    (hok : m.pcbDisconnect tcpPort ip key = .ok m') : m'.OwnAll :=
  hown.keep (fun _ hmem => pcbDisconnect_pcbs hok ▸ hmem) fun _ _ h => h.pcbDisconnect hok

theorem OwnAll.createTransport (hown : m.OwnAll) (hm : Counted m leaked 0) {name : Port}
    {bound : Option Port} {res : Option Conn}
    (hleft : (m.openedPort m.alive name bound).all m.portLeft = true)
    (hok : m.createTransport name bound = .ok (m', res)) : m'.OwnAll := by
  obtain ⟨_, hframe, _⟩ := hm.createTransport hok
  refine hown.keep (fun _ hmem => hframe.mem_pcbs hmem) fun pcb hmem h => ?_
  refine h.createTransport hok fun hopened => ?_
  rcases mem_pcbs.mp hmem with ⟨g, hg, _, hpcb⟩ | hdet
  · -- the handle of the pcb holds the transport
    have hconn := (hm.pcbs g hg pcb hpcb).1
    obtain ⟨slot, hslot, hsc⟩ := hm.cached hg hconn
    exact ⟨slot, hslot, alive_iff.mpr (.inl ⟨g, hg, by rw [hconn, hsc]⟩)⟩
  · rw [hopened, Option.all_some] at hleft
    exact absurd rfl (of_decide_eq_true (List.all_eq_true.mp hleft pcb hdet))

theorem OwnAll.listen (hown : m.OwnAll) (hm : Counted m leaked 0) {env : ListenEnv}
    (hrole : m.roleKept h true = true) (hfresh : m.freshPort env.tcpBind = true)
    (hok : m.listen i h env = .ok m') : m'.OwnAll := by
  rw [Manager.listen] at hok
  split at hok
  · rename_i conn hconn _
    split at hok
    · cases hok
      exact hown
    · obtain ⟨⟨m₁, tcpPort⟩, hbind, hrest⟩ := bind_eq_ok hok
      have hslots : ∀ slot, m.connCache.find? conn.port = some slot →
          slot.info.isAcceptor = true ∨ m.idle slot.conn = true := by
        intro slot hslot
        simpa [roleKept, hconn, hslot] using hrole
      have hown₁ : m₁.OwnAll :=
        hown.keep (fun _ hmem => pcbBind_pcbs hbind ▸ hmem)
          fun pcb hmem h => h.bindAs hm hmem hslots hfresh hbind
      dsimp only at hrest
      split at hrest
      · cases hrest
        exact hown₁
      · split at hrest
        · cases hrest
          exact hown₁.setHandle fun pcb hlisten _ => by cases hlisten
        · exact hown₁.pcbUnbind hrest
  · cases hok

/-- The pcb that was connected. -/
theorem BoundConnector.own (hb : m.BoundConnector conn tcpPort leaked) {ip : Ip} {key : Port}
    (hok : m.pcbConnect tcpPort ip port = .ok (m', key)) (hkey : key ≠ 0) :
    m'.Own { localPort := tcpPort, remoteIp := ip, remotePort := key, conn := conn } := by
  obtain ⟨hb', _, slot, c, _, hconn, hc, rfl⟩ := hb.pcbConnect hok
  refine ⟨hb'.localPort, fun slot' hs => ?_⟩
  obtain rfl := setInfo_slot m conn.port slot c hs
  exact ⟨hconn, ConnectionInfo.mapped_pcbConnect hc hkey⟩

theorem OwnAll.connectPcb (hown : m.OwnAll) (hb : m.BoundConnector conn tcpPort leaked)
    {env : ConnectEnv} {failed : Bool}
    (hok : m.connectPcb i h conn tcpPort env = .ok (m', failed)) : m'.OwnAll := by
  unfold Manager.connectPcb at hok
  split at hok
  · cases hok
    exact hown
  · obtain ⟨⟨m₁, key⟩, hconnect, hrest⟩ := bind_eq_ok hok
    have hown₁ := hown.pcbConnect hconnect
    dsimp only at hrest
    split at hrest
    · cases hrest
      exact hown₁
    · rename_i hkey
      split at hrest
      · cases hrest
        refine hown₁.setHandle fun pcb _ hpcb => .inl ?_
        cases hpcb
        exact hb.own hconnect hkey
      · obtain ⟨m₂, hdis, hrest⟩ := bind_eq_ok hrest
        obtain ⟨m₃, hunb, hres⟩ := bind_eq_ok hrest
        cases hres
        exact (hown₁.pcbDisconnect hdis).pcbUnbind hunb

theorem OwnAll.connectOn (hown : m.OwnAll) (hm : Counted m leaked 0) (hconn : m.Cached conn)
    (hrole : ∀ slot, m.connCache.find? conn.port = some slot → slot.info.isAcceptor = false ∨
      m.idle slot.conn = true) {env : ConnectEnv} {failed : Bool}
    (hfresh : m.freshPort env.tcpBind = true)
    (hok : m.connectOn i h conn env = .ok (m', failed)) : m'.OwnAll := by
  rw [Manager.connectOn] at hok
  split at hok
  · cases hok
    exact hown
  · obtain ⟨⟨m₁, tcpPort⟩, hbind, hrest⟩ := bind_eq_ok hok
    have hown₁ : m₁.OwnAll :=
      hown.keep (fun _ hmem => pcbBind_pcbs hbind ▸ hmem)
        fun pcb hmem h => h.bindAs hm hmem hrole hfresh hbind
    dsimp only at hrest
    split at hrest
    · cases hrest
      exact hown₁
    · rename_i hport
      rcases hm.boundConnector hconn hfresh hbind with ⟨hzero, _⟩ | ⟨hb, _⟩
      · exact absurd hzero hport
      · exact hown₁.connectPcb hb hrest

theorem createTransport_role {bound : Option Port}
    (hok : m.createTransport 0 bound = .ok (m', some conn)) :
    ∀ slot, m'.connCache.find? conn.port = some slot → slot.info.isAcceptor = false := by
  obtain ⟨t, hcreated, rfl⟩ := createTransport_ok hok
  cases hcreated with
  | found hname _ _ => exact absurd rfl hname
  | opened _ _ _ =>
    intro slot hslot
    rw [OrderedMap.find?_insert_self] at hslot
    cases hslot
    rfl

theorem OwnAll.connect (hown : m.OwnAll) (hm : Counted m leaked 0) (hi : m.handles[i]? = some h)
    {env : ConnectEnv} {failed : Bool} (hrole : m.roleKept h false = true)
    (hleft : h.conn = none → (m.openedPort m.alive 0 env.transport).all m.portLeft = true)
    (hfresh : m.freshPort env.tcpBind = true) (hok : m.connect i h env = .ok (m', failed)) :
    m'.OwnAll := by
  obtain ⟨hnone, hconnects⟩ := connect_ok hok
  cases hconnects with
  | bound hconn hok =>
    refine hown.connectOn hm (hm.cached (List.mem_of_getElem? hi) hconn) ?_ hfresh hok
    intro slot hslot
    simpa [roleKept, hconn, hslot] using hrole
  | refused hconn hcreate => exact hown.createTransport hm (hleft hconn) hcreate
  | @created m₁ conn _ hconn hcreate hok =>
    have hown₁ := hown.createTransport hm (hleft hconn) hcreate
    obtain ⟨hset, hi₁, hfresh₁⟩ := hm.setCreated hi hnone hfresh hcreate
    have hownset : (m₁.setHandle i { h with conn := some conn }).OwnAll :=
      hown₁.setHandle fun pcb _ hpcb => by
        have hpcb : h.pcb = some pcb := hpcb
        rw [hnone] at hpcb
        cases hpcb
    exact hownset.connectOn hset (hset.cached (List.mem_of_getElem? hi₁) rfl)
      (fun slot hslot => .inl (createTransport_role hcreate slot hslot)) hfresh₁ hok

theorem OwnAll.accept (hown : m.OwnAll) (hmem : pcb ∈ m.halfOpen)
    (hok : m.accept conn pcb = .ok m') : m'.OwnAll := by
  rw [Manager.accept] at hok
  obtain ⟨⟨m₁, _⟩, hupd, rfl⟩ := map_eq_ok hok
  have hown₁ : m₁.OwnAll := by
    refine hown.keep (fun _ hmem => updateLocal_pcbs hupd ▸ hmem) fun pcb _ h => ?_
    refine h.updateLocal hupd fun c c' hc hmapped => ?_
    obtain ⟨c₁, hacc, hres⟩ := map_eq_ok hc
    cases hres
    exact hmapped.congr (by rw [accept_ok hacc])
  have hpcb : pcb ∈ m₁.pcbs := by
    rw [updateLocal_pcbs hupd]
    exact mem_pcbs.mpr (.inr (List.mem_append_left _ hmem))
  intro pcb' hmem'
  have hold : pcb' ∈ m₁.pcbs := by
    rcases mem_pcbs.mp hmem' with ⟨g, hg, hlisten, hgp⟩ | hdet
    · rcases List.mem_append.mp hg with hg | hg
      · exact mem_pcbs.mpr (.inl ⟨g, hg, hlisten, hgp⟩)
      · cases List.mem_singleton.mp hg
        cases hgp
        exact hpcb
    · refine mem_pcbs.mpr (.inr ?_)
      rcases List.mem_append.mp hdet with hdet | hdet
      · exact List.mem_append_left _ (List.mem_of_mem_erase hdet)
      · exact List.mem_append_right _ hdet
  exact ⟨(hown₁ pcb' hold).route, (hown₁ pcb' hold).slot⟩

theorem OwnAll.release (hown : m.OwnAll) (hm : Counted m leaked 0) (hmem : h ∈ m.handles)
    (hpcb : h.pcb = some pcb) (hok : m.release h pcb = .ok m') : m'.OwnAll := by
  obtain ⟨_, hframe⟩ := hm.release hmem hpcb hok
  exact hown.keep (fun _ hmem => hframe.mem_pcbs hmem) fun _ _ h => h.release hok

theorem OwnAll.errorFunc (hown : m.OwnAll) (hm : Counted m leaked 0) (hmem : h ∈ m.handles)
    (hpcb : h.pcb = some pcb) (hok : m.errorFunc i h pcb = .ok m') : m'.OwnAll := by
  rw [Manager.errorFunc] at hok
  obtain ⟨m₁, hrel, rfl⟩ := map_eq_ok hok
  exact (hown.release hm hmem hpcb hrel).setHandle fun pcb _ hp => by cases hp

/-- The pcb that a killed handle had may go on. -/
theorem OwnAll.kill (hown : m.OwnAll) (hm : Counted m leaked 0) (hmem : h ∈ m.handles)
    {abort : Bool} (hok : m.kill i h abort = .ok m') : m'.OwnAll := by
  rw [Manager.kill] at hok
  obtain ⟨m₁, hclose, rfl⟩ := map_eq_ok hok
  suffices hown₁ : m₁.OwnAll by
    intro pcb hmem
    have hset : (m₁.setHandle i {}).OwnAll := hown₁.setHandle fun pcb _ hp => by cases hp
    exact ⟨(hset pcb hmem).route, (hset pcb hmem).slot⟩
  rw [closePcb] at hclose
  split at hclose
  · cases hclose
    exact hown
  · rename_i pcb hpcb
    obtain ⟨m₂, hrel, hres⟩ := map_eq_ok hclose
    have hown₂ := hown.release hm hmem hpcb hrel
    have hpcbs : m₂.pcbs = m.pcbs := by
      obtain ⟨_, hframe⟩ := hm.release hmem hpcb hrel
      rw [pcbs, pcbs, detached, detached, hframe.handles, hframe.halfOpen, hframe.lingering]
    split at hres
    · cases hres
      exact hown₂
    · rename_i hkeep
      cases hres
      have hlisten : h.listening = false := by
        cases hl : h.listening with
        | false => rfl
        | true => rw [hl, Bool.or_true] at hkeep; exact absurd rfl hkeep
      have hself : pcb ∈ m₂.pcbs := by
        rw [hpcbs]
        exact mem_pcbs.mpr (.inl ⟨h, hmem, hlisten, hpcb⟩)
      intro pcb' hmem'
      have hold : pcb' ∈ m₂.pcbs := by
        rcases mem_pcbs.mp hmem' with hg | hdet
        · exact mem_pcbs.mpr (.inl hg)
        · rcases List.mem_append.mp hdet with hdet | hdet
          · exact mem_pcbs.mpr (.inr (List.mem_append_left _ hdet))
          · rcases List.mem_cons.mp hdet with rfl | hdet
            · exact hself
            · exact mem_pcbs.mpr (.inr (List.mem_append_right _ hdet))
      exact ⟨(hown₂ pcb' hold).route, (hown₂ pcb' hold).slot⟩

/-- A listening pcb has its TCP port in `localPortMap_`. -/
theorem Counted.listener_route (hm : Counted m leaked 0) (h : m.listener tcpPort = some conn) :
    m.localPortMap.find? tcpPort = some conn.port := by
  obtain ⟨g, hg, hfound⟩ := List.exists_of_findSome?_eq_some h
  obtain ⟨pcb, hpcb, hif⟩ := Option.bind_eq_some_iff.mp hfound
  split at hif
  · rename_i hguard
    cases hif
    rw [← of_decide_eq_true (Bool.and_eq_true_iff.mp hguard).2]
    exact (hm.pcbs g hg pcb hpcb).2
  · cases hif

theorem OwnAll.onRecv (hown : m.OwnAll) (hm : Counted m leaked 0)
    (hslot : m.connCache.find? port = some slot) {d : Datagram} {syn : Bool}
    (hsrc : d.srcPort ≠ 0) (hspares : m.sparesPcbs slot d = true)
    (hlisten : syn = true → ∀ conn, m.listener (slot.info.dstPort d) = some conn →
      conn = slot.conn)
    (hok : m.onRecv slot d syn = .ok m') : m'.OwnAll := by
  have hport := (hm.slots port slot hslot).1
  rw [Manager.onRecv, hport] at hok
  obtain ⟨⟨m₁, seg⟩, hupd, hres⟩ := map_eq_ok hok
  obtain ⟨s, c, hs, hrecv, rfl⟩ := update_ok hupd
  rw [hslot] at hs
  cases hs
  have hown₁ : (m.setInfo port slot c).OwnAll := by
    refine hown.keep (fun _ hmem => hmem) fun pcb hmem h => ?_
    refine h.setInfo hslot fun hconn hmapped => hmapped.onRecv hrecv hsrc fun hip htaken => ?_
    rw [sparesPcbs, htaken, Option.all_some] at hspares
    simpa [hconn, hip] using List.all_eq_true.mp hspares pcb hmem
  dsimp only at hres
  split at hres
  · rename_i seg conn hseg
    cases hres
    obtain ⟨seg', hseg', hpair⟩ := Option.bind_eq_some_iff.mp hseg
    obtain ⟨conn', hconn', heq⟩ := Option.map_eq_some_iff.mp hpair
    cases heq
    cases hseg'
    have hown' := hlisten rfl conn (by rw [← ConnectionInfo.onRecv_dst hrecv, hconn'])
    subst hown'
    -- the new pcb, whose peer has just been seen
    have hnew : (m.setInfo port slot c).Own
        ⟨seg.dst, d.srcIp, seg.src, slot.conn⟩ := by
      refine ⟨hm.listener_route hconn', fun slot' hs' => ?_⟩
      rw [hport] at hs'
      obtain rfl := setInfo_slot m port slot c hs'
      refine ⟨rfl, ConnectionInfo.mapped_of_actualPort ?_⟩
      rw [ConnectionInfo.onRecv_actualPort hrecv]
      exact hsrc
    intro pcb hmem
    have hold : (m.setInfo port slot c).Own pcb := by
      rcases mem_pcbs.mp hmem with hg | hdet
      · exact hown₁ pcb (mem_pcbs.mpr (.inl hg))
      · rcases List.mem_cons.mp hdet with rfl | hdet
        · exact hnew
        · exact hown₁ pcb (mem_pcbs.mpr (.inr hdet))
    exact ⟨hold.route, hold.slot⟩
  · cases hres
    exact hown₁

theorem step_own (hm : Counted m leaked 0) (hown : m.OwnAll) (hsep : m.Separate e)
    (hstep : m.step e = some m') : m'.OwnAll := by
  obtain ⟨r, hcall, hok⟩ := step_cases hstep
  cases hcall with
  | createStreamSocket =>
    cases hok
    intro pcb hmem
    have hold : m.Own pcb := by
      rcases mem_pcbs.mp hmem with ⟨g, hg, hlisten, hpcb⟩ | hdet
      · rcases List.mem_append.mp hg with hg | hg
        · exact hown pcb (mem_pcbs.mpr (.inl ⟨g, hg, hlisten, hpcb⟩))
        · cases List.mem_singleton.mp hg
          cases hpcb
      · exact hown pcb (mem_pcbs.mpr (.inr hdet))
    exact ⟨hold.route, hold.slot⟩
  | bind hi =>
    obtain ⟨hnone, m₁, res, hcreate, rfl⟩ := bind_ok hok
    refine (hown.createTransport hm hsep hcreate).setHandle fun pcb _ hpcb => ?_
    have hconn := (hm.pcbs _ (List.mem_of_getElem? hi) pcb hpcb).1
    rw [hnone] at hconn
    cases hconn
  | listen hi hfresh =>
    rw [Separate, hi] at hsep
    exact hown.listen hm hsep hfresh hok
  | connect hi hfresh =>
    obtain ⟨⟨m₁, failed⟩, hconnect, rfl⟩ := map_eq_ok hok
    rw [Separate, hi, Option.all_some, Bool.and_eq_true, Bool.or_eq_true] at hsep
    refine hown.connect hm hi hsep.1 (fun hconn => ?_) hfresh hconnect
    exact hsep.2.resolve_left (by simp [hconn])
  | accept _ _ _ _ hopen => exact hown.accept hopen hok
  | error hi _ hpcb => exact hown.errorFunc hm (List.mem_of_getElem? hi) hpcb hok
  | kill hi => exact hown.kill hm (List.mem_of_getElem? hi) hok
  | datagram hslot =>
    rw [Separate, hslot, Option.all_some, Bool.and_eq_true, Bool.and_eq_true] at hsep
    obtain ⟨⟨hsrc, hspares⟩, hsyn⟩ := hsep
    refine hown.onRecv hm hslot (of_decide_eq_true hsrc) hspares (fun htrue conn hl => ?_) hok
    rw [htrue, hl] at hsyn
    simpa using hsyn
  | transportKilled =>
    cases hok
    exact fun pcb hmem => ⟨(hown pcb hmem).route, (hown pcb hmem).slot⟩
  | reap =>
    cases hok
    exact fun pcb hmem => (hown pcb hmem).shrink (Transports.shrunk_reap m.toTransports m.alive)
  | finished =>
    cases hok
    intro pcb' hmem
    have hold : pcb' ∈ m.pcbs := by
      refine mem_pcbs.mpr ((mem_pcbs.mp hmem).imp_right fun hdet => ?_)
      rcases List.mem_append.mp hdet with hdet | hdet
      · exact List.mem_append_left _ (List.mem_of_mem_erase hdet)
      · exact List.mem_append_right _ (List.mem_of_mem_erase hdet)
    exact ⟨(hown pcb' hold).route, (hown pcb' hold).slot⟩

theorem run_own (hsep : Along step Separate {} es) (hrun : Run es m) : m.OwnAll := by
  have hinv : (∃ leaked, Counted m leaked 0) ∧ m.OwnAll :=
    exec_invariant_along (I := fun m => (∃ leaked, Counted m leaked 0) ∧ m.OwnAll)
      (fun m e m' h hsep hstep => by
        obtain ⟨⟨leaked, hm⟩, hown⟩ := h
        obtain ⟨leaked', hm', _⟩ := step_counted hm hstep
        exact ⟨⟨leaked', hm'⟩, step_own hm hown hsep hstep⟩)
      ⟨⟨0, counted_init⟩, fun pcb hmem => by cases hmem⟩ hsep hrun
  exact hinv.2

/-- What becomes of a segment of the pcb: it is dropped, or it goes through the transport that
the pcb was bound on, to the UDP port that the transport has for the peer. -/
def SendsOwn (m : Manager) (pcb : Pcb) : Prop :=
  m.netifOutputFunc pcb.localPort pcb.remoteIp pcb.remotePort = .ok none ∨
    ∃ slot info, m.connCache.find? pcb.conn.port = some slot ∧ slot.conn = pcb.conn ∧
      slot.info.mapping pcb.remoteIp pcb.remotePort = some info ∧ info.port ≠ 0 ∧
      m.netifOutputFunc pcb.localPort pcb.remoteIp pcb.remotePort =
        .ok (some (pcb.conn, pcb.remoteIp, info.port))

theorem Own.sends (hown : m.Own pcb) : m.SendsOwn pcb := by
  rw [SendsOwn, netifOutputFunc, hown.route, Option.bind_some]
  cases hslot : m.connCache.find? pcb.conn.port with
  | none => exact .inl rfl
  | some slot =>
    obtain ⟨hconn, info, hinfo, hport⟩ := hown.slot slot hslot
    dsimp only
    split
    · refine .inr ⟨slot, info, rfl, hconn, hinfo, hport, ?_⟩
      have hactual := ConnectionInfo.actualPort_of_mapping hinfo
      rw [ConnectionInfo.output, hactual, if_neg hport, hconn]
      rfl
    · exact .inl rfl

end Manager

end DTun.Util.Ltudp
