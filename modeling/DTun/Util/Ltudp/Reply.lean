import DTun.Util.Ltudp.Active

/-!
# Replies through an LTUDP transport

What comes in from a UDP address is answered to that address: the TCP port lwIP sees as the
source of a segment stands, right after it was passed on, for the UDP port it came from. For
a connector two TCP ports of a peer never stand for one UDP port.
-/

namespace DTun.Util.Ltudp

open Lib (OrderedMap)
open Lib.Calls Lib.Runs

namespace PeerInfo

variable {peer peer' : PeerInfo} {port srcPort src key : Port}

/-- Different keys stand for different ports. -/
def Distinct (peer : PeerInfo) : Prop :=
  ∀ k k' i i', peer.portMap.find? k = some i → peer.portMap.find? k' = some i' →
    i.port = i'.port → k = k'

/-- An entry may get a port that no other entry has. -/
theorem Distinct.insert (h : peer.Distinct) {info : PortInfo} {rev : PortMap}
    (hfree : ∀ k i, k ≠ key → peer.portMap.find? k = some i → i.port ≠ info.port) :
    Distinct { portMap := peer.portMap.insert key info, revPortMap := rev } := by
  intro k k' i i' hi hi' heq
  rw [OrderedMap.find?_insert] at hi hi'
  split at hi
  · rename_i hk
    cases hi
    split at hi'
    · rename_i hk'
      exact hk.trans hk'.symm
    · rename_i hk'
      exact absurd heq.symm (hfree k' i' hk' hi')
  · rename_i hk
    split at hi'
    · cases hi'
      exact absurd heq (hfree k i hk hi)
    · exact h k k' i i' hi hi' heq

theorem Distinct.erase (h : peer.Distinct) (rev : PortMap) (key : Port) :
    Distinct { portMap := peer.portMap.erase key, revPortMap := rev } := by
  intro k k' i i' hi hi' heq
  rw [OrderedMap.find?_erase] at hi hi'
  split at hi
  · cases hi
  · split at hi'
    · cases hi'
    · exact h k k' i i' hi hi' heq

theorem Distinct.port_ne (h : peer.Distinct) {info : PortInfo}
    (hinfo : peer.portMap.find? key = some info) (k : Port) (i : PortInfo) (hk : k ≠ key)
    (hi : peer.portMap.find? k = some i) : i.port ≠ info.port :=
  fun heq => hk (h k key i info hi hinfo heq)

theorem Distinct.connect (h : peer.Distinct) (port : Port) : (peer.connect port).1.Distinct := by
  have hconn := connected peer port
  generalize peer.connect port = r at hconn
  cases hconn with
  | busy _ => exact h
  | joined hfind _ =>
    have hne := h.port_ne hfind
    exact h.insert hne
  | opened _ _ habsent => exact h.insert fun k i _ hi => habsent k i hi

theorem Distinct.disconnect (h : peer.Distinct) (hok : peer.disconnect key = .ok peer') :
    peer'.Distinct := by
  obtain ⟨info, hinfo, _, rfl⟩ := disconnect_ok hok
  have hne := h.port_ne hinfo
  exact h.insert hne

theorem Distinct.received (h : peer.Distinct) (hr : peer.Received srcPort src peer' key) :
    peer'.Distinct := by
  cases hr with
  | same _ _ _ => exact h
  | fresh _ _ => exact h
  | moved _ _ _ hfirst =>
    refine h.insert fun k i _ hi => ?_
    exact of_decide_eq_false (peer.portMap.first?_eq_none hfirst hi)
  | @taken r info other tmpPort _ _ _ hfirst _ =>
    obtain ⟨hfound, hsrc⟩ := peer.portMap.first?_eq_some hfirst
    have hsrc : other.port = srcPort := of_decide_eq_true hsrc
    -- the entry that is dropped was the only one with the port
    refine (h.erase peer.revPortMap tmpPort).insert fun k i _ hi => ?_
    rw [OrderedMap.find?_erase] at hi
    split at hi
    · cases hi
    · rename_i hk
      rw [← hsrc]
      exact h.port_ne hfound k i hk hi

/-- The key of a segment that is passed on stands for the port it came from. -/
theorem received_port (hr : peer.Received srcPort src peer' key) :
    ∃ info, peer'.portMap.find? key = some info ∧ info.port = srcPort := by
  cases hr with
  | same _ hinfo hport => exact ⟨_, hinfo, hport⟩
  | fresh _ hfirst =>
    obtain ⟨hfound, hsrc⟩ := peer.portMap.first?_eq_some hfirst
    exact ⟨_, hfound, of_decide_eq_true hsrc⟩
  | moved _ _ _ _ => exact ⟨_, OrderedMap.find?_insert_self _, rfl⟩
  | taken _ _ _ _ _ => exact ⟨_, OrderedMap.find?_insert_self _, rfl⟩

end PeerInfo

namespace ConnectionInfo

variable {c c' : ConnectionInfo} {e : Event} {es : List Event}

/-- For a connector, different TCP ports of a peer stand for different UDP ports. -/
def Distinct (c : ConnectionInfo) : Prop :=
  c.isAcceptor = false → ∀ ip peer, c.peers.find? ip = some peer → peer.Distinct

theorem Distinct.setPeer {ip : Ip} {peer : PeerInfo} (h : c.Distinct) (hpeer : peer.Distinct) :
    (c.setPeer ip peer).Distinct := by
  intro hrole ip' p hp
  rw [ConnectionInfo.setPeer, c.peers.find?_insert] at hp
  split at hp
  · cases hp
    exact hpeer
  · exact h hrole ip' p hp

theorem Distinct.getD (h : c.Distinct) (hrole : c.isAcceptor = false) (ip : Ip) :
    ((c.peers.find? ip).getD {}).Distinct := by
  cases hfind : c.peers.find? ip with
  | none => exact fun k k' i i' hi => by cases hi
  | some peer => exact h hrole ip peer hfind

theorem step_distinct (h : c.Distinct) (hstep : c.step e = some c') : c'.Distinct := by
  cases step_change hstep with
  | kept _ hrole hpeers =>
    intro hrole' ip peer hp
    exact h (hrole ▸ hrole') ip peer (hpeers ▸ hp)
  | cleared _ hpeers =>
    intro _ ip peer hp
    rw [hpeers] at hp
    cases hp
  | connect hrole _ => exact h.setPeer ((h.getD hrole _).connect _)
  | disconnect hrole hfind hpeer => exact h.setPeer ((h hrole _ _ hfind).disconnect hpeer)
  | learn hrole =>
    intro hrole'
    rw [ConnectionInfo.setPeer, hrole] at hrole'
    cases hrole'
  | ignored _ _ => exact h
  | received hrole hfind hpeer => exact h.setPeer ((h hrole _ _ hfind).received hpeer)

theorem run_distinct (hrun : Run es c) : c.Distinct :=
  exec_invariant (fun _ _ _ h hstep => step_distinct h hstep)
    (fun _ ip peer hp => by cases hp) hrun

/-- The TCP port lwIP sees stands for the UDP port the datagram came from. -/
theorem onRecv_actualPort {d : Datagram} {seg : Segment}
    (h : c.onRecv d = .ok (c', some seg)) : c'.actualPort d.srcIp seg.src = d.srcPort := by
  rw [onRecv] at h
  split at h
  · cases h
    have hentry : (c.setPeer d.srcIp (((c.peers.find? d.srcIp).getD {}).learn d.srcPort
        d.src)).mapping d.srcIp d.src =
        some { ((((c.peers.find? d.srcIp).getD {}).portMap.find? d.src).getD {}) with
          port := d.srcPort } := by
      rw [mapping_setPeer, if_pos rfl, PeerInfo.learn, OrderedMap.find?_insert_self]
    rw [actualPort_of_mapping hentry]
  · cases hfind : c.peers.find? d.srcIp with
    | none => rw [hfind] at h; cases h
    | some peer =>
      rw [hfind] at h
      obtain ⟨passed, hrecv, hres⟩ := map_eq_ok h
      cases passed with
      | none => cases hres
      | some p =>
        cases hres
        obtain ⟨info, hinfo, hport⟩ := PeerInfo.received_port (PeerInfo.received hrecv)
        rw [actualPort_of_mapping, hport]
        rw [mapping_setPeer, if_pos rfl]
        exact hinfo

theorem output_of_actualPort {ip : Ip} {key port : Port} (h : c.actualPort ip key = port) :
    c.output ip key = .ok (ip, port) ↔ port ≠ 0 := by
  rw [output, h]
  split
  · rename_i hzero
    simp [hzero]
  · rename_i hne
    simp [hne]

/-- In every state a transport can reach, in either role: right after a datagram from a UDP
address is passed on to lwIP, a segment back to the source port lwIP sees goes to that
address if and only if its port is not 0, and for a connector two TCP ports never stand for
one UDP port of a peer. -/
theorem reply_path_iff (hrun : Run es c) :
    (∀ d c' seg, c.onRecv d = .ok (c', some seg) →
      (c'.output d.srcIp seg.src = .ok (d.srcIp, d.srcPort) ↔ d.srcPort ≠ 0)) ∧
    (c.isAcceptor = false → ∀ ip key key' info info', c.mapping ip key = some info →
      c.mapping ip key' = some info' → info.port = info'.port → key = key') := by
  constructor
  · intro d c' seg h
    exact output_of_actualPort (onRecv_actualPort h)
  · intro hrole ip key key' info info' hi hi' heq
    have hdistinct := (run_distinct hrun).getD hrole ip
    rw [← c.getD_find?] at hi hi'
    exact hdistinct key key' info info' hi hi' heq

/-- A call that is evaluated. -/
theorem onRecv_check {d : Datagram} {p : ConnectionInfo × Option Segment → Prop}
    [DecidablePred p] (h : (c.onRecv d).toOption.any (fun r => decide (p r)) = true) :
    ∃ c' seg, c.onRecv d = .ok (c', seg) ∧ p (c', seg) := by
  obtain ⟨⟨c', seg⟩, hr, hp⟩ := (Option.any_eq_true _ _).mp h
  exact ⟨c', seg, toOption_eq_some hr, of_decide_eq_true hp⟩

/-- A connector to two ports of a peer: a segment of the second is answered to the second. -/
theorem reply_path_iff_connector :
    ∃ c c', Run [.bindConnector (some 5), .connect 9 100, .connect 9 200] c ∧ c.isAcceptor = false ∧
      c.onRecv ⟨9, 200, 7, 5⟩ = .ok (c', some ⟨0x401, 5⟩) ∧
      c'.output 9 0x401 = .ok (9, 200) := by
  obtain ⟨c, hrun, hrole, hpass⟩ : ∃ c, Run [.bindConnector (some 5), .connect 9 100,
        .connect 9 200] c ∧
      (c.isAcceptor = false ∧ (c.onRecv ⟨9, 200, 7, 5⟩).toOption.any (fun r =>
        decide (r.2 = some ⟨0x401, 5⟩)) = true) := exec_check (by decide +kernel)
  obtain ⟨c', seg, hrecv, rfl⟩ := onRecv_check hpass
  exact ⟨c, c', hrun, hrole, hrecv, ((reply_path_iff hrun).1 _ c' _ hrecv).mpr (by decide)⟩

/-- An acceptor passes on a datagram from UDP port 0, and the answer fails the assertion that
there is a port to send it to. -/
theorem reply_to_port_zero :
    ∃ c c', Run [.bindAcceptor (some 5)] c ∧ c.onRecv ⟨9, 0, 7, 5⟩ = .ok (c', some ⟨7, 5⟩) ∧
      failed (c'.output 9 7) = some .actualPort := by
  obtain ⟨c, hrun, hpass⟩ : ∃ c, Run [.bindAcceptor (some 5)] c ∧
      (c.onRecv ⟨9, 0, 7, 5⟩).toOption.any (fun r => decide (r.2 = some ⟨7, 5⟩ ∧
        failed (r.1.output 9 7) = some .actualPort)) = true := exec_check (by decide +kernel)
  obtain ⟨c', seg, hrecv, rfl, hfail⟩ := onRecv_check hpass
  exact ⟨c, c', hrun, hrecv, hfail⟩

end ConnectionInfo

end DTun.Util.Ltudp
