import DTun.Util.Ltudp.Ports

/-!
# The reverse map of an LTUDP connector

Every value of `revPortMap` should be a key of `portMap`: `onRecv` asserts it. A remap drops
a forward entry together with one reverse entry that names it, and a peer that has sent from
two TCP ports through one UDP port has two of them.
-/

namespace DTun.Util.Ltudp

open Lib (OrderedMap)
open Lib.Calls Lib.Runs

namespace PeerInfo

variable {peer peer' : PeerInfo} {port srcPort src key : Port}

/-- Every value of the reverse map is a key of the forward map. -/
def ReverseWithin (peer : PeerInfo) : Prop :=
  ∀ k r, peer.revPortMap.find? k = some r → (peer.portMap.find? r.port).isSome = true

/-- When the datagram remaps a port, at most one reverse entry names the forward entry that
has the datagram's UDP port. -/
def Lone (peer : PeerInfo) (srcPort src : Port) : Prop :=
  peer.remaps srcPort src = true →
    ((peer.portMap.first? (·.port = srcPort)).all
      fun e => peer.revPortMap.countValues (·.port = e.1) ≤ 1) = true

instance (peer : PeerInfo) (srcPort src : Port) : Decidable (peer.Lone srcPort src) :=
  inferInstanceAs (Decidable (_ → _))

theorem isSome_insert {m : PortMap} {k k' : Port} {v : PortInfo}
    (h : (m.find? k').isSome = true) : ((m.insert k v).find? k').isSome = true := by
  rw [m.find?_insert]
  split
  · rfl
  · exact h

theorem ReverseWithin.connect (h : peer.ReverseWithin) (port : Port) :
    (peer.connect port).1.ReverseWithin := by
  have hconn := connected peer port
  generalize peer.connect port = r at hconn
  cases hconn with
  | busy _ => exact h
  | joined hfind hport =>
    intro k r hr
    refine isSome_insert (h k r ?_)
    revert hr
    dsimp only
    split
    · exact peer.revPortMap.find?_of_eraseFirst
    · exact id
  | opened hkey hfind _ =>
    intro k r hr
    exact isSome_insert (h k r (peer.revPortMap.find?_of_eraseFirst hr))

theorem disconnect_ok (h : peer.disconnect key = .ok peer') :
    ∃ info, peer.portMap.find? key = some info ∧ 0 < info.numActiveConns ∧
      peer' = { peer with
        portMap := peer.portMap.insert key
          { info with numActiveConns := info.numActiveConns - 1 } } := by
  rw [disconnect] at h
  cases hfind : peer.portMap.find? key with
  | none => rw [hfind] at h; cases h
  | some info =>
    rw [hfind] at h
    dsimp only at h
    split at h
    · rename_i hpos
      exact ⟨info, rfl, by omega, (Except.ok.inj h).symm⟩
    · cases h

theorem ReverseWithin.disconnect (h : peer.ReverseWithin)
    (hok : peer.disconnect key = .ok peer') : peer'.ReverseWithin := by
  obtain ⟨info, _, _, rfl⟩ := disconnect_ok hok
  exact fun k r hr => isSome_insert (h k r hr)

theorem ReverseWithin.learn (h : peer.ReverseWithin) (srcPort src : Port) :
    (peer.learn srcPort src).ReverseWithin :=
  fun k r hr => isSome_insert (h k r hr)

/-- A segment that is passed on keeps the reverse map within the forward map exactly when
it does not drop an entry that two reverse entries name. -/
theorem reverseWithin_received_iff (h : peer.ReverseWithin)
    (hr : peer.Received srcPort src peer' key) :
    peer'.ReverseWithin ↔ peer.Lone srcPort src := by
  cases hr with
  | @same r info hrev hinfo hport =>
    refine iff_of_true h fun hremaps => ?_
    simp [remaps, hrev, hinfo, hport] at hremaps
  | fresh hrev hfirst =>
    refine iff_of_true ?_ fun hremaps => ?_
    · intro k r hk
      rw [peer.revPortMap.find?_insert] at hk
      split at hk
      · cases hk
        exact Option.isSome_iff_exists.mpr ⟨_, (peer.portMap.first?_eq_some hfirst).1⟩
      · exact h k r hk
    · simp [remaps, hrev] at hremaps
  | moved hrev hinfo hport hfirst =>
    refine iff_of_true (fun k r hk => isSome_insert (h k r hk)) fun _ => ?_
    rw [hfirst]
    rfl
  | @taken r info other tmpPort hrev hinfo hport hfirst hidle =>
    obtain ⟨hfind, hsrc⟩ := peer.portMap.first?_eq_some hfirst
    have hsrc : other.port = srcPort := of_decide_eq_true hsrc
    have hne : r.port ≠ tmpPort := by
      rintro rfl
      cases hinfo.symm.trans hfind
      exact hport hsrc
    have hremaps : peer.remaps srcPort src = true := by
      simp [remaps, hrev, hinfo, hport]
    have hlone : peer.Lone srcPort src ↔
        peer.revPortMap.countValues (·.port = tmpPort) ≤ 1 := by
      simp [Lone, hremaps, hfirst]
    rw [hlone, ← peer.revPortMap.eraseFirst_clear_iff]
    -- the keys that are left are those of before but for the one that is dropped
    constructor
    · intro hwithin k v hk
      have hkey := hwithin k v hk
      dsimp only at hkey
      refine decide_eq_false fun hv => ?_
      rw [hv, OrderedMap.find?_insert_of_ne _ hne.symm, OrderedMap.find?_erase_self] at hkey
      cases hkey
    · intro hclear k v hk
      have hv : v.port ≠ tmpPort := of_decide_eq_false (hclear k v hk)
      refine isSome_insert ?_
      rw [OrderedMap.find?_erase_of_ne _ hv]
      exact h k v (peer.revPortMap.find?_of_eraseFirst hk)

theorem ignored_not_remaps (h : peer.receive srcPort src = .ok none) :
    peer.remaps srcPort src = false := by
  rw [receive, reverse] at h
  cases hrev : peer.revPortMap.find? src with
  | none => simp [remaps, hrev]
  | some r =>
    cases hinfo : peer.portMap.find? r.port with
    | none => simp [remaps, hrev, hinfo]
    | some info =>
      simp only [hrev, hinfo] at h
      split at h
      · cases h
      · obtain ⟨_, _, hres⟩ := map_eq_ok h
        cases hres

end PeerInfo

namespace ConnectionInfo

variable {c c' : ConnectionInfo} {e : Event} {es : List Event}

def ReverseWithin (c : ConnectionInfo) : Prop :=
  ∀ ip peer, c.peers.find? ip = some peer → peer.ReverseWithin

/-- The condition on a datagram for a connector, on the peer it comes from. -/
def Lone (c : ConnectionInfo) : Event → Prop
  | .datagram d => c.isAcceptor = false →
    ((c.peers.find? d.srcIp).all fun peer => peer.Lone d.srcPort d.src) = true
  | _ => True

instance (c : ConnectionInfo) : ∀ e, Decidable (c.Lone e)
  | .datagram _ => inferInstanceAs (Decidable (_ → _))
  | .bindAcceptor _ => inferInstanceAs (Decidable True)
  | .bindConnector _ => inferInstanceAs (Decidable True)
  | .accept => inferInstanceAs (Decidable True)
  | .unbind => inferInstanceAs (Decidable True)
  | .connect _ _ => inferInstanceAs (Decidable True)
  | .disconnect _ _ => inferInstanceAs (Decidable True)

theorem lone_of_not_datagram (he : ∀ d, e ≠ .datagram d) : c.Lone e := by
  cases e with
  | datagram d => exact absurd rfl (he d)
  | _ => trivial

theorem ReverseWithin.getD (h : c.ReverseWithin) (ip : Ip) :
    ((c.peers.find? ip).getD {}).ReverseWithin := by
  cases hfind : c.peers.find? ip with
  | none => exact fun k r hr => by cases hr
  | some peer => exact h ip peer hfind

theorem ReverseWithin.setPeer (h : c.ReverseWithin) (ip : Ip) {peer : PeerInfo} :
    (c.setPeer ip peer).ReverseWithin ↔ peer.ReverseWithin := by
  constructor
  · intro hall
    exact hall ip peer (c.peers.find?_insert_self)
  · intro hpeer ip' p hp
    rw [ConnectionInfo.setPeer, c.peers.find?_insert] at hp
    split at hp
    · cases hp
      exact hpeer
    · exact h ip' p hp

/-- A call keeps the reverse maps within the forward maps exactly when it meets the
condition. -/
theorem step_reverseWithin_iff (h : c.ReverseWithin) (hstep : c.step e = some c') :
    c'.ReverseWithin ↔ c.Lone e := by
  cases step_change hstep with
  | kept he _ hpeers =>
    refine iff_of_true (fun ip peer hp => h ip peer ?_) (lone_of_not_datagram he)
    rw [← hpeers]
    exact hp
  | cleared he hpeers =>
    refine iff_of_true (fun ip peer hp => ?_) (lone_of_not_datagram he)
    rw [hpeers] at hp
    cases hp
  | @connect ip port hrole hport =>
    exact iff_of_true ((h.setPeer _).mpr ((h.getD _).connect port)) trivial
  | disconnect hrole hfind hpeer =>
    exact iff_of_true ((h.setPeer _).mpr ((h _ _ hfind).disconnect hpeer)) trivial
  | learn hrole =>
    refine iff_of_true ((h.setPeer _).mpr ((h.getD _).learn _ _)) fun hfalse => ?_
    rw [hrole] at hfalse
    cases hfalse
  | @ignored d hrole hpeer =>
    refine iff_of_true h fun _ => ?_
    cases hfind : c.peers.find? d.srcIp with
    | none => rfl
    | some peer =>
      have hremaps := PeerInfo.ignored_not_remaps (hpeer peer hfind)
      simp [PeerInfo.Lone, hremaps]
  | @received d peer peer' key hrole hfind hpeer =>
    rw [h.setPeer, PeerInfo.reverseWithin_received_iff (h _ _ hfind) hpeer, Lone]
    simp [hrole, hfind]

/-- The assertion after the reverse lookup holds. -/
theorem ReverseWithin.onRecv_not_reverse (h : c.ReverseWithin) (d : Datagram) :
    failed (c.onRecv d) ≠ some .reverse := by
  intro hfail
  obtain ⟨peer, hfind, herr⟩ := onRecv_error (failed_eq_some hfail)
  obtain ⟨r, hrev, ⟨_, hnone⟩ | ⟨hne, _⟩⟩ := PeerInfo.receive_error herr
  · have hsome := h d.srcIp peer hfind d.src r hrev
    rw [hnone] at hsome
    cases hsome
  · cases hne

/-- In every run of pcbs and datagrams, every value of a reverse map is a key of the forward
map in every state reached if and only if no datagram drops a forward entry that two reverse
entries name; and then the assertion of `onRecv` does not fail. -/
theorem reverse_within_iff (hrun : Run es c) :
    (∀ pre post m, es = pre ++ post → Run pre m →
      m.ReverseWithin ∧ ∀ d, failed (m.onRecv d) ≠ some .reverse) ↔ Along step Lone {} es := by
  have h0 : ReverseWithin {} := fun ip peer hp => by cases hp
  rw [← invariant_iff_along (fun _ _ _ h hstep => step_reverseWithin_iff h hstep) h0 hrun]
  constructor
  · intro hall pre post m hsplit hm
    exact (hall pre post m hsplit hm).1
  · intro hall pre post m hsplit hm
    have hwithin := hall pre post m hsplit hm
    exact ⟨hwithin, hwithin.onRecv_not_reverse⟩

/-- Two TCP ports of the peer, each through a UDP port of its own, until the first is
remapped to the port of the second. -/
theorem reverse_within_iff_remapped :
    let es : List Event := [.connect 9 100, .connect 9 200, .disconnect 9 0x401,
      .datagram ⟨9, 100, 1, 5⟩, .datagram ⟨9, 200, 2, 5⟩, .datagram ⟨9, 200, 1, 5⟩]
    ∃ c, Run es c ∧ c.actualPort 9 0x400 = 200 ∧
      ∀ pre post m, es = pre ++ post → Run pre m →
        m.ReverseWithin ∧ ∀ d, failed (m.onRecv d) ≠ some .reverse := by
  exact exec_check_and (by decide +kernel) fun _ hrun _ =>
    (reverse_within_iff hrun).mpr (by decide +kernel)

/-- The peer sends from TCP ports 1 and 2 through the UDP port of the second entry, and
then from a TCP port that stands for the first entry. Port 2 still names the entry that was
dropped, and the next segment from it fails the assertion. -/
theorem dangling_reverse_entry :
    ∃ c, Run [.connect 9 100, .connect 9 200, .disconnect 9 0x401,
        .datagram ⟨9, 200, 1, 5⟩, .datagram ⟨9, 200, 2, 5⟩, .datagram ⟨9, 100, 3, 5⟩,
        .datagram ⟨9, 200, 3, 5⟩] c ∧
      ¬ c.ReverseWithin ∧ failed (c.onRecv ⟨9, 200, 2, 5⟩) = some .reverse := by
  obtain ⟨c, hrun, hfail⟩ : ∃ c, Run [.connect 9 100, .connect 9 200, .disconnect 9 0x401,
      .datagram ⟨9, 200, 1, 5⟩, .datagram ⟨9, 200, 2, 5⟩, .datagram ⟨9, 100, 3, 5⟩,
      .datagram ⟨9, 200, 3, 5⟩] c ∧ failed (c.onRecv ⟨9, 200, 2, 5⟩) = some .reverse :=
    exec_check (by decide +kernel)
  exact ⟨c, hrun, fun h => h.onRecv_not_reverse _ hfail, hfail⟩

end ConnectionInfo

end DTun.Util.Ltudp
