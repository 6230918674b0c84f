import Mathlib.Data.List.Perm.Basic
import DTun.Node.FastSession.Model

/-!
# Turns of a fast rendezvous

The two sides take turns: `READY` in flight, the peer getting ready, its `HELLO_FAST` in
flight, the address on its way to the owner, and the owner's socket open are one turn that
is passed on, and there is never more than one of them. So nothing that would make the
peer drop its socket is in flight while the owner has one.

A report of success (`CONN_CLOSE` with `established`, and then `ESTABLISHED`) is in flight
only towards a side that can use it, provided that the owner does not give up its socket
while the peer's report is in flight, that the peer does not accept a ping after the owner
has given up, and that a new socket of the owner does not meet pings of an earlier one.
-/

namespace DTun.Node.FastSession

open Lib.Runs

/-- The owner's session. -/
structure OwnerOk (o : Session) : Prop where
  owner : o.owner = true
  callback : o.callback = o.started
  idle : o.started = false → o.portReservation = .null
  /-- Before the reservation is granted nothing has been sent. -/
  waiting : o.portReservation ≠ .granted → o.ready = false
  socket : o.pingConn.isSome = true →
    o.started = true ∧ o.ready = true ∧ o.dest.isSome = true ∧ o.portReservation = .granted
  distinct : ∀ x, o.pingConn = some x → o.dest ≠ some x
  /-- At most one handler is posted, only while there is a socket, and none once the next
  reservation has been asked for. -/
  timers : o.checkTimers + o.pingTimers ≤ 1
  posted : 0 < o.checkTimers + o.pingTimers → o.pingConn.isSome = true
  next : o.portReservationNext ≠ .null →
    o.pingConn.isSome = true ∧ o.checkTimers + o.pingTimers = 0

/-- The peer's session. -/
structure PeerOk (p : Session) : Prop where
  owner : p.owner = false
  callback : p.callback = p.started
  idle : p.started = false → p.portReservation = .null
  socket : p.pingConn.isSome = true → p.started = true ∧ p.portReservation = .granted
  dest : p.dest.isSome = true → p.started = true
  next : p.portReservationNext = .null

/-- The peer has been asked and has not opened its socket yet. -/
def Session.preparing (p : Session) : Bool :=
  (!p.started && p.ready) || p.portReservation = .queued

def isFast : Down → Bool
  | .fast _ => true
  | _ => false

namespace State

variable {n n' : State}

def readies (n : State) : Nat := n.up.owner.count .ready + n.down.peer.count .ready

def preparing (n : State) : Nat := if (n.sess .peer).any Session.preparing then 1 else 0

def helloes (n : State) : Nat := n.hellos.countP (fun h => h.1 = .peer)

def fasts (n : State) : Nat := n.down.owner.countP isFast

def opened (n : State) : Nat := if (n.sess .owner).any (fun o => o.pingConn.isSome) then 1 else 0

/-- `CONN_CLOSE(established)` of side `i` will be relayed, or has been. -/
def Reported (n : State) (i : Side) : Prop :=
  (n.conn = true ∧ .close true ∈ n.up.get i) ∨ .status true ∈ n.down.get i.other

structure Inv (n : State) : Prop where
  owner : ∀ o, n.sess .owner = some o → OwnerOk o
  peer : ∀ p, n.sess .peer = some p → PeerOk p
  turn : n.readies + n.preparing + n.helloes + n.fasts + n.opened ≤ 1
  unasked : ∀ o, n.sess .owner = some o → o.portReservation ≠ .granted →
    n.readies + n.preparing + n.helloes + n.fasts + n.opened = 0
  answered : 0 < n.helloes + n.fasts + n.opened →
    ∀ p, n.sess .peer = some p → p.pingConn.isSome = true
  pinged : ∀ o x y, n.sess .owner = some o → o.pingConn = some x → o.dest = some y →
    (y, x) ∈ n.pings → ∀ p, n.sess .peer = some p → p.dest.isSome = true
  noReady : .ready ∉ n.up.peer ∧ .ready ∉ n.down.owner
  closed : .status true ∈ n.down.owner ∨ .status true ∈ n.down.peer → n.conn = false
  established : ∀ i s, n.sess i = some s → (n.entry.get i).established = true → n.conn = false
  ownerReport : n.Reported .owner → n.sess .owner = none ∧ n.readies = 0 ∧
    ∀ p, n.sess .peer = some p → p.Usable
  peerReport : n.Reported .peer → ∀ o, n.sess .owner = some o → o.Usable

theorem inv_init (bestEffort : Bool) : (init bestEffort).Inv := by
  refine ⟨?_, ?_, by decide +revert, by decide +revert, by decide +revert, ?_, ?_, ?_, ?_, ?_, ?_⟩
  · rintro _ ⟨⟩
    exact ⟨rfl, rfl, by simp, by simp, by simp, by simp, by simp, by simp, by simp⟩
  · rintro _ ⟨⟩
    exact ⟨rfl, rfl, by simp, by simp, by simp, rfl⟩
  · rintro _ _ _ ⟨⟩ ⟨⟩
  · exact ⟨List.not_mem_nil, List.not_mem_nil⟩
  · rintro (hm | hm) <;> cases hm
  · rintro (_ | _) _ ⟨⟩ ⟨⟩
  · rintro (⟨-, hm⟩ | hm) <;> cases hm
  · rintro (⟨-, hm⟩ | hm) <;> cases hm

/-- A side's entry becomes `e`, and it sends messages, `HELLO_FAST`s and pings. -/
def put (n : State) (i : Side) (e : Entry) (ms : List Up) (hs : List (Side × Addr))
    (ps : List (Addr × Addr)) : State :=
  { n with
    entry := n.entry.set i e
    up := n.up.set i (n.up.get i ++ ms)
    hellos := n.hellos ++ hs
    pings := n.pings ++ ps }

theorem act_of_none {i : Side} {env : Env} {out : Out} (h : out.done = none) :
    n.act i env out = n.put i { n.entry.get i with rSess := some out.sess } out.sent
      (out.hello.map (fun addr => (i, addr))).toList out.ping.toList := by
  simp only [act, h, put]

theorem act_of_some {i : Side} {env : Env} {out : Out} {ok : Bool} (h : out.done = some ok) :
    n.act i env out =
      n.put i { rSess := none, established := (ok && env.bound) || (n.entry.get i).established }
        (out.sent ++ if ok && env.bound then
          (if (n.entry.get i).established then [] else [.close true])
          else [.close (n.entry.get i).established])
        (out.hello.map (fun addr => (i, addr))).toList out.ping.toList := by
  cases i <;> simp only [act, h, put, onRendezvous, Pair.get_owner, Pair.get_peer, Pair.set_owner,
    Pair.set_peer, List.append_assoc] <;> rfl

section Moves

variable {e : Entry} {ms : List Up} {hs : List (Side × Addr)} {ps : List (Addr × Addr)}

/-- What the owner may do. -/
structure OwnerMove (n : State) (e : Entry) (ms : List Up) (hs : List (Side × Addr))
    (ps : List (Addr × Addr)) : Prop where
  ok : ∀ o, e.rSess = some o → OwnerOk o
  hello : ∀ q ∈ hs, q.1 = .owner
  turn : n.readies + ms.count .ready + n.preparing + n.helloes + n.fasts +
    (if e.rSess.any (fun o => o.pingConn.isSome) then 1 else 0) ≤ 1
  unasked : ∀ o, e.rSess = some o → o.portReservation ≠ .granted →
    n.readies + ms.count .ready + n.preparing + n.helloes + n.fasts +
      (if e.rSess.any (fun o => o.pingConn.isSome) then 1 else 0) = 0
  answered : ∀ o, e.rSess = some o → o.pingConn.isSome = true →
    ∀ p, n.sess .peer = some p → p.pingConn.isSome = true
  pinged : ∀ o x y, e.rSess = some o → o.pingConn = some x → o.dest = some y →
    (y, x) ∈ n.pings ++ ps → ∀ p, n.sess .peer = some p → p.dest.isSome = true
  established : ∀ o, e.rSess = some o → e.established = true → n.conn = false
  report : n.conn = true → .close true ∈ ms → e.rSess = none ∧ n.readies = 0 ∧
    .ready ∉ ms ∧ ∀ p, n.sess .peer = some p → p.Usable
  usable : n.Reported .peer → ∀ o, e.rSess = some o → o.Usable

/-- What the peer may do. -/
structure PeerMove (n : State) (e : Entry) (ms : List Up) (hs : List (Side × Addr))
    (ps : List (Addr × Addr)) : Prop where
  ok : ∀ p, e.rSess = some p → PeerOk p
  noReady : .ready ∉ ms
  turn : n.readies + (if e.rSess.any Session.preparing then 1 else 0) + n.helloes +
    hs.countP (fun h => h.1 = .peer) + n.fasts + n.opened ≤ 1
  unasked : ∀ o, n.sess .owner = some o → o.portReservation ≠ .granted →
    (if e.rSess.any Session.preparing then 1 else 0) + hs.countP (fun h => h.1 = .peer) = 0
  answered : 0 < n.helloes + hs.countP (fun h => h.1 = .peer) + n.fasts + n.opened →
    ∀ p, e.rSess = some p → p.pingConn.isSome = true
  pinged : ∀ o x y, n.sess .owner = some o → o.pingConn = some x → o.dest = some y →
    (y, x) ∈ n.pings ++ ps → ∀ p, e.rSess = some p → p.dest.isSome = true
  established : ∀ p, e.rSess = some p → e.established = true → n.conn = false
  report : n.conn = true → .close true ∈ ms → ∀ o, n.sess .owner = some o → o.Usable
  usable : n.Reported .owner → ∀ p, e.rSess = some p → p.Usable

theorem helloes_put (i : Side) :
    (n.put i e ms hs ps).helloes = n.helloes + hs.countP (fun h => h.1 = .peer) :=
  List.countP_append

theorem Inv.put_owner (h : n.Inv) {o : Session} (ho : n.sess .owner = some o)
    (hm : OwnerMove n e ms hs ps) : (n.put .owner e ms hs ps).Inv := by
  have hreadies : (n.put .owner e ms hs ps).readies = n.readies + ms.count .ready := by
    simp only [readies, put, Pair.set_owner, Pair.get_owner, List.count_append]
    omega
  have hhello : hs.countP (fun h => h.1 = .peer) = 0 := by
    rw [List.countP_eq_zero]
    intro q hq
    simp [hm.hello q hq]
  have hnot : ¬ n.Reported .owner := fun hr => by
    rw [(h.ownerReport hr).1] at ho
    cases ho
  refine ⟨hm.ok, h.peer, ?_, ?_, ?_, hm.pinged, h.noReady, h.closed, ?_, ?_, hm.usable⟩
  · rw [hreadies, helloes_put, hhello]
    exact hm.turn
  · intro o' ho' hg
    rw [hreadies, helloes_put, hhello]
    exact hm.unasked o' ho' hg
  · intro hpos
    rw [helloes_put, hhello] at hpos
    by_cases hopen : e.rSess.any (fun o => o.pingConn.isSome) = true
    · obtain ⟨o', ho', hx⟩ := (Option.any_eq_true _ _).mp hopen
      exact hm.answered o' ho' hx
    · refine h.answered ?_
      have hzero : (n.put .owner e ms hs ps).opened = 0 := if_neg hopen
      have hfasts : (n.put .owner e ms hs ps).fasts = n.fasts := rfl
      omega
  · intro i s hs'
    cases i with
    | owner => exact hm.established s hs'
    | peer => exact h.established .peer s hs'
  · rintro (⟨hc, hmem⟩ | hmem)
    · rcases List.mem_append.mp hmem with hold | hnew
      · exact absurd (Or.inl ⟨hc, hold⟩) hnot
      · obtain ⟨hnone, hr, hready, hp⟩ := hm.report hc hnew
        exact ⟨hnone, by rw [hreadies, hr, List.count_eq_zero_of_not_mem hready], hp⟩
    · exact absurd (Or.inr hmem) hnot

theorem Inv.put_peer (h : n.Inv) (hm : PeerMove n e ms hs ps) : (n.put .peer e ms hs ps).Inv := by
  refine ⟨h.owner, hm.ok, ?_, ?_, ?_, hm.pinged, ⟨?_, h.noReady.2⟩, h.closed, ?_, ?_, ?_⟩
  · rw [helloes_put]
    have hturn := hm.turn
    change n.readies + (if e.rSess.any Session.preparing then 1 else 0) + (n.helloes + _) +
      n.fasts + n.opened ≤ 1
    omega
  · intro o ho hg
    rw [helloes_put]
    have hold := h.unasked o ho hg
    have hnew := hm.unasked o ho hg
    change n.readies + (if e.rSess.any Session.preparing then 1 else 0) + (n.helloes + _) +
      n.fasts + n.opened = 0
    omega
  · intro hpos
    rw [helloes_put] at hpos
    exact hm.answered hpos
  · exact fun hmem => (List.mem_append.mp hmem).elim h.noReady.1 hm.noReady
  · intro i s hs'
    cases i with
    | owner => exact h.established .owner s hs'
    | peer => exact hm.established s hs'
  · intro hr
    obtain ⟨hnone, hready, -⟩ := h.ownerReport hr
    exact ⟨hnone, hready, hm.usable hr⟩
  · rintro (⟨hc, hmem⟩ | hmem)
    · rcases List.mem_append.mp hmem with hold | hnew
      · exact h.peerReport (Or.inl ⟨hc, hold⟩)
      · exact hm.report hc hnew
    · exact h.peerReport (Or.inr hmem)

end Moves

/-- Messages are read, relayed or lost, no turn is added and no report appears. -/
theorem Inv.channels (h : n.Inv) (hentry : n'.entry = n.entry)
    (hconn : n'.conn = true → n.conn = true) (hreadies : n'.readies ≤ n.readies)
    (hanswers : n'.helloes + n'.fasts ≤ n.helloes + n.fasts)
    (hpings : ∀ q ∈ n'.pings, q ∈ n.pings)
    (hnoReady : .ready ∉ n'.up.peer ∧ .ready ∉ n'.down.owner)
    (hclosed : .status true ∈ n'.down.owner ∨ .status true ∈ n'.down.peer → n'.conn = false)
    (hreported : ∀ i, n'.Reported i → n.Reported i) : n'.Inv := by
  have hsess : ∀ i, n'.sess i = n.sess i := fun i => by rw [sess, sess, hentry]
  have hpreparing : n'.preparing = n.preparing := by rw [preparing, preparing, hsess]
  have hopened : n'.opened = n.opened := by rw [opened, opened, hsess]
  have hturn := h.turn
  refine ⟨?_, ?_, by omega, ?_, ?_, ?_, hnoReady, hclosed, ?_, ?_, ?_⟩
  · simpa only [hsess] using h.owner
  · simpa only [hsess] using h.peer
  · intro o ho hg
    have := h.unasked o (hsess _ ▸ ho) hg
    omega
  · intro hpos
    simpa only [hsess] using h.answered (by omega)
  · intro o x y ho hx hy hm
    simpa only [hsess] using h.pinged o x y (hsess _ ▸ ho) hx hy (hpings _ hm)
  · intro i s hs he
    have hc := h.established i s (hsess i ▸ hs) (hentry ▸ he)
    exact Bool.eq_false_iff.mpr fun hc' => Bool.eq_false_iff.mp hc (hconn hc')
  · intro hr
    obtain ⟨hnone, hready, hp⟩ := h.ownerReport (hreported _ hr)
    simp only [hsess]
    exact ⟨hnone, by omega, hp⟩
  · intro hr
    simpa only [hsess] using h.peerReport (hreported _ hr)

theorem Inv.popDown (h : n.Inv) {i : Side} {msg : Down} {rest : List Down}
    (hd : n.down.get i = msg :: rest) : Inv { n with down := n.down.set i rest } := by
  have hsub : ∀ j, ((n.down.set i rest).get j).Sublist (n.down.get j) := by
    intro j
    cases i <;> cases j <;>
      first
      | exact .refl _
      | exact hd ▸ List.sublist_cons_self _ _
  refine h.channels rfl id ?_ ?_ (fun _ => id) ?_ ?_ ?_
  · exact Nat.add_le_add_left ((hsub .peer).count_le _) _
  · exact Nat.add_le_add_left (hsub .owner).countP_le _
  · exact ⟨h.noReady.1, fun hm => h.noReady.2 ((hsub .owner).subset hm)⟩
  · exact fun hm => h.closed (hm.imp (fun hm => (hsub .owner).subset hm)
      fun hm => (hsub .peer).subset hm)
  · exact fun j hr => hr.imp id fun hm => (hsub j.other).subset hm

theorem Inv.popUp (h : n.Inv) {i : Side} {msg : Up} {rest : List Up}
    (hd : n.up.get i = msg :: rest) : Inv { n with up := n.up.set i rest } := by
  have hsub : ∀ j, ((n.up.set i rest).get j).Sublist (n.up.get j) := by
    intro j
    cases i <;> cases j <;>
      first
      | exact .refl _
      | exact hd ▸ List.sublist_cons_self _ _
  refine h.channels rfl id ?_ (Nat.le_refl _) (fun _ => id) ?_ h.closed ?_
  · exact Nat.add_le_add_right ((hsub .owner).count_le _) _
  · exact ⟨fun hm => h.noReady.1 ((hsub .peer).subset hm), h.noReady.2⟩
  · exact fun j hr => hr.imp (fun ⟨hc, hm⟩ => ⟨hc, (hsub j).subset hm⟩) id

/-- The server tells a side something that is neither a turn nor a report. -/
theorem Inv.tell (h : n.Inv) (i : Side) {msg : Down} (hready : msg ≠ .ready)
    (hfast : i = .owner → isFast msg = false) (hstatus : msg ≠ .status true) {conn : Bool}
    (hconn : conn = true → n.conn = true) :
    Inv { n with conn := conn, down := n.down.set i (n.down.get i ++ [msg]) } := by
  have hmem : ∀ m j, m ∈ (n.down.set i (n.down.get i ++ [msg])).get j → m ≠ msg →
      m ∈ n.down.get j := by
    intro m j hm hne
    cases i <;> cases j <;> simp_all
  refine h.channels rfl hconn ?_ ?_ (fun _ => id) ?_ ?_ ?_
  · cases i <;> simp [readies, hready]
  · cases i with
    | owner => simp [helloes, fasts, hfast rfl]
    | peer => exact Nat.le_refl _
  · exact ⟨h.noReady.1, fun hm => h.noReady.2 (hmem _ .owner hm hready.symm)⟩
  · intro hm
    have hc := h.closed (hm.imp (fun hm => hmem _ .owner hm hstatus.symm)
      fun hm => hmem _ .peer hm hstatus.symm)
    exact Bool.eq_false_iff.mpr fun hc' => Bool.eq_false_iff.mp hc (hconn hc')
  · exact fun j hr => hr.imp (fun ⟨hc, hm⟩ => ⟨hconn hc, hm⟩)
      fun hm => hmem _ j.other hm hstatus.symm

/-- `READY` is only sent by the owner. -/
theorem Inv.relay_ready (h : n.Inv) {i : Side} {rest : List Up}
    (hup : n.up.get i = .ready :: rest) :
    Inv { n with
      up := n.up.set i rest, down := n.down.set i.other (n.down.get i.other ++ [.ready]) } := by
  cases i with
  | peer => exact absurd (by rw [← Pair.get_peer, hup]; exact List.mem_cons_self) h.noReady.1
  | owner =>
    refine h.channels rfl id ?_ (Nat.le_refl _) (fun _ => id) h.noReady ?_ ?_
    · simp only [Pair.get_owner] at hup
      simp [readies, hup]
      omega
    · simpa using h.closed
    · rintro (_ | _) (⟨hc, hm⟩ | hm)
      · exact Or.inl ⟨hc, by rw [hup]; exact List.mem_cons_of_mem _ hm⟩
      · exact Or.inr (by simpa using hm)
      · exact Or.inl ⟨hc, hm⟩
      · exact Or.inr hm

theorem Inv.relay_report (h : n.Inv) {i : Side} {rest : List Up} (hconn : n.conn = true)
    (hup : n.up.get i = .close true :: rest) :
    Inv { n with
      up := n.up.set i rest, down := n.down.set i.other (n.down.get i.other ++ [.status true])
      conn := false } := by
  refine h.channels rfl nofun ?_ ?_ (fun _ => id) ?_ (fun _ => rfl) ?_
  · cases i <;> simp_all [readies]
  · cases i <;> simp [helloes, fasts, isFast]
  · have := h.noReady
    cases i <;> simp_all
  · rintro j (⟨⟨⟩, -⟩ | hm)
    by_cases hij : j = i
    · subst hij
      exact Or.inl ⟨hconn, by rw [hup]; exact List.mem_cons_self⟩
    · refine Or.inr ?_
      cases i <;> cases j <;> simp_all

theorem Inv.relays (h : n.Inv) {i : Side} {msg : Up} {rest : List Up}
    (hup : n.up.get i = msg :: rest) (hconn : n.conn = true) :
    (relay { n with up := n.up.set i rest } i msg).Inv := by
  unfold relay
  rw [if_pos hconn]
  cases msg with
  | ready => exact h.relay_ready hup
  | next => exact (h.popUp hup).tell i.other (by decide) (fun _ => rfl) (by decide) id
  | close established =>
    cases established with
    | false => exact (h.popUp hup).tell i.other (by decide) (fun _ => rfl) (by decide) nofun
    | true => exact h.relay_report hconn hup

theorem Inv.loseHello (h : n.Inv) (k : Nat) : Inv { n with hellos := n.hellos.eraseIdx k } := by
  have hsub : (n.hellos.eraseIdx k).Sublist n.hellos := List.eraseIdx_sublist _ _
  exact h.channels rfl id (Nat.le_refl _) (Nat.add_le_add_right hsub.countP_le _) (fun _ => id)
    h.noReady h.closed fun _ => id

theorem Inv.losePing (h : n.Inv) (k : Nat) : Inv { n with pings := n.pings.eraseIdx k } :=
  h.channels rfl id (Nat.le_refl _) (Nat.le_refl _)
    (fun _ hm => (List.eraseIdx_sublist _ _).subset hm) h.noReady h.closed fun _ => id

theorem Inv.disconnect (h : n.Inv) (i : Side) :
    Inv { n with
      conn := false
      down := if n.conn then n.down.set i.other (n.down.get i.other ++ [.status false])
        else n.down } := by
  cases hconn : n.conn with
  | false =>
    have heq : { n with conn := false } = n := by rw [← hconn]
    simpa [heq] using h
  | true =>
    have hready : Down.status false ≠ .ready := nofun
    have hclosed : false = true → n.conn = true := nofun
    simpa using h.tell i.other hready (fun _ => rfl) (by decide) hclosed

theorem Inv.servesHello (h : n.Inv) {k : Nat} {i : Side} {addr : Addr}
    (hk : n.hellos[k]? = some (i, addr)) :
    Inv { n with
      hellos := n.hellos.eraseIdx k
      down := if n.conn then n.down.set i.other (n.down.get i.other ++ [.fast addr])
        else n.down } := by
  have hold := h.loseHello k
  cases hconn : n.conn with
  | false => simpa [hconn] using hold
  | true =>
    cases i with
    | owner =>
      have hready : Down.fast addr ≠ .ready := nofun
      simpa [hconn] using hold.tell .peer hready nofun nofun id
    | peer =>
      obtain ⟨hlt, hget⟩ := List.getElem?_eq_some_iff.mp hk
      have hcount : n.helloes = (n.hellos.eraseIdx k).countP (fun h => h.1 = .peer) + 1 := by
        rw [helloes, ← (List.getElem_cons_eraseIdx_perm hlt).countP_eq, hget]
        simp
      refine h.channels rfl (fun _ => hconn) (Nat.le_refl _) ?_ (fun _ => id) ?_ ?_ ?_
      · rw [hcount]
        simp [helloes, fasts, isFast]
        omega
      · simpa [hconn] using h.noReady
      · simpa [hconn] using h.closed
      · rintro (_ | _) <;> simp [Reported, hconn]

end State

end DTun.Node.FastSession
