import DTun.Lib.Permits
import DTun.Node.FastSession.Established
import DTun.Node.FastSession.Requests

/-!
# The pings of one attempt

A side may ping while `next_` is set, a ping that has been sent makes it send `NEXT`, and
`NEXT` sets `next_` of the other side. These are the permits of `Lib.Permits`: every step
within one attempt leaves them alone, or sends, completes or delivers. So the sides do not
wait for each other, and one is at most one ping ahead.
-/

namespace DTun.Node.FastSession

open Lib.Runs Lib

/-- What is known of a session within an attempt: pings are pending only while there is a
socket, and so never when a new one is opened. -/
structure Paced (s : Session) (m : Option Down) : Prop where
  callback : 0 < s.writes → s.callback = true
  waiting : s.portReservation ≠ .granted → s.writes = 0
  unstarted : s.started = false → s.writes = 0
  next : s.owner = false → s.portReservationNext = .null
  /-- The owner reads an address only while it has no socket, and never `READY`. -/
  fast : s.owner = true → m.any isFast = true → s.writes = 0
  ready : s.owner = true → m ≠ some .ready

/-- A handler and the permit of its session: `ping` is whether it pings. -/
inductive Passes (s : Session) (m : Option Down) (out : Out) : Bool → Prop
  | quiet (read : m ≠ some .next) (next : out.sess.next = s.next)
      (writes : out.sess.writes = s.writes) (sent : .next ∉ out.sent) : Passes s m out false
  | pings (read : m = none) (permit : s.next = true) (next : out.sess.next = false)
      (writes : out.sess.writes = s.writes + 1) (sent : .next ∉ out.sent) : Passes s m out true
  | completes (read : m = none) (pending : 0 < s.writes) (next : out.sess.next = s.next)
      (writes : out.sess.writes = s.writes - 1) (sent : out.sent = [.next]) : Passes s m out false
  | permits (read : m = some .next) (next : out.sess.next = true)
      (writes : out.sess.writes = s.writes) (sent : out.sent = []) : Passes s m out false

/-- The session pings at the event. -/
def Session.pingsAt (s : Session) : Event → Bool
  | .pingTimeout _ _ => s.callback && s.next
  | _ => false

variable {s t : Session} {env : Env} {out : Out} {i : Side} {e : Event} {m : Option Down}

theorem none_ne_next : (none : Option Down) ≠ some .next := (Option.some_ne_none _).symm

theorem openSocket_passes (hm : m ≠ some .next) (hd : (t.openSocket env).done = none)
    (hnext : t.next = s.next) (hwrites : s.writes = 0) :
    Passes s m (t.openSocket env) false := by
  rcases openSocket_cases t env with ⟨u, hu⟩ | ⟨x, -, hout⟩
  · rw [hu] at hd
    cases hd
  · rw [hout]
    exact .quiet hm hnext hwrites.symm List.not_mem_nil

theorem nextAttempt_stepIdx : t.nextAttempt.sess.stepIdx = t.stepIdx + 1 := rfl

/-- `onPortReservation`, unless it goes on to the next attempt. -/
theorem onPortReservation_passes (hm : m ≠ some .next)
    (hd : (t.onPortReservation env).done = none) (hnext : t.next = s.next)
    (hkept : t.writes = s.writes)
    (hstep : (t.onPortReservation env).sess.stepIdx ≠ t.stepIdx + 1)
    (hwrites : t.ready = true → t.owner = false ∨ t.portReservationNext = .null →
      s.writes = 0) : Passes s m (t.onPortReservation env) false := by
  have hcases := onPortReservation_cases t env
  generalize t.onPortReservation env = out at hd hstep hcases ⊢
  cases hcases with
  | waits => exact .quiet hm hnext hkept List.not_mem_nil
  | asks => exact .quiet hm hnext hkept (by simp)
  | goesOn => exact absurd nextAttempt_stepIdx hstep
  | opens hready hlast => exact openSocket_passes hm hd hnext (hwrites hready hlast)

theorem onPortReservation_stepIdx (hd : (t.onPortReservation env).done = none) :
    t.stepIdx ≤ (t.onPortReservation env).sess.stepIdx := by
  have hcases := onPortReservation_cases t env
  generalize t.onPortReservation env = out at hd hcases ⊢
  cases hcases with
  | waits | asks => exact Nat.le_refl _
  | goesOn => exact Nat.le_succ _
  | opens =>
    rcases openSocket_cases t env with ⟨u, hu⟩ | ⟨x, -, hout⟩
    · rw [hu] at hd
      cases hd
    · exact Nat.le_of_eq (by rw [hout])

theorem start_passes (h : Paced s none) (hfresh : s.started = false)
    (hout : s.start env = some out) : Passes s none out false := by
  cases start_cases hout with
  | queued | waits | answerQueued => exact .quiet none_ne_next rfl rfl List.not_mem_nil
  | granted => exact .quiet none_ne_next rfl rfl (by simp)
  | opens _ _ hsocket hd =>
    subst hsocket
    exact openSocket_passes none_ne_next hd rfl (h.unstarted hfresh)

theorem onGranted_passes (h : Paced s none) {next : Bool} (hout : s.onGranted next env = some out)
    (hd : out.done = none) (hstep : out.sess.stepIdx = s.stepIdx) : Passes s none out false := by
  have hnot : out.sess.stepIdx ≠ s.stepIdx + 1 := hstep ▸ Nat.ne_of_lt (Nat.lt_succ_self _)
  cases onGranted_cases hout with
  | first hq =>
    refine onPortReservation_passes none_ne_next hd rfl rfl hnot ?_
    exact fun _ _ => h.waiting (by rw [hq]; decide)
  | next hq =>
    refine onPortReservation_passes none_ne_next hd rfl rfl hnot ?_
    rintro - (howner | hnull)
    · cases hq.symm.trans (h.next howner)
    · cases hnull

theorem onPingTimeout_passes (hd : (s.onPingTimeout env).done = none)
    (hstep : (s.onPingTimeout env).sess.stepIdx = s.stepIdx) :
    Passes s none (s.onPingTimeout env) (s.callback && s.next) := by
  have hcases := onPingTimeout_cases s env
  generalize s.onPingTimeout env = out at hcases hd hstep ⊢
  have hpings : s.callback = true → s.next = true → (s.callback && s.next) = true := by
    intro hcallback hnext
    rw [hcallback, hnext]
    rfl
  cases hcases with
  | ended hcallback =>
    rw [show (s.callback && s.next) = false by rw [hcallback, Bool.false_and]]
    exact .quiet none_ne_next rfl rfl List.not_mem_nil
  | waits _ hnext =>
    rw [show (s.callback && s.next) = false by rw [hnext, Bool.and_false]]
    exact .quiet none_ne_next rfl rfl List.not_mem_nil
  | pings hcallback hnext =>
    rw [hpings hcallback hnext]
    exact .pings rfl hnext rfl rfl List.not_mem_nil
  | gaveUp => cases hd
  | refused => cases hd
  | queued hlast =>
    rw [hpings hlast.callback hlast.next]
    exact .pings rfl hlast.next rfl rfl List.not_mem_nil
  | granted hlast =>
    rw [hpings hlast.callback hlast.next]
    by_cases hready : s.ready = true
    · -- The owner would be at its next attempt.
      rw [onPortReservation_next (s := s.pinged .granted) hlast.callback hready hlast.owner rfl]
        at hstep
      cases (Nat.succ_ne_self _) hstep
    · have hasks : (s.pinged .granted).onPortReservation env =
          { sess := { s.pinged .granted with ready := true }, sent := [.ready] } := by
        simp [Session.onPortReservation, Session.pinged, hlast.callback, hlast.owner, hready]
      rw [hasks]
      exact .pings rfl hlast.next rfl rfl (by simp [Out.withPing])

/-- A peer that has ports drops the last attempt, so that it is at the next one. -/
theorem readied_peer (howner : s.owner = false) :
    (s.portReservation = .null ∧ s.readied = { s with ready := true }) ∨
      s.readied = Session.restart { s with ready := true } := by
  by_cases hnull : s.portReservation = .null
  · exact .inl ⟨hnull, if_neg (by simp [hnull])⟩
  · exact .inr (if_pos (by simp [howner, hnull]))

theorem onReady_passes (h : Paced s (some .ready)) (hd : (s.onReady env).done = none)
    (hstep : (s.onReady env).sess.stepIdx = s.stepIdx) :
    Passes s (some .ready) (s.onReady env) false := by
  have howner : s.owner = false := Bool.eq_false_iff.mpr fun ho => h.ready ho rfl
  have hm : some Down.ready ≠ some .next := by simp
  have hcases := onReady_cases s env
  generalize s.onReady env = out at hcases hd hstep ⊢
  cases hcases with
  | early => exact .quiet hm rfl rfl List.not_mem_nil
  | refused => cases hd
  | queued _ hagain =>
    rcases readied_peer howner with ⟨-, heq⟩ | heq
    · cases hagain.symm.trans heq
      exact .quiet hm rfl rfl List.not_mem_nil
    · cases hagain.symm.trans heq
      exact absurd hstep (Nat.succ_ne_self _)
  | granted _ hagain =>
    rcases readied_peer howner with ⟨hnull, heq⟩ | heq
    · cases hagain.symm.trans heq
      refine onPortReservation_passes hm hd rfl rfl ?_ fun _ _ => h.waiting (by rw [hnull]; decide)
      rw [hstep]
      exact Nat.ne_of_lt (Nat.lt_succ_self _)
    · cases hagain.symm.trans heq
      have hle := onPortReservation_stepIdx hd
      rw [hstep] at hle
      exact absurd hle (Nat.not_succ_le_self _)

/-- Every handler within an attempt, unless a ping could not be sent. -/
theorem Handles.passes (hh : Handles i e m s env out) (h : Paced s m) (hd : out.done = none)
    (hstep : out.sess.stepIdx = s.stepIdx) (hsend : e ≠ .pingSent i false) :
    Passes s m out (s.pingsAt e) := by
  cases hh with
  | start hfresh hout => exact start_passes h hfresh hout
  | granted hout => exact onGranted_passes h hout hd hstep
  | helloSent =>
    simp only [Session.onHelloSend] at hd ⊢
    split
    · exact .quiet none_ne_next rfl rfl List.not_mem_nil
    · rename_i hcallback
      rw [if_neg hcallback] at hd
      split
      · exact .quiet none_ne_next rfl rfl List.not_mem_nil
      · rename_i hok
        rw [if_neg hok] at hd
        cases hd
  | checkStart =>
    simp only [Session.onCheckStartTimeout]
    split
    · exact .quiet none_ne_next rfl rfl List.not_mem_nil
    · split <;> exact .quiet none_ne_next rfl rfl List.not_mem_nil
  | pingTimeout => exact onPingTimeout_passes hd hstep
  | @pingSent _ ok hpending =>
    cases ok with
    | false => exact absurd rfl hsend
    | true =>
      simp only [Session.onPingSend, h.callback hpending, Bool.not_true, Bool.false_eq_true,
        if_false, if_true]
      exact .completes rfl hpending rfl rfl rfl
  | recvPing =>
    simp only [Session.onRecvPing] at hd ⊢
    split
    · exact .quiet none_ne_next rfl rfl List.not_mem_nil
    · rename_i hdest
      rw [if_neg hdest] at hd
      split
      · rename_i hsrc
        rw [if_pos hsrc] at hd
        cases hd
      · exact .quiet none_ne_next rfl rfl List.not_mem_nil
  | readError =>
    simp only [Session.onRecvPing] at hd ⊢
    split
    · exact .quiet none_ne_next rfl rfl List.not_mem_nil
    · rename_i hdest
      rw [if_neg hdest] at hd
      cases hd
  | ready => exact onReady_passes h hd hstep
  | next => exact .permits rfl rfl rfl rfl
  | fast =>
    simp only [Session.onFast] at hd hstep ⊢
    split
    · exact .quiet (by simp) rfl rfl List.not_mem_nil
    · rename_i hcallback
      rw [if_neg hcallback] at hd hstep
      split
      · rename_i howner
        rw [if_pos howner] at hd hstep
        refine onPortReservation_passes (by simp) hd rfl rfl ?_ fun _ _ => h.fast howner rfl
        rw [hstep]
        exact Nat.ne_of_lt (Nat.lt_succ_self _)
      · exact .quiet (by simp) rfl rfl List.not_mem_nil

theorem Asker.paced (h : Asker s) (hfast : m.any isFast = true → s.pingConn = none)
    (hready : m ≠ some .ready) : Paced s m := by
  have hwaiting : s.portReservation ≠ .granted → s.writes = 0 :=
    fun hg => (h.closed (h.unopened hg)).1
  refine ⟨fun hpos => ?_, hwaiting, ?_, ?_, fun _ hm => (h.closed (hfast hm)).1, fun _ => hready⟩
  · have hgranted : s.portReservation = .granted :=
      Decidable.not_not.mp fun hg => by have := hwaiting hg; omega
    exact h.callback.trans (h.started (by rw [hgranted]; decide))
  · intro hf
    exact hwaiting (by rw [h.idle.mp hf]; decide)
  · exact fun hf => Bool.noConfusion (h.owner.symm.trans hf)

theorem Answerer.paced (h : Answerer s) : Paced s m := by
  have hwaiting : s.portReservation ≠ .granted → s.writes = 0 :=
    fun hg => (h.closed (h.unopened hg)).1
  refine ⟨fun hpos => ?_, hwaiting, ?_, fun _ => h.next, ?_, ?_⟩
  · have hgranted : s.portReservation = .granted :=
      Decidable.not_not.mp fun hg => by have := hwaiting hg; omega
    exact h.callback.trans (h.started (by rw [hgranted]; decide))
  · intro hf
    exact hwaiting (by rw [h.unstarted hf]; decide)
  · exact fun ht => Bool.noConfusion (h.owner.symm.trans ht)
  · exact fun ht => Bool.noConfusion (h.owner.symm.trans ht)

namespace State

variable {n n' : State} {ds : List Down}

theorem Turn.paced (h : n.Turn) (hs : n.sess i = some s) (hread : n.down.get i = m.toList ++ ds) :
    Paced s m := by
  cases i with
  | owner =>
    exact (h.owner s hs).paced (fun hm => (h.reads_fast hs hread hm).1) (h.owner_reads hread)
  | peer => exact (h.peer s hs).paced

/-- The pings that side `i` sends at the event, by their TTL. -/
def pingsBy (i : Side) (n : State) (e : Event) : List Nat :=
  match n.sess i, e with
  | some s, .pingTimeout j _ => if j = i && s.callback && s.next then [s.ttl] else []
  | _, _ => []

/-- The permits of both sides; `c` is how often each has pinged. -/
def exchange (n : State) (c : Side → Nat) (i : Side) : Permits.Party where
  permit := (n.sess i).any Session.next
  pending := (n.sess i).elim 0 Session.writes
  flight := (n.up.get i).count .next + (n.down.get i.other).count .next
  sent := c i

/-- No side has completed, and the server relays. -/
def Open (n : State) : Prop := n.conn = true ∧ ∀ i, (n.sess i).isSome = true

/-- Side `i` is in the same attempt in both states. -/
def sameAttempt (n n' : State) (i : Side) : Bool :=
  (n.sess i).all fun s => (n'.sess i).all fun s' => s'.stepIdx = s.stepIdx

/-- The step belongs to the attempt that the sides are in, and no ping fails to be sent. -/
def inAttempt (n : State) (e : Event) : Bool :=
  e ≠ .pingSent .owner false && e ≠ .pingSent .peer false &&
    (n.step e).all fun n' => n.sameAttempt n' .owner && n.sameAttempt n' .peer

theorem inAttempt_send (h : n.inAttempt e = true) (i : Side) : e ≠ .pingSent i false := by
  simp only [inAttempt, Bool.and_eq_true, decide_eq_true_eq] at h
  cases i with
  | owner => exact h.1.1
  | peer => exact h.1.2

theorem inAttempt_stepIdx (h : n.inAttempt e = true) (hs : n.step e = some n') {s s' : Session}
    (hsess : n.sess i = some s) (hsess' : n'.sess i = some s') : s'.stepIdx = s.stepIdx := by
  simp only [inAttempt, hs, Option.all_some, Bool.and_eq_true] at h
  have hi : n.sameAttempt n' i = true := by
    cases i with
    | owner => exact h.2.1
    | peer => exact h.2.2
  simpa [sameAttempt, hsess, hsess'] using hi

theorem exchange_of_some {c : Side → Nat} (hs : n.sess i = some s) :
    n.exchange c i =
      { permit := s.next, pending := s.writes, sent := c i
        flight := (n.up.get i).count .next + (n.down.get i.other).count .next } := by
  simp only [exchange, hs, Option.any_some, Option.elim_some]

/-- The step leaves the permits alone or is a move of one of them. -/
def Moves (x x' : Side → Permits.Party) : Prop :=
  x' = x ∨ ∃ move, Permits.step Side.other x move = some x'

theorem side_ext {α : Type} {x y : Side → α} (i : Side) (hi : x i = y i)
    (ho : x i.other = y i.other) : x = y := by
  funext j
  cases i <;> cases j <;>
    first
    | exact hi
    | exact ho

section Acts

variable {c : Side → Nat} {ms : List Up} {hs : List (Side × Addr)} {ps : List (Addr × Addr)}

theorem exchange_does_self :
    (n.does i ds (n.entryWith i s) ms hs ps).exchange c i =
      { permit := s.next, pending := s.writes, sent := c i
        flight := (n.up.get i).count .next + ms.count .next +
          (n.down.get i.other).count .next } := by
  cases i <;> simp [exchange, does, put, sess, entryWith]

theorem exchange_does_other :
    (n.does i ds (n.entryWith i s) ms hs ps).exchange c i.other =
      { n.exchange c i.other with
        flight := (n.up.get i.other).count .next + ds.count .next } := by
  cases i <;> rfl

/-- What the other side sees, unless a permit has been read. -/
theorem exchange_does_kept {c' : Side → Nat} (hread : n.down.get i = m.toList ++ ds)
    (hm : m ≠ some .next) (hc : c' i.other = c i.other) :
    (n.does i ds (n.entryWith i s) ms hs ps).exchange c' i.other = n.exchange c i.other := by
  have hcount : (n.down.get i).count .next = ds.count .next := by
    rw [hread, List.count_append]
    cases m with
    | none => exact Nat.zero_add _
    | some msg =>
      have hmsg : msg ≠ .next := fun he => hm (by rw [he])
      simp [hmsg]
  rw [exchange_does_other]
  simp only [exchange, Side.other_other, hcount, hc]

/-- A handler of side `i` moves the permits as its session does. -/
theorem passes_moves {ping : Bool} {c' : Side → Nat} (hp : Passes s m out ping)
    (hsess : n.sess i = some s) (hread : n.down.get i = m.toList ++ ds)
    (hself : c' i = c i + ping.toNat) (hother : c' i.other = c i.other) :
    Moves (n.exchange c)
      ((n.does i ds (n.entryWith i out.sess) out.sent hs ps).exchange c') := by
  have hold := exchange_of_some (c := c) hsess
  cases hp with
  | quiet hm hnext hwrites hsent =>
    refine Or.inl (side_ext i ?_ (exchange_does_kept hread hm hother))
    rw [exchange_does_self, hold, hnext, hwrites, List.count_eq_zero_of_not_mem hsent, hself]
    rfl
  | pings hm hpermit hnext hwrites hsent =>
    refine Or.inr ⟨.send i, ?_⟩
    rw [Permits.step, if_pos (by rw [hold]; exact hpermit)]
    refine congrArg some (side_ext i ?_ ?_)
    · rw [Function.update_self, exchange_does_self, hold, hnext, hwrites,
        List.count_eq_zero_of_not_mem hsent, hself]
      rfl
    · rw [Function.update_of_ne (Side.other_ne i),
        exchange_does_kept hread (by rw [hm]; nofun) hother]
  | completes hm hpending hnext hwrites hsent =>
    refine Or.inr ⟨.complete i, ?_⟩
    rw [Permits.step, if_pos (by rw [hold]; exact hpending)]
    refine congrArg some (side_ext i ?_ ?_)
    · rw [Function.update_self, exchange_does_self, hold, hnext, hwrites, hsent, hself,
        List.count_singleton_self, Nat.add_right_comm]
      rfl
    · rw [Function.update_of_ne (Side.other_ne i),
        exchange_does_kept hread (by rw [hm]; nofun) hother]
  | permits hm hnext hwrites hsent =>
    have hflight : (n.exchange c i.other).flight =
        (n.up.get i.other).count .next + (ds.count .next + 1) := by
      simp only [exchange, Side.other_other, hread, hm, Option.toList_some, List.singleton_append,
        List.count_cons_self]
    refine Or.inr ⟨.deliver i.other, ?_⟩
    rw [Permits.step, if_pos (by rw [hflight]; exact Nat.succ_pos _), Side.other_other]
    refine congrArg some (side_ext i ?_ ?_)
    · rw [Function.update_self, exchange_does_self, hold, hnext, hwrites, hsent, hself]
      rfl
    · rw [Function.update_of_ne (Side.other_ne i), Function.update_self, exchange_does_other,
        hflight]
      simp only [exchange, hother, Nat.add_succ_sub_one]

theorem pingsBy_self {env : Env} (hh : Handles i e m s env out) (hsess : n.sess i = some s) :
    (n.pingsBy i e).length = (s.pingsAt e).toNat := by
  cases hh <;> simp only [pingsBy, hsess, Session.pingsAt] <;>
    first
    | rfl
    | (cases s.callback <;> cases s.next <;> simp)

theorem pingsBy_other {j : Side} {env : Env} (hj : i ≠ j) (hh : Handles i e m s env out) :
    n.pingsBy j e = [] := by
  cases hh <;> cases hsess : n.sess j <;> simp [pingsBy, hsess, hj]

/-- The events at which no side pings. -/
theorem pingsBy_nil (h : ∀ j env, e ≠ .pingTimeout j env) (j : Side) : n.pingsBy j e = [] := by
  unfold pingsBy
  split
  · exact absurd rfl (h _ _)
  · rfl

/-- How often the sides have pinged after the event. -/
def pingsAfter (n : State) (c : Side → Nat) (e : Event) (i : Side) : Nat :=
  c i + (n.pingsBy i e).length

theorem act_moves {env : Env} (h : n.Turn) (hsess : n.sess i = some s)
    (hread : n.down.get i = m.toList ++ ds) (hh : Handles i e m s env out)
    (hs' : n.step e = some (act { n with down := n.down.set i ds } i env out))
    (hin : n.inAttempt e = true)
    (ho : Open (act { n with down := n.down.set i ds } i env out)) :
    Moves (n.exchange c)
      (exchange (act { n with down := n.down.set i ds } i env out) (n.pingsAfter c e)) := by
  obtain ⟨s', hs''⟩ := Option.isSome_iff_exists.mp (ho.2 i)
  obtain ⟨hd, rfl, -⟩ := sess_act_self hs''
  have hstep := inAttempt_stepIdx hin hs' hsess hs''
  have hpasses := hh.passes (h.paced hsess hread) hd hstep (inAttempt_send hin i)
  rw [act_does hd]
  apply passes_moves hpasses hsess hread
  · rw [pingsAfter, pingsBy_self hh hsess]
  · rw [pingsAfter, pingsBy_other (Side.other_ne i).symm hh]
    rfl

end Acts

/-- The permits do not change when the sessions do not and no `NEXT` gets lost. -/
theorem exchange_eq {c : Side → Nat} (hsess : ∀ i, n'.sess i = n.sess i)
    (hnext : ∀ i, (n'.up.get i).count .next + (n'.down.get i.other).count .next =
      (n.up.get i).count .next + (n.down.get i.other).count .next)
    (hping : ∀ j env, e ≠ .pingTimeout j env) :
    n'.exchange (n.pingsAfter c e) = n.exchange c := by
  funext i
  simp only [exchange, hsess, hnext, pingsAfter, pingsBy_nil hping, List.length_nil, Nat.add_zero]

theorem exchange_relay {c : Side → Nat} {msg : Up} {rest : List Up}
    (hup : n.up.get i = msg :: rest) (hconn : n.conn = true)
    (ho : Open (relay { n with up := n.up.set i rest } i msg)) :
    exchange (relay { n with up := n.up.set i rest } i msg) (n.pingsAfter c (.serve i)) =
      n.exchange c := by
  refine exchange_eq (fun _ => relay_same.1) ?_ nofun
  cases msg with
  | close b =>
    have hc := ho.1
    simp [relay, hconn] at hc
  | ready =>
    intro j
    cases i <;> cases j <;> simp_all [relay]
  | next =>
    intro j
    cases i <;> cases j <;> simp_all [relay] <;> omega

/-- Only a relay of `CONN_CLOSE` and the loss of a side change what the server has. -/
theorem step_connected (hs : n.step e = some n') (hc : n'.conn = true) : n.conn = true := by
  cases step_cases hs with
  | acts => rwa [act_conn] at hc
  | reads => rwa [act_conn] at hc
  | ignores => exact hc
  | established => rwa [act_conn] at hc
  | failed => exact hc
  | refused => exact hc
  | closed => exact hc
  | dropped => exact hc
  | relayed _ hconn => exact hconn
  | helloes => exact hc
  | losesHello => exact hc
  | losesPing => exact hc
  | disconnects => cases hc

theorem Open.of_step (hs : n.step e = some n') (ho : n'.Open) : n.Open := by
  refine ⟨step_connected hs ho.1, fun i => Option.isSome_iff_ne_none.mpr fun hnone => ?_⟩
  have hsome := ho.2 i
  rw [step_none hs hnone] at hsome
  cases hsome

/-- Every step within an attempt. -/
theorem Turn.step_moves (h : n.Turn) (hs : n.step e = some n') (hin : n.inAttempt e = true)
    (ho : n'.Open) (c : Side → Nat) : Moves (n.exchange c) (n'.exchange (n.pingsAfter c e)) := by
  have hopen := Open.of_step hs ho
  have hgone : ∀ i, n'.sess i ≠ none := fun i => Option.isSome_iff_ne_none.mp (ho.2 i)
  cases step_cases hs with
  | @acts i _ _ _ _ hsess hh =>
    have hread : n.down.get i = none.toList ++ n.down.get i := rfl
    have hmoves := act_moves (c := c) h hsess hread hh
    rw [Pair.set_get] at hmoves
    exact hmoves hs hin ho
  | reads hdown hsess _ hh => exact act_moves (m := some _) h hsess hdown hh hs hin ho
  | @ignores i _ _ _ hdown hover =>
    rcases hover with hnone | hest
    · exact absurd hnone (hgone i)
    · obtain ⟨s, hsess⟩ := Option.isSome_iff_exists.mp (hopen.2 i)
      cases hopen.1.symm.trans (h.established i s hsess hest)
  | @established i _ _ _ hdown hsess =>
    cases hopen.1.symm.trans (h.closed i (by rw [hdown]; exact List.mem_cons_self))
  | failed => exact absurd leave_self (hgone _)
  | refused => exact absurd leave_self (hgone _)
  | closed => exact absurd leave_self (hgone _)
  | dropped _ hno => cases hopen.1.symm.trans hno
  | relayed hup hconn => exact Or.inl (exchange_relay hup hconn ho)
  | @helloes _ i _ hk =>
    refine Or.inl (exchange_eq (fun _ => rfl) (fun j => ?_) nofun)
    rw [if_pos hopen.1]
    cases i <;> cases j <;> simp
  | losesHello => exact Or.inl (exchange_eq (fun _ => rfl) (fun _ => rfl) nofun)
  | losesPing => exact Or.inl (exchange_eq (fun _ => rfl) (fun _ => rfl) nofun)
  | disconnects => cases ho.1

/-- How many pings side `i` sends in the run. -/
def pingsSent (n : State) (i : Side) (es : List Event) : Nat := (trace step (pingsBy i) n es).length

/-- Both sides are at the beginning of an attempt: they may ping, and no ping and no `NEXT`
is on its way. -/
structure Fresh (n : State) : Prop where
  side : ∀ i, ∃ s, n.sess i = some s ∧ s.next = true ∧ s.writes = 0
  up : ∀ i, .next ∉ n.up.get i
  down : ∀ i, .next ∉ n.down.get i

theorem Fresh.exchange (h : n.Fresh) : n.exchange (fun _ => 0) = fun _ => {} := by
  funext i
  obtain ⟨s, hsess, hnext, hwrites⟩ := h.side i
  rw [exchange_of_some hsess, hnext, hwrites, List.count_eq_zero_of_not_mem (h.up i),
    List.count_eq_zero_of_not_mem (h.down i.other)]

/-- The permits stay fair along the attempt. -/
theorem Fresh.fair {n₀ : State} (h₀ : n₀.Turn) (hfresh : n₀.Fresh) {es : List Event}
    (hrun : exec step n₀ es = some n) (hin : Along step (fun n e => n.inAttempt e = true) n₀ es)
    (ho : n.Open) : Permits.Fair Side.other (n.exchange fun i => n₀.pingsSent i es) := by
  have key := exec_induction (motive := fun es n => n.Turn ∧
      (Along step (fun n e => n.inAttempt e = true) n₀ es → n.Open →
        Permits.Fair Side.other (n.exchange fun i => n₀.pingsSent i es)))
    ⟨h₀, fun _ _ => ?_⟩ ?_ hrun
  · exact key.2 hin ho
  · change Permits.Fair Side.other (n₀.exchange fun _ => 0)
    rw [hfresh.exchange]
    exact Permits.fair_start
  · intro es a e b ha ih hb
    refine ⟨ih.1.step hb, fun hal hopen => ?_⟩
    obtain ⟨hl, hp⟩ := along_snoc hal ha
    have hfair := ih.2 hl (Open.of_step hb hopen)
    have hcount : (fun i => n₀.pingsSent i (es ++ [e])) =
        a.pingsAfter (fun i => n₀.pingsSent i es) e := by
      funext i
      rw [pingsSent, trace_snoc _ ha, List.length_append]
      rfl
    rw [hcount]
    rcases ih.1.step_moves hb hp hopen fun i => n₀.pingsSent i es with hsame | ⟨move, hmove⟩
    · rw [hsame]
      exact hfair
    · exact hfair.step Side.other_ne Side.other_other hmove

/-- Something on the way of side `i` will let a side ping: its permit, a ping that is being
sent, or `NEXT` in flight. -/
def Goes (n : State) (i : Side) : Prop :=
  (∃ s, n.sess i = some s ∧ (s.next = true ∨ 0 < s.writes)) ∨
    .next ∈ n.up.get i ∨ .next ∈ n.down.get i.other

theorem goes_of_live {c : Side → Nat} (hsome : (n.sess i).isSome = true)
    (h : (n.exchange c i).live) : n.Goes i := by
  obtain ⟨s, hsess⟩ := Option.isSome_iff_exists.mp hsome
  rw [exchange_of_some hsess] at h
  rcases h with hnext | hwrites | hflight
  · exact Or.inl ⟨s, hsess, Or.inl hnext⟩
  · exact Or.inl ⟨s, hsess, Or.inr hwrites⟩
  · rcases Nat.eq_zero_or_pos ((n.up.get i).count .next) with hzero | hpos
    · refine Or.inr (Or.inr (List.count_pos_iff.mp ?_))
      dsimp only at hflight
      omega
    · exact Or.inr (Or.inl (List.count_pos_iff.mp hpos))

/-- In one attempt of a reachable pair of sessions, as long as neither has completed, one of
them may ping, a ping is being sent or `NEXT` is in flight, and one side is at most one ping
ahead of the other. -/
theorem pings_alternate {bestEffort : Bool} {es₀ es : List Event} {n₀ n : State}
    (hreach : Run bestEffort es₀ n₀) (hfresh : n₀.Fresh) (hrun : exec step n₀ es = some n)
    (hin : Along step (fun n e => n.inAttempt e = true) n₀ es) (ho : n.Open) :
    (∃ i, n.Goes i) ∧ ∀ i, n₀.pingsSent i es ≤ n₀.pingsSent i.other es + 1 := by
  have hfair := hfresh.fair (Run.turn hreach) hrun hin ho
  refine ⟨?_, hfair.sent_le Side.other_other⟩
  rcases hfair.live .owner with howner | hpeer
  · exact ⟨.owner, goes_of_live (ho.2 _) howner⟩
  · exact ⟨.peer, goes_of_live (ho.2 _) hpeer⟩

/-- Both sides ping at once, and the peer pings again. -/
def peerAhead : List Event :=
  [.pingTimeout .owner {}, .pingTimeout .peer {}, .pingSent .owner true, .serve .owner,
    .deliver .peer {}, .pingTimeout .peer {}]

theorem Fresh.of_sides
    (howner : (n.sess .owner).any (fun s => s.next && s.writes = 0) = true)
    (hpeer : (n.sess .peer).any (fun s => s.next && s.writes = 0) = true)
    (hup : .next ∉ n.up.owner ∧ .next ∉ n.up.peer)
    (hdown : .next ∉ n.down.owner ∧ .next ∉ n.down.peer) : n.Fresh := by
  have hside : ∀ i, (n.sess i).any (fun s => s.next && s.writes = 0) = true →
      ∃ s, n.sess i = some s ∧ s.next = true ∧ s.writes = 0 := by
    intro i hi
    obtain ⟨s, hs, hp⟩ := (Option.any_eq_true _ _).mp hi
    simp only [Bool.and_eq_true, decide_eq_true_eq] at hp
    exact ⟨s, hs, hp⟩
  refine ⟨fun i => ?_, fun i => ?_, fun i => ?_⟩
  · cases i with
    | owner => exact hside _ howner
    | peer => exact hside _ hpeer
  · cases i with
    | owner => exact hup.1
    | peer => exact hup.2
  · cases i with
    | owner => exact hdown.1
    | peer => exact hdown.2

/-- The peer is one ping ahead. -/
theorem pings_alternate_ahead : ∃ n₀ n, Run false meeting n₀ ∧ n₀.Fresh ∧
    exec step n₀ peerAhead = some n ∧ n.Open ∧ n₀.pingsSent .owner peerAhead = 1 ∧
    n₀.pingsSent .peer peerAhead = 2 ∧ (∃ i, n.Goes i) ∧
    ∀ i, n₀.pingsSent i peerAhead ≤ n₀.pingsSent i.other peerAhead + 1 := by
  have hex : ∃ n₀, Run false meeting n₀ ∧
      (n₀.sess .owner).any (fun s => s.next && s.writes = 0) = true ∧
      (n₀.sess .peer).any (fun s => s.next && s.writes = 0) = true ∧
      (.next ∉ n₀.up.owner ∧ .next ∉ n₀.up.peer) ∧
      (.next ∉ n₀.down.owner ∧ .next ∉ n₀.down.peer) ∧
      Along step (fun n e => n.inAttempt e = true) n₀ peerAhead ∧
      n₀.pingsSent .owner peerAhead = 1 ∧ n₀.pingsSent .peer peerAhead = 2 ∧
      (exec step n₀ peerAhead).any (fun n =>
        n.conn && (n.sess .owner).isSome && (n.sess .peer).isSome) = true :=
    exec_check (by decide +kernel)
  obtain ⟨n₀, hreach, howner, hpeer, hup, hdown, hin, hone, htwo, hend⟩ := hex
  obtain ⟨n, hrun, hopen⟩ := (Option.any_eq_true _ _).mp hend
  simp only [Bool.and_eq_true] at hopen
  have hfresh := Fresh.of_sides howner hpeer hup hdown
  have ho : n.Open := ⟨hopen.1.1, fun i => by cases i with
    | owner => exact hopen.1.2
    | peer => exact hopen.2⟩
  exact ⟨n₀, n, hreach, hfresh, hrun, ho, hone, htwo, pings_alternate hreach hfresh hrun hin ho⟩

end State

end DTun.Node.FastSession
