import DTun.Lib.Runs

/-!
# Closing an operation watch

An object wraps the callbacks that it leaves with a reactor by an `OpWatch`, and closes the
watch before it goes away. One thread, the reactor's, runs wrapped callbacks; a callback may
call `close` itself and may run another wrapped callback before it returns. All the other
threads do with the watch is call `close`.

A section between lock and unlock is one step. A wait ends only by a notification, and
`notify_all` comes after the unlock, so it is a step of its own.
-/

namespace DTun.Util.OpWatch

open Lib.Runs

inductive WatchState where
  | active
  | closing
  | closed
  deriving DecidableEq, Repr

structure Watch where
  state : WatchState := .active
  inCallback : Bool := false
  deriving DecidableEq, Repr

/-- How a section of `close` ends, with what `close` returns. -/
inductive Outcome where
  | returns (res : Bool)
  | waits (res : Bool)
  deriving DecidableEq, Repr

namespace Watch

/-- `close` up to its first wait. -/
def close (w : Watch) (isSameThread : Bool) : Watch × Outcome :=
  if w.state = .closed then (w, .returns false)
  else
    let res := decide (w.state = .active)
    if w.inCallback ∧ isSameThread = false then ({ w with state := .closing }, .waits res)
    else ({ w with state := .closed }, .returns res)

/-- `close` after a wait. -/
def resume (w : Watch) (res : Bool) : Watch × Outcome :=
  if w.inCallback then (w, .waits res) else ({ w with state := .closed }, .returns res)

/-- `onWrappedCallback` up to the callback; false if that is not called. -/
def enter (w : Watch) : Watch × Bool :=
  if w.state ≠ .active then (w, false) else ({ w with inCallback := true }, true)

/-- `onWrappedCallback` after the callback; true if it notifies. -/
def leave (w : Watch) : Watch × Bool :=
  ({ w with inCallback := false }, decide (w.state = .closing))

end Watch

/-- A thread other than the reactor's. -/
inductive Closer where
  | idle
  | waiting (res : Bool)
  /-- A notification has ended its wait; it has yet to take the mutex. -/
  | notified (res : Bool)
  deriving DecidableEq, Repr

def Closer.notify : Closer → Closer
  | .waiting res => .notified res
  | c => c

structure System where
  watch : Watch := {}
  /-- Wrapped callbacks that are executing. -/
  depth : Nat := 0
  /-- The reactor thread is about to notify. -/
  signal : Bool := false
  closers : Nat → Closer := fun _ => .idle
  /-- A `close` on another thread than the reactor's has returned. -/
  returned : Bool := false

inductive Event where
  /-- The reactor thread runs a wrapped callback, from its loop or from another one. -/
  | invoke
  /-- The innermost callback returns. -/
  | complete
  | notify
  /-- The reactor thread calls `close`. -/
  | closeSelf
  | close (t : Nat)
  /-- A thread that has been notified takes the mutex again. -/
  | wake (t : Nat)
  deriving DecidableEq, Repr

namespace System

def setCloser (n : System) (t : Nat) (c : Closer) : System :=
  { n with closers := fun t' => if t' = t then c else n.closers t' }

/-- The end of a section of `close` on the thread `t`. -/
def finish (n : System) (t : Nat) : Watch × Outcome → System
  | (watch, .returns _) => { n.setCloser t .idle with watch, returned := true }
  | (watch, .waits res) => { n.setCloser t (.waiting res) with watch }

/-- `none` when the event cannot happen. -/
def step (n : System) : Event → Option System
  | .invoke =>
    if n.signal then none
    else
      let (watch, called) := n.watch.enter
      some { n with watch, depth := if called then n.depth + 1 else n.depth }
  | .complete =>
    if n.signal = false ∧ 0 < n.depth then
      let (watch, signal) := n.watch.leave
      some { n with watch, signal, depth := n.depth - 1 }
    else none
  | .notify =>
    if n.signal then some { n with signal := false, closers := fun t => (n.closers t).notify }
    else none
  | .closeSelf =>
    if n.signal then none else some { n with watch := (n.watch.close true).1 }
  | .close t =>
    match n.closers t with
    | .idle => some (n.finish t (n.watch.close false))
    | _ => none
  | .wake t =>
    match n.closers t with
    | .notified res => some (n.finish t (n.watch.resume res))
    | _ => none

def Run (es : List Event) (n : System) : Prop := exec step {} es = some n

variable {n n' : System} {e : Event}

/-- What a step can do. -/
inductive Step (n : System) : Event → System → Prop
  /-- The callback is not called. -/
  | refused (quiet : n.signal = false) (state : n.watch.state ≠ .active) : Step n .invoke n
  | called (quiet : n.signal = false) (state : n.watch.state = .active) :
      Step n .invoke { n with watch := { n.watch with inCallback := true }, depth := n.depth + 1 }
  | completes (quiet : n.signal = false) (depth : 0 < n.depth) :
      Step n .complete { n with
        watch := { n.watch with inCallback := false }
        signal := decide (n.watch.state = .closing), depth := n.depth - 1 }
  | notifies (signal : n.signal = true) :
      Step n .notify { n with signal := false, closers := fun t => (n.closers t).notify }
  | closesSelf (quiet : n.signal = false) :
      Step n .closeSelf { n with watch := { n.watch with state := .closed } }
  /-- `close` finds the watch closed, or no callback to wait for. -/
  | closes {t : Nat} (idle : n.closers t = .idle)
      (ended : n.watch.state = .closed ∨ n.watch.inCallback = false) :
      Step n (.close t) { n.setCloser t .idle with
        watch := { n.watch with state := .closed }, returned := true }
  | waits {t : Nat} (res : Bool) (idle : n.closers t = .idle) (state : n.watch.state ≠ .closed)
      (running : n.watch.inCallback = true) :
      Step n (.close t) { n.setCloser t (.waiting res) with
        watch := { n.watch with state := .closing } }
  | waitsAgain {t : Nat} (res : Bool) (notified : n.closers t = .notified res)
      (running : n.watch.inCallback = true) :
      Step n (.wake t) (n.setCloser t (.waiting res))
  | wakes {t : Nat} (res : Bool) (notified : n.closers t = .notified res)
      (idle : n.watch.inCallback = false) :
      Step n (.wake t) { n.setCloser t .idle with
        watch := { n.watch with state := .closed }, returned := true }

theorem close_self (w : Watch) : (w.close true).1 = { w with state := .closed } := by
  unfold Watch.close
  split
  · rename_i hclosed
    rw [← hclosed]
  · rw [if_neg (by simp)]

theorem finish_close_cases {t : Nat} (hidle : n.closers t = .idle) :
    Step n (.close t) (n.finish t (n.watch.close false)) := by
  unfold Watch.close
  split
  · rename_i hclosed
    have hsame : n.watch = { n.watch with state := .closed } := by rw [← hclosed]
    have hstep := Step.closes hidle (Or.inl hclosed)
    rw [← hsame] at hstep
    exact hstep
  · rename_i hopen
    by_cases hrunning : n.watch.inCallback = true
    · rw [if_pos ⟨hrunning, rfl⟩]
      exact Step.waits _ hidle hopen hrunning
    · rw [if_neg fun h => hrunning h.1]
      exact Step.closes hidle (Or.inr (Bool.eq_false_iff.mpr hrunning))

theorem step_cases (h : n.step e = some n') : Step n e n' := by
  cases e with
  | invoke =>
    rw [step] at h
    obtain ⟨hsignal, heq⟩ := Option.ite_none_left_eq_some.mp h
    have hquiet := Bool.eq_false_iff.mpr hsignal
    by_cases hstate : n.watch.state = .active
    · have henter : n.watch.enter = ({ n.watch with inCallback := true }, true) :=
        if_neg (not_not.mpr hstate)
      rw [henter] at heq
      obtain ⟨⟩ := heq
      exact Step.called hquiet hstate
    · have henter : n.watch.enter = (n.watch, false) := if_pos hstate
      rw [henter] at heq
      obtain ⟨⟩ := heq
      exact Step.refused hquiet hstate
  | complete =>
    obtain ⟨⟨hquiet, hdepth⟩, ⟨⟩⟩ := Option.ite_none_right_eq_some.mp h
    exact Step.completes hquiet hdepth
  | notify =>
    obtain ⟨hsignal, ⟨⟩⟩ := Option.ite_none_right_eq_some.mp h
    exact Step.notifies hsignal
  | closeSelf =>
    obtain ⟨hquiet, ⟨⟩⟩ := Option.ite_none_left_eq_some.mp h
    rw [close_self]
    exact Step.closesSelf (Bool.eq_false_iff.mpr hquiet)
  | close t =>
    simp only [step] at h
    split at h
    · rename_i hidle
      obtain ⟨⟩ := h
      exact finish_close_cases hidle
    · cases h
  | wake t =>
    simp only [step] at h
    split at h
    · rename_i res hnotified
      obtain ⟨⟩ := h
      unfold Watch.resume
      by_cases hrunning : n.watch.inCallback = true
      · rw [if_pos hrunning]
        exact Step.waitsAgain res hnotified hrunning
      · rw [if_neg hrunning]
        exact Step.wakes res hnotified (Bool.eq_false_iff.mpr hrunning)
    · cases h

theorem closers_setCloser (n : System) (t : Nat) (c : Closer) (t' : Nat) :
    (n.setCloser t c).closers t' = if t' = t then c else n.closers t' := rfl

structure Coherent (n : System) : Prop where
  depth : n.watch.inCallback = true → 0 < n.depth
  signal : n.signal = true → n.watch.inCallback = false ∧ n.watch.state ≠ .active
  closer : ∀ t, n.closers t ≠ .idle → n.watch.state ≠ .active
  notified : ∀ t res, n.closers t = .notified res → n.watch.inCallback = false
  /-- A callback that will find the watch closing has somebody to notify. -/
  closing : n.watch.state = .closing → n.watch.inCallback = true →
    ∃ t res, n.closers t = .waiting res
  returned : n.returned = true → n.watch.state = .closed

theorem coherent_init : Coherent {} := by
  constructor <;> simp

/-- `close` has ended on the thread `t`. -/
theorem Coherent.ended (h : Coherent n) (t : Nat) :
    Coherent { n.setCloser t .idle with
      watch := { n.watch with state := .closed }, returned := true } where
  depth := h.depth
  signal hsignal := ⟨(h.signal hsignal).1, nofun⟩
  closer _ _ := nofun
  notified t' res ht := by
    rw [closers_setCloser] at ht
    split at ht
    · cases ht
    · exact h.notified t' res ht
  closing := nofun
  returned _ := rfl

theorem Coherent.step (h : Coherent n) (hs : n.step e = some n') : Coherent n' := by
  cases step_cases hs with
  | refused => exact h
  | called hquiet hactive =>
    have hidle : ∀ t, n.closers t = .idle := fun t => by_contra fun ht => h.closer t ht hactive
    exact { h with
      depth := fun _ => Nat.succ_pos _
      signal := fun hsignal => Bool.noConfusion (hquiet.symm.trans hsignal)
      notified := fun t res ht => Closer.noConfusion ((hidle t).symm.trans ht)
      closing := fun hclosing => WatchState.noConfusion (hactive.symm.trans hclosing) }
  | completes =>
    refine { h with depth := nofun, signal := ?_, notified := fun _ _ _ => rfl, closing := nofun }
    intro hsignal
    have hclosing : n.watch.state = .closing := of_decide_eq_true hsignal
    exact ⟨rfl, fun hactive => WatchState.noConfusion (hactive.symm.trans hclosing)⟩
  | notifies hsignal =>
    obtain ⟨hidle, hstate⟩ := h.signal hsignal
    exact { h with
      signal := nofun
      closer := fun _ _ => hstate
      notified := fun _ _ _ => hidle
      closing := fun _ hrunning => Bool.noConfusion (hidle.symm.trans hrunning) }
  | closesSelf =>
    exact { h with
      signal := fun hsignal => ⟨(h.signal hsignal).1, nofun⟩
      closer := fun _ _ => nofun
      closing := nofun
      returned := fun _ => rfl }
  | closes => exact h.ended _
  | @waits t res hidle hopen hrunning =>
    refine { h with
      signal := ?_, closer := fun _ _ => nofun, notified := ?_, closing := ?_, returned := ?_ }
    · exact fun hsignal => ⟨(h.signal hsignal).1, nofun⟩
    · intro t' res' ht
      rw [closers_setCloser] at ht
      split at ht
      · cases ht
      · exact h.notified t' res' ht
    · exact fun _ _ => ⟨t, res, if_pos rfl⟩
    · exact fun hreturned => absurd (h.returned hreturned) hopen
  | @waitsAgain t res hnotified hrunning =>
    exact Bool.noConfusion ((h.notified t res hnotified).symm.trans hrunning)
  | wakes => exact h.ended _

theorem Run.coherent {es : List Event} (h : Run es n) : Coherent n :=
  exec_invariant (fun _ _ _ => Coherent.step) coherent_init h

/-- A thread that waits in `close` is going to be notified: by the callback that is executing,
or by one that has just seen that the watch is closing. -/
def Answered (n : System) : Prop :=
  ∀ t res, n.closers t = .waiting res →
    (0 < n.depth ∧ n.watch.inCallback = true ∧ n.watch.state = .closing) ∨ n.signal = true

/-- No wrapped callback calls `close` while the watch is closing. -/
def LeavesClosing (n : System) : Event → Prop
  | .closeSelf => ¬(n.watch.state = .closing ∧ n.watch.inCallback = true)
  | _ => True

instance (n : System) : ∀ e, Decidable (n.LeavesClosing e)
  | .closeSelf => inferInstanceAs (Decidable (¬_))
  | .invoke | .complete | .notify | .close _ | .wake _ => inferInstanceAs (Decidable True)

/-- Nobody waits when no callback runs and no notification is due. -/
theorem Answered.none_waiting (h : Answered n) (hquiet : n.signal = false)
    (hstate : ¬(n.watch.state = .closing ∧ n.watch.inCallback = true)) (t : Nat) (res : Bool) :
    n.closers t ≠ .waiting res := by
  intro ht
  rcases h t res ht with ⟨-, hrunning, hclosing⟩ | hsignal
  · exact hstate ⟨hclosing, hrunning⟩
  · exact Bool.noConfusion (hquiet.symm.trans hsignal)

/-- `close` ends on a thread when no callback runs: the others are being notified. -/
theorem Answered.ended (h : Answered n) {t : Nat}
    (hover : n.watch.state = .closed ∨ n.watch.inCallback = false) :
    Answered { n.setCloser t .idle with
      watch := { n.watch with state := .closed }, returned := true } := by
  intro t' res ht
  rw [closers_setCloser] at ht
  split at ht
  · cases ht
  · rcases h t' res ht with ⟨-, hrunning, hclosing⟩ | hsignal
    · rcases hover with hclosed | hidle
      · exact WatchState.noConfusion (hclosed.symm.trans hclosing)
      · exact Bool.noConfusion (hidle.symm.trans hrunning)
    · exact Or.inr hsignal

theorem Answered.step (hc : Coherent n) (h : Answered n) (hs : n.step e = some n') :
    Answered n' ↔ n.LeavesClosing e := by
  cases step_cases hs with
  | refused => exact iff_of_true h trivial
  | called hquiet hactive =>
    refine iff_of_true (fun t res ht => ?_) trivial
    exact absurd hactive (hc.closer t (by rw [ht]; exact nofun))
  | completes hquiet =>
    refine iff_of_true (fun t res ht => Or.inr ?_) trivial
    rcases h t res ht with ⟨-, -, hclosing⟩ | hsignal
    · exact decide_eq_true hclosing
    · exact Bool.noConfusion (hquiet.symm.trans hsignal)
  | notifies =>
    refine iff_of_true (fun t res ht => ?_) trivial
    dsimp only at ht
    cases hcloser : n.closers t <;> rw [hcloser] at ht <;> cases ht
  | closesSelf hquiet =>
    constructor
    · intro hafter ⟨hclosing, hrunning⟩
      obtain ⟨t, res, ht⟩ := hc.closing hclosing hrunning
      rcases hafter t res ht with ⟨-, -, hstate⟩ | hsignal
      · cases hstate
      · exact Bool.noConfusion (hquiet.symm.trans hsignal)
    · exact fun hleaves t res ht => absurd ht (h.none_waiting hquiet hleaves t res)
  | closes hidle hover => exact iff_of_true (h.ended hover) trivial
  | waits res hidle hopen hrunning =>
    exact iff_of_true (fun _ _ _ => Or.inl ⟨hc.depth hrunning, hrunning, rfl⟩) trivial
  | @waitsAgain t res hnotified hrunning =>
    exact Bool.noConfusion ((hc.notified t res hnotified).symm.trans hrunning)
  | wakes res hnotified hidle => exact iff_of_true (h.ended (Or.inr hidle)) trivial

/-- Whoever waits in `close` is going to be notified, in every state of a run, exactly when no
wrapped callback calls `close` while another thread waits for it. -/
theorem waiting_answered_iff {es : List Event} (hrun : Run es n) :
    (∀ pre post m, es = pre ++ post → Run pre m → Answered m) ↔
      Along step (fun n e => n.LeavesClosing e) {} es := by
  have hstep : ∀ a e b, Coherent a ∧ Answered a → a.step e = some b →
      (Coherent b ∧ Answered b ↔ a.LeavesClosing e) := by
    intro a e b ha hs
    rw [← ha.2.step ha.1 hs]
    exact and_iff_right (ha.1.step hs)
  rw [← invariant_iff_along hstep ⟨coherent_init, nofun⟩ hrun]
  constructor
  · exact fun h pre post m hsplit hm => ⟨Run.coherent hm, h pre post m hsplit hm⟩
  · exact fun h pre post m hsplit hm => (h pre post m hsplit hm).2

/-- Two threads wait for one callback. -/
theorem waiting_answered_iff_two : let es : List Event :=
      [.invoke, .close 0, .close 1, .complete, .notify, .wake 0, .wake 1]
    ∃ n, Run es n ∧ ∀ pre post m, es = pre ++ post → Run pre m → Answered m := by
  intro es
  have hex : ∃ n, Run es n ∧ n.returned = true := exec_check (by decide +kernel)
  obtain ⟨n, hrun, -⟩ := hex
  exact ⟨n, hrun, (waiting_answered_iff hrun).mpr (by decide +kernel)⟩

/-- The thread waits for a callback, which calls `close` and returns: nobody notifies. -/
theorem waiting_left_behind : ∃ n, Run [.invoke, .close 0, .closeSelf, .complete] n ∧
    n.closers 0 = .waiting true ∧ n.depth = 0 ∧ n.signal = false :=
  exec_check (by decide +kernel)

/-- Another thread calls `close` only while no callback executes, or a single one that has neither
run another one nor called `close`. -/
def Apart (n : System) : Event → Prop
  | .close _ => n.depth = 0 ∨ n.depth = 1 ∧ n.watch.inCallback = true ∧ n.watch.state ≠ .closed
  | _ => True

instance (n : System) : ∀ e, Decidable (n.Apart e)
  | .close _ => inferInstanceAs (Decidable (_ ∨ _))
  | .invoke | .complete | .notify | .closeSelf | .wake _ => inferInstanceAs (Decidable True)

/-- A thread in `close` waits for one callback, which the flag stands for; after a `close` there is
none. -/
structure Quiet (n : System) : Prop where
  single : ∀ t, n.closers t ≠ .idle → n.depth ≤ 1
  flag : ∀ t, n.closers t ≠ .idle → n.watch.inCallback = false → n.depth = 0
  returned : n.returned = true → n.depth = 0

theorem quiet_init : Quiet {} := by
  constructor <;> simp

theorem busy_of_notify {c : Closer} (h : c.notify ≠ .idle) : c ≠ .idle := by
  rintro rfl
  exact h rfl

theorem busy_of_setCloser_idle {t t' : Nat} (h : (n.setCloser t .idle).closers t' ≠ .idle) :
    n.closers t' ≠ .idle := by
  rw [closers_setCloser] at h
  split at h
  · exact absurd rfl h
  · exact h

/-- `close` returns on a thread when no callback is executing. -/
theorem Quiet.ended (h : Quiet n) (hzero : n.depth = 0) (t : Nat) :
    Quiet { n.setCloser t .idle with
      watch := { n.watch with state := .closed }, returned := true } where
  single t' ht := h.single t' (busy_of_setCloser_idle ht)
  flag t' ht := h.flag t' (busy_of_setCloser_idle ht)
  returned _ := hzero

theorem Quiet.step (hc : Coherent n) (h : Quiet n) (hapart : n.Apart e)
    (hs : n.step e = some n') : Quiet n' := by
  cases step_cases hs with
  | refused => exact h
  | called _ hactive =>
    -- nobody has called `close` on another thread
    refine ⟨fun t ht => absurd hactive (hc.closer t ht),
      fun t ht => absurd hactive (hc.closer t ht), fun hreturned => ?_⟩
    exact WatchState.noConfusion (hactive.symm.trans (hc.returned hreturned))
  | completes _ hdepth =>
    have hlast (t : Nat) (ht : n.closers t ≠ .idle) : n.depth - 1 = 0 := by
      have := h.single t ht
      omega
    refine ⟨fun t ht => ?_, fun t ht _ => hlast t ht, fun hreturned => ?_⟩
    · rw [hlast t ht]
      exact Nat.zero_le 1
    · have := h.returned hreturned
      dsimp only
      omega
  | notifies =>
    exact ⟨fun t ht => h.single t (busy_of_notify ht), fun t ht => h.flag t (busy_of_notify ht),
      h.returned⟩
  | closesSelf => exact ⟨h.single, h.flag, h.returned⟩
  | closes _ hended =>
    refine h.ended ?_ _
    rcases hapart with hzero | ⟨-, hrunning, hopen⟩
    · exact hzero
    · rcases hended with hclosed | hidle
      · exact absurd hclosed hopen
      · cases hidle.symm.trans hrunning
  | waits res hidle hopen hrunning =>
    have hone : n.depth ≤ 1 := by
      rcases hapart with hzero | ⟨hone, -⟩ <;> omega
    exact ⟨fun _ _ => hone, fun _ _ hnot => Bool.noConfusion (hrunning.symm.trans hnot), h.returned⟩
  | @waitsAgain t res hnotified hrunning =>
    exact Bool.noConfusion ((hc.notified t res hnotified).symm.trans hrunning)
  | @wakes t res hnotified hidle =>
    have hbusy : n.closers t ≠ .idle := by
      rw [hnotified]
      rintro ⟨⟩
    exact h.ended (h.flag t hbusy hidle) _

/-- Once a `close` on another thread than the reactor's has returned, no callback is executing
and none starts, provided that no such `close` comes while a callback executes that has called
`close` itself or has run another one. -/
theorem close_quiesces {es : List Event} (hrun : Run es n)
    (hapart : Along step (fun n e => n.Apart e) {} es) (hreturned : n.returned = true) :
    n.depth = 0 ∧ ∀ n', n.step .invoke = some n' → n'.depth = 0 := by
  obtain ⟨hcoherent, hquiet⟩ : Coherent n ∧ Quiet n :=
    exec_invariant_along (I := fun n => Coherent n ∧ Quiet n)
      (fun _ _ _ ha hp hs => ⟨ha.1.step hs, ha.2.step ha.1 hp hs⟩)
      ⟨coherent_init, quiet_init⟩ hapart hrun
  have hzero := hquiet.returned hreturned
  refine ⟨hzero, fun n' hs => ?_⟩
  cases step_cases hs with
  | refused => exact hzero
  | called _ hactive =>
    exact WatchState.noConfusion (hactive.symm.trans (hcoherent.returned hreturned))

/-- A callback runs another one and returns. Then a thread waits for the next callback and returns
after it. -/
def nestedThenClosed : List Event :=
  [.invoke, .invoke, .complete, .complete, .invoke, .close 0, .complete, .notify, .wake 0]

theorem close_quiesces_waits : ∃ n, Run nestedThenClosed n ∧ n.returned = true ∧ n.depth = 0 := by
  exact exec_check_and (by decide +kernel) fun _ hrun hreturned =>
    (close_quiesces hrun (by decide +kernel) hreturned).1

/-- The callback has called `close`, so the thread does not wait for it. -/
theorem close_returns_early : ∃ n, Run [.invoke, .closeSelf, .close 0] n ∧
    n.returned = true ∧ n.depth = 1 :=
  exec_check (by decide +kernel)

-- The same after a callback has run another one to its end.
example : ∃ n, Run [.invoke, .invoke, .complete, .close 0] n ∧ n.returned = true ∧ n.depth = 1 :=
  exec_check (by decide +kernel)

end System

end DTun.Util.OpWatch
