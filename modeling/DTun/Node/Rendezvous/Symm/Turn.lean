import DTun.Node.Rendezvous.Symm

/-!
# The turn of the symmetric rendezvous

There is one turn, and it goes around: the accepting side asks for the other's ports, READY goes
there and comes back, the accepting side pings a round, NEXT goes there and comes back, and then
it asks for another round, or ends with final pings. A session has the turn when it is to be
started, waits for ports, has a timer posted or a ping under way; otherwise a message has it.
Each handler that has the turn passes it on or ends the session.
-/

namespace DTun.Node.Rendezvous

namespace Symm

/-- Where the turn is: on the way to the ports of the connecting side, from there to the first
ping of the round, in the round, from there to the end of the wait after NEXT, or at the final
pings. -/
inductive Turn where
  | request
  | answer
  | round
  | reply
  | final
  deriving DecidableEq, Repr

/-- The turn that a session sends, where `x` is that of its READY. -/
def turnOf (x : Turn) : Act → Option Turn
  | .ready => some x
  | .next => some .reply
  | _ => none

/-- The session ends in a handler, and sends nothing of the rendezvous. -/
structure Leaves {φ : Type} (t : Session φ) : Prop where
  gone : gone t = true
  turns : ∀ x, t.acts.filterMap (turnOf x) = []
  pings : t.acts.filterMap pingOf = []
  final : t.acts.any isFinal = false

section

variable {φ : Type} {s t : Session φ}

/-- Nothing but `use` and the callback. -/
theorem leaves_of_quiet (hgone : gone t = true)
    (hquiet : ∀ a ∈ t.acts, a = .use ∨ a.isDone = true) : Leaves t := by
  have hacts : ∀ a ∈ t.acts, (∀ x, turnOf x a = none) ∧ pingOf a = none ∧ ¬isFinal a = true := by
    intro a ha
    rcases hquiet a ha with rfl | hdone
    · exact ⟨fun _ => rfl, rfl, Bool.false_ne_true⟩
    · cases a with
      | done => exact ⟨fun _ => rfl, rfl, Bool.false_ne_true⟩
      | _ => exact Bool.noConfusion hdone
  refine ⟨hgone, fun x => ?_, ?_, List.any_eq_false.mpr fun a ha => (hacts a ha).2.2⟩
  · exact List.filterMap_eq_nil_iff.mpr fun a ha => (hacts a ha).1 x
  · exact List.filterMap_eq_nil_iff.mpr fun a ha => (hacts a ha).2.1

theorem leaves_done {err : Int} {res : Option Reservation} (hquiet : ∀ a ∈ s.acts, a = .use) :
    Leaves (s.act (.done err res)) := by
  apply leaves_of_quiet
  · simp [gone, Session.act, Act.isDone]
  · intro a ha
    rcases List.mem_append.mp ha with hold | hnew
    · exact .inl (hquiet a hold)
    · rw [List.mem_singleton.mp hnew]
      exact .inr rfl

theorem leaves_refused (hquiet : ∀ a ∈ t.acts, a = .use) (hrefused : t.refused = true) :
    Leaves t := by
  apply leaves_of_quiet
  · rw [gone, hrefused, Bool.or_true]
  · exact fun a ha => .inl (hquiet a ha)

/-- A handler that has the turn ends the session, or leaves it as `T` says. -/
def Passes (T : Session φ → Prop) (r : Res φ) : Prop := ∃ t, r = .ok t ∧ (Leaves t ∨ T t)

namespace Passes

variable {T : Session φ → Prop} {r r' : Res φ} {f : Session φ → Res φ}

theorem ok (h : T t) : Passes T (.ok t) := ⟨t, rfl, .inr h⟩

theorem fail {err : Int} (hquiet : ∀ a ∈ s.acts, a = .use) : Passes T (s.fail err) :=
  ⟨_, rfl, .inl (leaves_done hquiet)⟩

theorem refused (hquiet : ∀ a ∈ t.acts, a = .use) (hrefused : t.refused = true) :
    Passes T (.ok t) :=
  ⟨t, rfl, .inl (leaves_refused hquiet hrefused)⟩

theorem ite {p : Prop} [Decidable p] (h : p → Passes T r) (h' : ¬p → Passes T r') :
    Passes T (if p then r else r') := by
  by_cases hp : p
  · rw [if_pos hp]
    exact h hp
  · rw [if_neg hp]
    exact h' hp

/-- A test that the flag is not set. -/
theorem guard {b : Bool} (hb : b = true) (h : Passes T r) : Passes T (if !b then r' else r) := by
  rw [hb]
  exact h

theorem require {p : Prop} [Decidable p] (hp : p) (h : Passes T (f s)) :
    Passes T ((s.require p).bind f) := by
  rw [Session.require_ok hp]
  exact h

theorem use {env : Env} (hports : s.HasPorts)
    (h : ∀ r : Reservation, r.ports ≠ [] →
      Passes T (f (Session.act { s with portReservation := some r } .use))) :
    Passes T ((s.use env).bind f) := by
  obtain ⟨r, hr, huse⟩ := Session.use_ok hports env
  rw [huse]
  exact h r hr

/-- The last thing is `use`. -/
theorem use_last {env : Env} (hports : s.HasPorts)
    (h : ∀ r : Reservation, r.ports ≠ [] →
      T (Session.act { s with portReservation := some r } .use)) :
    Passes T (s.use env) := by
  obtain ⟨r, hr, huse⟩ := Session.use_ok hports env
  rw [huse]
  exact ok (h r hr)

/-- `keepalive` and the end. -/
theorem complete {p : Session φ → Prop} [∀ s, Decidable (p s)] (hports : s.HasPorts)
    (hquiet : ∀ a ∈ s.acts, a = .use)
    (hp : ∀ r : Reservation, p { s with portReservation := some r }) :
    Passes T (s.keepalive.bind fun s => (s.require (p s)).bind fun s => s.complete) := by
  obtain ⟨r, hr, hkeep⟩ := Session.keepalive_ok hports
  rw [hkeep]
  exact require (hp r) ⟨_, rfl, .inl (leaves_done hquiet)⟩

end Passes

end

end Symm

end DTun.Node.Rendezvous
