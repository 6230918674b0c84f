/-!
# Calls that may end at an assertion

A call that returns `Except ε α` ends normally with a result or at an assertion, and what is
after it in a sequence is only reached in the first case.
-/

namespace DTun.Lib.Calls

variable {ε α β : Type}

/-- The assertion at which a call ended. -/
def failed : Except ε α → Option ε
  | .error a => some a
  | .ok _ => none

theorem failed_eq_some {x : Except ε α} {a : ε} (h : failed x = some a) : x = .error a := by
  cases x with
  | error b => cases h; rfl
  | ok _ => cases h

theorem map_eq_error {x : Except ε α} {f : α → β} {a : ε} (h : x.map f = .error a) :
    x = .error a := by
  cases x with
  | error b => cases h; rfl
  | ok _ => cases h

theorem map_eq_ok {x : Except ε α} {f : α → β} {b : β} (h : x.map f = .ok b) :
    ∃ a, x = .ok a ∧ f a = b := by
  cases x with
  | error _ => cases h
  | ok a => exact ⟨a, rfl, Except.ok.inj h⟩

theorem bind_eq_ok {x : Except ε α} {f : α → Except ε β} {b : β} (h : (x >>= f) = .ok b) :
    ∃ a, x = .ok a ∧ f a = .ok b := by
  cases x with
  | error _ => cases h
  | ok a => exact ⟨a, rfl, h⟩

theorem toOption_eq_some {x : Except ε α} {a : α} (h : x.toOption = some a) : x = .ok a := by
  cases x with
  | error _ => cases h
  | ok b => cases h; rfl

end DTun.Lib.Calls
