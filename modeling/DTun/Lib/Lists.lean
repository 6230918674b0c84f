import Mathlib.Data.List.Basic

/-!
# Lists

Facts about lists that several components use.
-/

namespace DTun.Lib.Lists

variable {α β : Type*}

theorem filterMap_cons_toList (f : α → Option β) (a : α) (l : List α) :
    (a :: l).filterMap f = (f a).toList ++ l.filterMap f := by
  cases hf : f a with
  | none => rw [List.filterMap_cons_none hf]; rfl
  | some b => rw [List.filterMap_cons_some hf]; rfl

theorem getElem?_snoc_of_some {l : List α} {i : Nat} {a : α} (b : α) (h : l[i]? = some a) :
    (l ++ [b])[i]? = some a := by
  rw [List.getElem?_append_left (List.getElem?_eq_some_iff.mp h).1]
  exact h

theorem getElem?_snoc_cases {l : List α} {i : Nat} {a b : α} (h : (l ++ [b])[i]? = some a) :
    l[i]? = some a ∨ (i = l.length ∧ a = b) := by
  rw [List.getElem?_append] at h
  split at h
  · exact Or.inl h
  · rw [List.getElem?_singleton] at h
    split at h
    · exact Or.inr ⟨by omega, (Option.some.inj h).symm⟩
    · cases h

theorem countP_eraseP (p : α → Bool) (l : List α) : (l.eraseP p).countP p = l.countP p - 1 := by
  induction l with
  | nil => rfl
  | cons a l ih =>
    by_cases ha : p a = true
    · rw [List.eraseP_cons_of_pos ha, List.countP_cons_of_pos ha, Nat.add_sub_cancel]
    · rw [List.eraseP_cons_of_neg ha, List.countP_cons_of_neg ha, List.countP_cons_of_neg ha, ih]

end DTun.Lib.Lists
