import Mathlib.Logic.Function.Basic

/-!
# Permits that are passed back and forth

Parties are paired by `other`. A party that has its permit may send; the send stays pending
until it completes, and then a new permit travels to the other party. A permit that arrives
where there is one already is lost. If both parties of a pair start with a permit, then in
every reachable state there is a permit, a pending send or a permit in flight, so the pair
does not get stuck, and the numbers of sends differ by at most one.
-/

namespace DTun.Lib.Permits

structure Party where
  permit : Bool := true
  /-- Sends that have not completed. -/
  pending : Nat := 0
  /-- Permits on their way to the other party. -/
  flight : Nat := 0
  sent : Nat := 0
  deriving DecidableEq, Repr

inductive Move (ι : Type*) where
  | send (i : ι)
  | complete (i : ι)
  | deliver (i : ι)

section

variable {ι : Type*} (other : ι → ι)

def step [DecidableEq ι] (x : ι → Party) : Move ι → Option (ι → Party)
  | .send i =>
    if (x i).permit then
      some (Function.update x i { x i with
        permit := false, pending := (x i).pending + 1, sent := (x i).sent + 1 })
    else none
  | .complete i =>
    if 0 < (x i).pending then
      some (Function.update x i { x i with
        pending := (x i).pending - 1, flight := (x i).flight + 1 })
    else none
  | .deliver i =>
    if 0 < (x i).flight then
      some (Function.update (Function.update x i { x i with flight := (x i).flight - 1 })
        (other i) { x (other i) with permit := true })
    else none

def Party.live (p : Party) : Prop := p.permit = true ∨ 0 < p.pending ∨ 0 < p.flight

/-- Neither party of a pair is stuck, and the other party of `i` can only get one send ahead
with what `i` has given it. -/
structure Fair (x : ι → Party) : Prop where
  live : ∀ i, (x i).live ∨ (x (other i)).live
  bound : ∀ i, (x (other i)).sent + (x (other i)).permit.toNat + (x i).pending + (x i).flight ≤
    (x i).sent + 1

variable {other} {x x' : ι → Party}

/-- Both parties of a pair start with a permit. -/
theorem fair_start : Fair other fun _ => {} :=
  ⟨fun _ => Or.inl (Or.inl rfl), fun _ => Nat.le_refl _⟩

theorem Fair.sent_le (hinv : ∀ i, other (other i) = i) (h : Fair other x) (i : ι) :
    (x i).sent ≤ (x (other i)).sent + 1 := by
  have hbound := h.bound (other i)
  rw [hinv] at hbound
  omega

variable [DecidableEq ι] {i : ι} {p : Party}

theorem live_update (h : ∀ j, (x j).live ∨ (x (other j)).live) (hp : p.live) (j : ι) :
    (Function.update x i p j).live ∨ (Function.update x i p (other j)).live := by
  by_cases hj : j = i
  · subst hj
    rw [Function.update_self]
    exact Or.inl hp
  · by_cases hoj : other j = i
    · rw [hoj, Function.update_self]
      exact Or.inr hp
    · rw [Function.update_of_ne hj, Function.update_of_ne hoj]
      exact h j

/-- A change of one party, as its own bound and the bound of the other see it. -/
theorem bound_update (hne : ∀ i, other i ≠ i) (h : Fair other x)
    (hself : (x (other i)).sent + (x (other i)).permit.toNat + p.pending + p.flight ≤ p.sent + 1)
    (hother : p.sent + p.permit.toNat ≤ (x i).sent + (x i).permit.toNat) (j : ι) :
    (Function.update x i p (other j)).sent + (Function.update x i p (other j)).permit.toNat +
      (Function.update x i p j).pending + (Function.update x i p j).flight ≤
      (Function.update x i p j).sent + 1 := by
  have hj := h.bound j
  by_cases hji : j = i
  · subst hji
    rw [Function.update_self, Function.update_of_ne (hne j)]
    exact hself
  · rw [Function.update_of_ne hji]
    by_cases hoj : other j = i
    · rw [hoj] at hj ⊢
      rw [Function.update_self]
      omega
    · rw [Function.update_of_ne hoj]
      exact hj

theorem Fair.deliver (hne : ∀ i, other i ≠ i) (hinv : ∀ i, other (other i) = i)
    (h : Fair other x) (hflight : 0 < (x i).flight) :
    Fair other (Function.update (Function.update x i { x i with flight := (x i).flight - 1 })
      (other i) { x (other i) with permit := true }) := by
  have hbound := h.bound i
  constructor
  · intro j
    by_cases hj : j = other i
    · rw [hj, Function.update_self]
      exact Or.inl (Or.inl rfl)
    · by_cases hji : j = i
      · rw [hji, Function.update_self]
        exact Or.inr (Or.inl rfl)
      · have hoj : other j ≠ other i := fun he => hji (by rw [← hinv j, he, hinv])
        have hoi : other j ≠ i := fun he => hj (by rw [← he, hinv])
        rw [Function.update_of_ne hj, Function.update_of_ne hji, Function.update_of_ne hoj,
          Function.update_of_ne hoi]
        exact h.live j
  · intro j
    by_cases hj : j = other i
    · subst hj
      rw [Function.update_self, hinv, Function.update_of_ne (hne i).symm, Function.update_self]
      have hoi := h.bound (other i)
      rw [hinv] at hoi
      exact hoi
    · by_cases hji : j = i
      · subst hji
        rw [Function.update_self, Function.update_of_ne hj, Function.update_self]
        show (x (other j)).sent + 1 + (x j).pending + ((x j).flight - 1) ≤ (x j).sent + 1
        omega
      · have hoj : other j ≠ other i := fun he => hji (by rw [← hinv j, he, hinv])
        have hoi : other j ≠ i := fun he => hj (by rw [← he, hinv])
        rw [Function.update_of_ne hj, Function.update_of_ne hji, Function.update_of_ne hoj,
          Function.update_of_ne hoi]
        exact h.bound j

theorem Fair.step (hne : ∀ i, other i ≠ i) (hinv : ∀ i, other (other i) = i) {m : Move ι}
    (h : Fair other x) (hs : step other x m = some x') : Fair other x' := by
  cases m with
  | send i =>
    obtain ⟨hpermit, ⟨⟩⟩ := Option.ite_none_right_eq_some.mp hs
    have hbound := h.bound i
    refine ⟨live_update h.live (Or.inr (Or.inl (Nat.succ_pos _))), bound_update hne h ?_ ?_⟩
    · dsimp only
      omega
    · rw [hpermit]
      exact Nat.le_refl _
  | complete i =>
    obtain ⟨hpending, ⟨⟩⟩ := Option.ite_none_right_eq_some.mp hs
    have hbound := h.bound i
    refine ⟨live_update h.live (Or.inr (Or.inr (Nat.succ_pos _))), bound_update hne h ?_ ?_⟩
    · dsimp only
      omega
    · exact Nat.le_refl _
  | deliver i =>
    obtain ⟨hflight, ⟨⟩⟩ := Option.ite_none_right_eq_some.mp hs
    exact h.deliver hne hinv hflight

end

end DTun.Lib.Permits
