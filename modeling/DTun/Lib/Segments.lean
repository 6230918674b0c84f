import Mathlib.Data.List.TakeDrop

/-!
# A list of segments seen through an offset

A stream is given as a list of segments. A reader that has gone `n` elements into the
stream has `passed` some segments whole and has the others, the first one cut, in front of
it (`skip`). Both are functions of the offset alone, so a queue that is consumed piece by
piece is described by one number.
-/

namespace DTun.Lib.Segments

variable {α : Type*}

/-- What is left of the segments after the first `n` elements. -/
def skip : List (List α) → Nat → List (List α)
  | [], _ => []
  | s :: rest, n => if s.length ≤ n then skip rest (n - s.length) else s.drop n :: rest

/-- How many segments lie whole within the first `n` elements. -/
def passed : List (List α) → Nat → Nat
  | [], _ => 0
  | s :: rest, n => if s.length ≤ n then passed rest (n - s.length) + 1 else 0

/-- A segment that is shorter than the offset is skipped. -/
theorem skip_of_le {s : List α} {n : Nat} (h : s.length ≤ n) (rest : List (List α)) :
    skip (s :: rest) n = skip rest (n - s.length) := by
  rw [skip, if_pos h]

theorem skip_of_lt {s : List α} {n : Nat} (h : n < s.length) (rest : List (List α)) :
    skip (s :: rest) n = s.drop n :: rest := by
  rw [skip, if_neg (by omega)]

theorem passed_of_le {s : List α} {n : Nat} (h : s.length ≤ n) (rest : List (List α)) :
    passed (s :: rest) n = passed rest (n - s.length) + 1 := by
  rw [passed, if_pos h]

theorem passed_of_lt {s : List α} {n : Nat} (h : n < s.length) (rest : List (List α)) :
    passed (s :: rest) n = 0 := by
  rw [passed, if_neg (by omega)]

theorem flatten_skip (segs : List (List α)) (n : Nat) :
    (skip segs n).flatten = segs.flatten.drop n := by
  induction segs generalizing n with
  | nil => simp [skip]
  | cons s rest ih =>
    rcases Nat.lt_or_ge n s.length with hlt | hle
    · rw [skip_of_lt hlt, List.flatten_cons, List.flatten_cons,
        List.drop_append_of_le_length (by omega)]
    · rw [skip_of_le hle, ih, List.flatten_cons, List.drop_append, List.drop_eq_nil_of_le hle,
        List.nil_append]

theorem passed_add_length_skip (segs : List (List α)) (n : Nat) :
    passed segs n + (skip segs n).length = segs.length := by
  induction segs generalizing n with
  | nil => rfl
  | cons s rest ih =>
    rcases Nat.lt_or_ge n s.length with hlt | hle
    · rw [skip_of_lt hlt, passed_of_lt hlt, List.length_cons, List.length_cons, Nat.zero_add]
    · have hrest := ih (n - s.length)
      rw [skip_of_le hle, passed_of_le hle, List.length_cons]
      omega

/-- Segment `i` is passed exactly when the offset has reached its end. -/
theorem lt_passed_iff {segs : List (List α)} {i : Nat} (hi : i < segs.length) (n : Nat) :
    i < passed segs n ↔ (segs.take (i + 1)).flatten.length ≤ n := by
  induction segs generalizing i n with
  | nil => simp at hi
  | cons s rest ih =>
    rw [List.take_succ_cons, List.flatten_cons, List.length_append]
    rcases Nat.lt_or_ge n s.length with hlt | hle
    · rw [passed_of_lt hlt]
      omega
    · rw [passed_of_le hle]
      cases i with
      | zero => simp [hle]
      | succ i =>
        have hrest := ih (by simpa using hi) (n - s.length)
        omega

/-- No segment is empty, so an offset has a definite segment to stand in. -/
def Solid (segs : List (List α)) : Prop := ∀ s ∈ segs, s ≠ []

theorem Solid.of_cons {s : List α} {rest : List (List α)} (h : Solid (s :: rest)) :
    0 < s.length ∧ Solid rest :=
  ⟨List.length_pos_iff.mpr (h s List.mem_cons_self), fun t ht => h t (List.mem_cons_of_mem _ ht)⟩

theorem solid_append_singleton {segs : List (List α)} {s : List α} (h : Solid segs) (hs : s ≠ []) :
    Solid (segs ++ [s]) := by
  intro t ht
  rcases List.mem_append.mp ht with ht | ht
  · exact h t ht
  · rw [List.mem_singleton.mp ht]
    exact hs

theorem skip_zero {segs : List (List α)} (h : Solid segs) : skip segs 0 = segs := by
  cases segs with
  | nil => rfl
  | cons s rest => rw [skip_of_lt h.of_cons.1, List.drop_zero]

theorem passed_zero {segs : List (List α)} (h : Solid segs) : passed segs 0 = 0 := by
  cases segs with
  | nil => rfl
  | cons s rest => rw [passed_of_lt h.of_cons.1]

theorem solid_skip {segs : List (List α)} (h : Solid segs) (n : Nat) : Solid (skip segs n) := by
  induction segs generalizing n with
  | nil => exact h
  | cons s rest ih =>
    rcases Nat.lt_or_ge n s.length with hlt | hle
    · rw [skip_of_lt hlt]
      intro t ht
      rcases List.mem_cons.mp ht with rfl | ht
      · exact List.ne_nil_of_length_pos (by rw [List.length_drop]; omega)
      · exact h.of_cons.2 t ht
    · rw [skip_of_le hle]
      exact ih h.of_cons.2 _

/-- Going on from an offset is going to the sum. -/
theorem skip_skip {segs : List (List α)} (h : Solid segs) (a b : Nat) :
    skip (skip segs a) b = skip segs (a + b) := by
  induction segs generalizing a with
  | nil => rfl
  | cons s rest ih =>
    rcases Nat.lt_or_ge a s.length with hlt | hle
    · rw [skip_of_lt hlt]
      rcases Nat.lt_or_ge (a + b) s.length with hlt' | hle'
      · rw [skip_of_lt hlt', skip_of_lt (by rw [List.length_drop]; omega), List.drop_drop]
      · rw [skip_of_le hle', skip_of_le (by rw [List.length_drop]; omega), List.length_drop]
        congr 1
        omega
    · rw [skip_of_le hle, skip_of_le (by omega), ih h.of_cons.2]
      congr 1
      omega

theorem passed_add (segs : List (List α)) (a b : Nat) :
    passed segs (a + b) = passed segs a + passed (skip segs a) b := by
  induction segs generalizing a with
  | nil => rfl
  | cons s rest ih =>
    rcases Nat.lt_or_ge a s.length with hlt | hle
    · rw [skip_of_lt hlt, passed_of_lt hlt, Nat.zero_add]
      rcases Nat.lt_or_ge (a + b) s.length with hlt' | hle'
      · rw [passed_of_lt hlt', passed_of_lt (by rw [List.length_drop]; omega)]
      · rw [passed_of_le hle', passed_of_le (by rw [List.length_drop]; omega), List.length_drop,
          show b - (s.length - a) = a + b - s.length by omega]
    · rw [skip_of_le hle, passed_of_le hle, passed_of_le (by omega),
        show a + b - s.length = a - s.length + b by omega, ih]
      omega

/-- A segment added behind the offset stays whole. -/
theorem skip_append {segs : List (List α)} {n : Nat} (hn : n ≤ segs.flatten.length) {s : List α}
    (hs : s ≠ []) : skip (segs ++ [s]) n = skip segs n ++ [s] := by
  induction segs generalizing n with
  | nil =>
    obtain rfl : n = 0 := by simpa using hn
    rw [List.nil_append, skip_of_lt (List.length_pos_iff.mpr hs), List.drop_zero]
    rfl
  | cons t rest ih =>
    rw [List.flatten_cons, List.length_append] at hn
    rcases Nat.lt_or_ge n t.length with hlt | hle
    · rw [List.cons_append, skip_of_lt hlt, skip_of_lt hlt, List.cons_append]
    · rw [List.cons_append, skip_of_le hle, skip_of_le hle, ih (by omega)]

theorem passed_append {segs : List (List α)} {n : Nat} (hn : n ≤ segs.flatten.length) {s : List α}
    (hs : s ≠ []) : passed (segs ++ [s]) n = passed segs n := by
  have hall := passed_add_length_skip (segs ++ [s]) n
  have hold := passed_add_length_skip segs n
  rw [skip_append hn hs, List.length_append, List.length_append] at hall
  omega

/-- Nothing is left exactly when the offset is at the end. -/
theorem skip_eq_nil_iff {segs : List (List α)} (h : Solid segs) {n : Nat} :
    skip segs n = [] ↔ segs.flatten.length ≤ n := by
  have hflat := congrArg List.length (flatten_skip segs n)
  rw [List.length_drop] at hflat
  constructor
  · intro hnil
    rw [hnil, List.flatten_nil, List.length_nil] at hflat
    omega
  · intro hle
    cases hskip : skip segs n with
    | nil => rfl
    | cons s rest =>
      have hsolid := solid_skip h n
      rw [hskip] at hsolid
      have hpos := hsolid.of_cons.1
      rw [hskip, List.flatten_cons, List.length_append] at hflat
      omega

end DTun.Lib.Segments
