import Mathlib.Data.List.Basic
import Mathlib.Data.Nat.ModEq
import Mathlib.Logic.Function.Basic

/-!
# The storage of a circular buffer

A ring of `capacity` cells whose content is `size` elements from `first` on. Elements are
erased by moving `first`; the cells keep what they hold until something else is stored there.
So a reader that has been given a piece of the storage may go on reading it after the erase,
as long as nothing is stored over it.

Positions in the stream of all elements ever stored are natural numbers; `window` lists the
cells of a stretch of them.
-/

namespace DTun.Lib

/-- The cells of the positions from `first` to `first + n`. -/
def window (capacity first n : Nat) : List Nat :=
  (List.range n).map fun i => (first + i) % capacity

/-- Store a list from position `pos` on. -/
def store {α : Type*} (capacity : Nat) (cell : Nat → α) (pos : Nat) : List α → Nat → α
  | [] => cell
  | x :: xs => store capacity (Function.update cell (pos % capacity) x) (pos + 1) xs

/-- A contiguous piece of the storage. -/
structure Piece where
  first : Nat
  len : Nat
  deriving DecidableEq, Repr

def Piece.cells (p : Piece) : List Nat := List.range' p.first p.len

structure Ring (α : Type*) (capacity : Nat) where
  cell : Nat → α
  first : Nat
  size : Nat

namespace Ring

variable {α : Type*} {capacity : Nat} (r : Ring α capacity)

/-- What a piece of the storage holds now. -/
def load (p : Piece) : List α := p.cells.map r.cell

/-- The content up to the end of the storage. -/
def arrayOne : Piece := ⟨r.first, min r.size (capacity - r.first)⟩

/-- The part of the content that has wrapped. -/
def arrayTwo : Piece := ⟨0, r.size - (capacity - r.first)⟩

/-- Append; the caller sees to it that there is room. -/
def insertEnd (xs : List α) : Ring α capacity :=
  { r with cell := store capacity r.cell (r.first + r.size) xs, size := r.size + xs.length }

def eraseBegin (n : Nat) : Ring α capacity :=
  { r with first := (r.first + n) % capacity, size := r.size - n }

end Ring

variable {α : Type*} {capacity a b k m n pos : Nat}

@[simp] theorem length_window : (window capacity a n).length = n := by
  simp [window]

theorem window_mod : window capacity (a % capacity) n = window capacity a n := by
  simp [window]

theorem window_append :
    window capacity a (m + n) = window capacity a m ++ window capacity (a + m) n := by
  simp only [window, List.range_add, List.map_append, List.map_map]
  congr 1
  refine List.map_congr_left fun i _ => ?_
  simp only [Function.comp_apply]
  congr 1
  omega

theorem window_succ : window capacity a (n + 1) = a % capacity :: window capacity (a + 1) n := by
  rw [Nat.add_comm n 1, window_append]
  simp [window]

theorem mem_window {c : Nat} : c ∈ window capacity a n ↔ ∃ i < n, (a + i) % capacity = c := by
  simp [window]

/-- Two stretches that together do not exceed the ring share no cell. -/
theorem not_mem_window_of_mem {c : Nat} (hfit : m + n ≤ capacity)
    (h : c ∈ window capacity a m) : c ∉ window capacity (a + m) n := by
  intro h'
  obtain ⟨i, hi, rfl⟩ := mem_window.mp h
  obtain ⟨j, hj, heq⟩ := mem_window.mp h'
  have hmod : a + i ≡ a + i + (m + j - i) [MOD capacity] := by
    rw [show a + i + (m + j - i) = a + m + j by omega]
    exact heq.symm
  have hzero : 0 ≡ m + j - i [MOD capacity] := Nat.ModEq.add_left_cancel' (a + i) hmod
  have hle := Nat.le_of_dvd (by omega) ((Nat.modEq_zero_iff_dvd).mp hzero.symm)
  omega

theorem store_of_notMem {cell : Nat → α} {xs : List α} {c : Nat}
    (h : c ∉ window capacity pos xs.length) : store capacity cell pos xs c = cell c := by
  induction xs generalizing cell pos with
  | nil => rfl
  | cons x xs ih =>
    rw [List.length_cons, window_succ, List.mem_cons, not_or] at h
    rw [store, ih h.2, Function.update_of_ne h.1]

/-- What has been stored can be read back. -/
theorem map_store_window {cell : Nat → α} {xs : List α} (h : xs.length ≤ capacity) :
    (window capacity pos xs.length).map (store capacity cell pos xs) = xs := by
  induction xs generalizing cell pos with
  | nil => rfl
  | cons x xs ih =>
    rw [List.length_cons] at h
    have hfirst : pos % capacity ∉ window capacity (pos + 1) xs.length :=
      not_mem_window_of_mem (m := 1) (by omega) (by simp [window])
    rw [List.length_cons, window_succ, List.map_cons, store, ih (by omega),
      store_of_notMem hfirst, Function.update_self]

namespace Ring

variable {r : Ring α capacity}

theorem window_eq_range' (h : a + n ≤ capacity) :
    window capacity a n = List.range' a n := by
  induction n generalizing a with
  | zero => rfl
  | succ n ih =>
    rw [window_succ, List.range'_succ, ih (by omega), Nat.mod_eq_of_lt (by omega)]

/-- The two arrays are the cells of the content, in order. -/
theorem arrays_cells (hfirst : r.first < capacity) (hsize : r.size ≤ capacity) :
    r.arrayOne.cells ++ r.arrayTwo.cells = window capacity r.first r.size := by
  simp only [arrayOne, arrayTwo, Piece.cells]
  by_cases hwrap : r.size ≤ capacity - r.first
  · rw [Nat.min_eq_left hwrap, Nat.sub_eq_zero_of_le hwrap, List.range'_zero, List.append_nil,
      window_eq_range' (by omega)]
  · rw [Nat.min_eq_right (by omega)]
    conv_rhs =>
      rw [show r.size = (capacity - r.first) + (r.size - (capacity - r.first)) by omega,
        window_append, show r.first + (capacity - r.first) = capacity by omega,
        ← window_mod (a := capacity), Nat.mod_self]
    rw [window_eq_range' (by omega), window_eq_range' (by omega)]

/-- A list is put into an empty ring: its cells, and what the two arrays then hold. -/
theorem insertEnd_arrays {xs : List α} (hfirst : r.first = pos % capacity) (hsize : r.size = 0)
    (hpos : 0 < capacity) (hfit : xs.length ≤ capacity) :
    (r.insertEnd xs).arrayOne.cells ++ (r.insertEnd xs).arrayTwo.cells =
      window capacity pos xs.length ∧
    (r.insertEnd xs).load (r.insertEnd xs).arrayOne ++
      (r.insertEnd xs).load (r.insertEnd xs).arrayTwo = xs := by
  have hlt : (r.insertEnd xs).first < capacity := by
    change r.first < capacity
    rw [hfirst]
    exact Nat.mod_lt _ hpos
  have hlen : (r.insertEnd xs).size = xs.length := by
    change r.size + xs.length = xs.length
    omega
  have hcells := arrays_cells hlt (by omega)
  rw [hlen] at hcells
  constructor
  · rw [hcells, ← window_mod (a := pos), ← hfirst]
    rfl
  · unfold load
    rw [← List.map_append, hcells]
    change (window capacity r.first xs.length).map
      (store capacity r.cell (r.first + r.size) xs) = xs
    rw [hsize, Nat.add_zero]
    exact map_store_window hfit

theorem arrays_len (xs : List α) (hsize : r.size = 0) :
    (r.insertEnd xs).arrayOne.len + (r.insertEnd xs).arrayTwo.len = xs.length := by
  simp only [arrayOne, arrayTwo, insertEnd, hsize]
  omega

/-- Cells outside the new content keep what they hold. -/
theorem load_insertEnd {xs : List α} {p : Piece} (hfirst : r.first = pos % capacity)
    (hsize : r.size = 0) (h : ∀ c ∈ p.cells, c ∉ window capacity pos xs.length) :
    (r.insertEnd xs).load p = r.load p := by
  refine List.map_congr_left fun c hc => ?_
  change store capacity r.cell (r.first + r.size) xs c = r.cell c
  refine store_of_notMem ?_
  rw [hsize, Nat.add_zero, hfirst, window_mod]
  exact h c hc

end Ring

end DTun.Lib
