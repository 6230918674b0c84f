import Mathlib.Data.List.Basic

/-!
# A bounded circular buffer

The storage is a ring of `capacity` cells and the content starts at `start`; it wraps at
most once, so it is the concatenation of two contiguous arrays. Readers that copy the two
arrays one after the other see the content in order (`copy_eq`).
-/

namespace DTun.Lib

structure CircularBuffer (α : Type*) (capacity : Nat) where
  start : Nat
  content : List α
  fits : content.length ≤ capacity

namespace CircularBuffer

variable {α : Type*} {capacity : Nat} (b : CircularBuffer α capacity)

def empty : CircularBuffer α capacity := ⟨0, [], Nat.zero_le _⟩

def size : Nat := b.content.length

/-- The part of the content before the end of the storage. -/
def arrayOne : List α := b.content.take (capacity - b.start)

/-- The part of the content that has wrapped. -/
def arrayTwo : List α := b.content.drop (capacity - b.start)

def eraseBegin (n : Nat) : CircularBuffer α capacity where
  start := (b.start + n) % capacity
  content := b.content.drop n
  fits := by
    rw [List.length_drop]
    have := b.fits
    omega

/-- Append at the end; the caller has checked that there is room. -/
def insertEnd (xs : List α) (h : xs.length ≤ capacity - b.size) : CircularBuffer α capacity where
  start := b.start
  content := b.content ++ xs
  fits := by
    rw [List.length_append]
    have := b.fits
    unfold size at h
    omega

/-- Copy up to `n` elements: first from one array, then from the other. -/
def copy (n : Nat) : List α :=
  b.arrayOne.take n ++ b.arrayTwo.take (n - (b.arrayOne.take n).length)

theorem arrayOne_append_arrayTwo : b.arrayOne ++ b.arrayTwo = b.content :=
  List.take_append_drop _ _

/-- The wrap is invisible to a reader. -/
theorem copy_eq (n : Nat) : b.copy n = b.content.take n := by
  rw [copy, ← b.arrayOne_append_arrayTwo, List.take_append, List.length_take]
  congr 2
  omega

@[simp] theorem content_eraseBegin (n : Nat) : (b.eraseBegin n).content = b.content.drop n := rfl

@[simp] theorem content_insertEnd (xs : List α) (h : xs.length ≤ capacity - b.size) :
    (b.insertEnd xs h).content = b.content ++ xs := rfl

end CircularBuffer

end DTun.Lib
