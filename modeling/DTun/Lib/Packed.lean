import Mathlib.Algebra.Group.Nat.Defs
import Mathlib.Data.List.Basic

/-!
# Packed records

How a value lies in memory when nothing pads it: a `Packed α` has a size, writes its bytes
and reads them back. Integers are stored in a byte order that is a parameter, and records are
built field by field.
-/

namespace DTun.Lib

inductive ByteOrder where
  | little
  | big
  deriving DecidableEq, Repr

/-- The `n` low bytes of a number, the lowest first. -/
def lowBytes : Nat → Nat → List UInt8
  | 0, _ => []
  | n + 1, v => UInt8.ofNat v :: lowBytes n (v / 256)

/-- The number with these bytes, the lowest first. -/
def ofLowBytes : List UInt8 → Nat
  | [] => 0
  | b :: bs => b.toNat + 256 * ofLowBytes bs

@[simp] theorem length_lowBytes (n v : Nat) : (lowBytes n v).length = n := by
  induction n generalizing v with
  | zero => rfl
  | succ n ih => rw [lowBytes, List.length_cons, ih]

theorem ofLowBytes_lowBytes {n v : Nat} (h : v < 256 ^ n) : ofLowBytes (lowBytes n v) = v := by
  induction n generalizing v with
  | zero =>
    have hv : v = 0 := by simpa using h
    rw [hv]
    rfl
  | succ n ih =>
    have hq : v / 256 < 256 ^ n := by
      rw [Nat.div_lt_iff_lt_mul (by omega), ← Nat.pow_succ]
      exact h
    rw [lowBytes, ofLowBytes, ih hq, UInt8.toNat_ofNat']
    show v % 256 + 256 * (v / 256) = v
    exact Nat.mod_add_div v 256

namespace ByteOrder

def put (o : ByteOrder) (n v : Nat) : List UInt8 :=
  match o with
  | .little => lowBytes n v
  | .big => (lowBytes n v).reverse

def get (o : ByteOrder) (bytes : List UInt8) : Nat :=
  match o with
  | .little => ofLowBytes bytes
  | .big => ofLowBytes bytes.reverse

@[simp] theorem length_put (o : ByteOrder) (n v : Nat) : (o.put n v).length = n := by
  cases o with
  | little => exact length_lowBytes n v
  | big => rw [put, List.length_reverse, length_lowBytes]

theorem get_put (o : ByteOrder) {n v : Nat} (h : v < 256 ^ n) : o.get (o.put n v) = v := by
  cases o with
  | little => exact ofLowBytes_lowBytes h
  | big =>
    show ofLowBytes (lowBytes n v).reverse.reverse = v
    rw [List.reverse_reverse]
    exact ofLowBytes_lowBytes h

end ByteOrder

/-- A layout without padding. What follows the value in memory is not read. -/
structure Packed (α : Type) where
  size : Nat
  put : α → List UInt8
  get : List UInt8 → α
  length_put : ∀ a, (put a).length = size
  get_put : ∀ a rest, get (put a ++ rest) = a

namespace Packed

variable {α β : Type}

/-- The value alone is read back. -/
theorem get_put_self (p : Packed α) (a : α) : p.get (p.put a) = a := by
  have h := p.get_put a []
  rwa [List.append_nil] at h

/-- An integer type of `n` bytes. -/
def word (o : ByteOrder) (n : Nat) (toNat : α → Nat) (ofNat : Nat → α)
    (lt : ∀ a, toNat a < 256 ^ n) (ofNat_toNat : ∀ a, ofNat (toNat a) = a) : Packed α where
  size := n
  put a := o.put n (toNat a)
  get bytes := ofNat (o.get (bytes.take n))
  length_put a := o.length_put n (toNat a)
  get_put a rest := by
    rw [List.take_left' (o.length_put n (toNat a)), o.get_put (lt a), ofNat_toNat]

/-- One byte, which has no order. -/
def uint8 : Packed UInt8 :=
  word .little 1 UInt8.toNat UInt8.ofNat UInt8.toNat_lt (fun _ => UInt8.ofNat_toNat)

def uint16 (o : ByteOrder) : Packed UInt16 :=
  word o 2 UInt16.toNat UInt16.ofNat UInt16.toNat_lt (fun _ => UInt16.ofNat_toNat)

def uint32 (o : ByteOrder) : Packed UInt32 :=
  word o 4 UInt32.toNat UInt32.ofNat UInt32.toNat_lt (fun _ => UInt32.ofNat_toNat)

/-- One field after the other. -/
def pair (p : Packed α) (q : Packed β) : Packed (α × β) where
  size := p.size + q.size
  put ab := p.put ab.1 ++ q.put ab.2
  get bytes := (p.get bytes, q.get (bytes.drop p.size))
  length_put ab := by rw [List.length_append, p.length_put, q.length_put]
  get_put ab rest := by
    rw [List.append_assoc, p.get_put, List.drop_left' (p.length_put ab.1), q.get_put]

/-- The same bytes for a type with the same values. -/
def via (p : Packed α) (of : α → β) (fields : β → α) (of_fields : ∀ b, of (fields b) = b) :
    Packed β where
  size := p.size
  put b := p.put (fields b)
  get bytes := of (p.get bytes)
  length_put b := p.length_put (fields b)
  get_put b rest := by rw [p.get_put, of_fields]

end Packed

end DTun.Lib
