import Mathlib.Algebra.Group.Nat.Defs
import Mathlib.Algebra.Ring.Int.Defs

/-!
# Numbers and addresses in text

How the C and C++ libraries that `dutil` and `dnode` call read a number or an address from
a string: `atoi` takes what it can and never fails, a stream insists on the whole string,
and `inet_pton` accepts dotted quads and nothing else.
-/

namespace DTun.Util

/-- A `std::string`. -/
abbrev Str := List Char

namespace Text

/-- What `c_str()` shows of a string. -/
def cStr (s : Str) : Str := s.takeWhile fun c => c.toNat ≠ 0

def isspace (c : Char) : Bool := c.toNat = 32 || (9 ≤ c.toNat && c.toNat ≤ 13)

def isdigit (c : Char) : Bool := 48 ≤ c.toNat && c.toNat ≤ 57

def number (digits : Str) : Nat := digits.foldl (fun n c => n * 10 + (c.toNat - 48)) 0

/-- A sign, which may be left out, and as many digits as there are, with what follows them. -/
def signed (s : Str) : Option (Int × Str) :=
  let neg := s.head? = some '-'
  let t := if s.head? = some '-' ∨ s.head? = some '+' then s.tail else s
  let digits := t.takeWhile isdigit
  if digits = [] then none
  else some (if neg then -(number digits : Int) else number digits, t.dropWhile isdigit)

/-- `atoi` as it is implemented, `(int) strtol`: what is no number is 0, a number beyond
`long` is the nearest `long`, and the rest is cut to 32 bits. -/
def atoi (s : Str) : Int :=
  let value := ((signed ((cStr s).dropWhile isspace)).map Prod.fst).getD 0
  Int.bmod (max (-2 ^ 63) (min value (2 ^ 63 - 1))) (2 ^ 32)

/-- `get_value_optional<SInt32>`: a stream reads the number, and only white space follows. -/
def readSInt32 (s : Str) : Option Int :=
  match signed (s.dropWhile isspace) with
  | none => none
  | some (value, rest) =>
    if (-2 ^ 31 ≤ value ∧ value < 2 ^ 31) ∧ rest.all isspace = true then some value else none

/-- One number of a dotted quad, without leading zeros. -/
def octet (s : Str) : Option Nat :=
  if s ≠ [] ∧ s.all isdigit = true ∧ (s.head? = some '0' → s.length = 1) ∧ number s ≤ 255 then
    some (number s)
  else none

/-- `inet_pton(AF_INET, ..)`: the address as it is in memory, its first byte the lowest. -/
def inetPton (s : Str) : Option Nat :=
  match (s.splitOn '.').map octet with
  | [some a, some b, some c, some d] => some (a + b * 2 ^ 8 + c * 2 ^ 16 + d * 2 ^ 24)
  | _ => none

def stringToIp (s : Str) : Option Nat := inetPton (cStr s)

end Text

end DTun.Util
