/-!
# Binary floating point of 64 bits

A number of the IEEE 754 interchange format is held as its bits, so that equality is equality of
bits and nothing depends on an arithmetic that proofs cannot see. Its magnitude is a whole number
of **units** of 2⁻¹⁰⁷⁴, the smallest positive number of the format.

* `units` reads the magnitude off the bits;
* `nearest?` goes back: the number nearest to a ratio, a tie going to the even significand, and
  none when the ratio lies beyond the largest finite number.

Because neighbouring magnitudes have neighbouring bits, rounding needs no cases: the rounded
significand added to the shifted exponent field is the answer, carries included.
-/

namespace RecordSql

/-- A floating point number, held as the bits of its interchange format. -/
structure Binary64 where
  bits : UInt64
  deriving DecidableEq, Repr

namespace Binary64

/-- Whether the sign bit is set. -/
def negative (x : Binary64) : Bool := decide (Nat.pow 2 63 ≤ x.bits.toNat)

/-- The eleven bits of the exponent. -/
def exponentField (x : Binary64) : Nat := x.bits.toNat / Nat.pow 2 52 % 2048

/-- The fifty-two stored bits of the significand. -/
def fractionField (x : Binary64) : Nat := x.bits.toNat % Nat.pow 2 52

/-- Whether the number is neither infinite nor a NaN. -/
def isFinite (x : Binary64) : Bool := decide (x.exponentField < 2047)

/-- The significand with its leading bit; numbers of the lowest exponent have none. -/
def significand (x : Binary64) : Nat :=
  if x.exponentField = 0 then x.fractionField else Nat.pow 2 52 + x.fractionField

/-- How many bits the significand is shifted to give units. -/
def shift (x : Binary64) : Nat := x.exponentField - 1

/-- The magnitude in units of 2⁻¹⁰⁷⁴. -/
def units (x : Binary64) : Nat := x.significand * Nat.pow 2 x.shift

/-- How many units make one. -/
def unitsPerOne : Nat := Nat.pow 2 1074

/-- The whole number nearest to `a / b`, a tie going to the even one. -/
def roundHalfEven (a b : Nat) : Nat :=
  let q := a / b
  let r := a % b
  if 2 * r < b then q
  else if b < 2 * r then q + 1
  else if q % 2 = 0 then q
  else q + 1

/-- The bits nearest to the magnitude `a / b` units, without regard to the largest exponent. -/
def roundedBits (a b : Nat) : Nat :=
  -- the last place is worth `2 ^ k` units, and one unit for the least numbers
  let k := Nat.log2 (a / b) - 52
  k * Nat.pow 2 52 + roundHalfEven a (b * Nat.pow 2 k)

/-- The bits of infinity, one above the largest finite magnitude. -/
def infinityBits : Nat := 2047 * Nat.pow 2 52

/-- The non-negative number nearest to `a / b` units. -/
def ofUnits? (a b : Nat) : Option Binary64 :=
  let n := roundedBits a b
  if n < infinityBits then some ⟨UInt64.ofNat n⟩ else none

/-- The non-negative number nearest to `num / den`. -/
def nearest? (num den : Nat) : Option Binary64 := ofUnits? (num * unitsPerOne) den

/-- The same magnitude with the sign bit set or not; meant for a non-negative number. -/
def withSign (negative : Bool) (x : Binary64) : Binary64 :=
  if negative then ⟨UInt64.ofNat (x.bits.toNat + Nat.pow 2 63)⟩ else x

/-- Positive zero. -/
def zero : Binary64 := ⟨0⟩

/-- The number nearest to an integer; within 64 bits there always is one. -/
def ofInt? (n : Int) : Option Binary64 := (nearest? n.natAbs 1).map (withSign (decide (n < 0)))

/-- The bits as sixteen lower-case hexadecimal digits. -/
def hexBits (x : Binary64) : String :=
  let digits := Nat.toDigits 16 x.bits.toNat
  String.ofList (List.replicate (16 - digits.length) '0' ++ digits)

end Binary64

end RecordSql
