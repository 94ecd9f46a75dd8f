import RecordSql.Decimal.Shortest

/-!
# Numbers of JSON values

A JSON number is held in one of two ways, and the way is part of the value:

* an **integer** from −2⁶³ up to 2⁶⁴ − 1;
* a **decimal**, a finite floating point number; `1.0` is a decimal, however whole it is.

Both are printed so that the two ways can be told apart again: a decimal always has a point or an
exponent.
-/

namespace RecordSql.Json

/-- A JSON number, held exactly as an integer or as a finite floating point number. -/
inductive Number where
  | integer (n : Int) (inRange : -9223372036854775808 ≤ n ∧ n < 18446744073709551616)
  | decimal (x : Binary64) (finite : x.isFinite = true)
  deriving DecidableEq

namespace Number

/-- The number of an integer that fits. -/
def ofInt? (n : Int) : Option Number :=
  if h : -9223372036854775808 ≤ n ∧ n < 18446744073709551616 then some (.integer n h) else none

/-- The number of a floating point number that is finite. -/
def ofBinary64? (x : Binary64) : Option Number :=
  if h : x.isFinite = true then some (.decimal x h) else none

/-- The number of a natural number that fits sixty-four bits. -/
def ofUInt64 (n : UInt64) : Number :=
  .integer n.toNat (by have := n.toNat_lt; constructor <;> omega)

/-- The number of a signed integer of sixty-four bits. -/
def ofInt64 (n : Int64) : Number :=
  .integer n.toInt (by have := n.le_toInt; have := n.toInt_lt; constructor <;> omega)

/-- The number as a signed integer of sixty-four bits; a decimal is never one. -/
def toInt64? : Number → Option Int64
  | .integer n _ => if n < 9223372036854775808 then some (Int64.ofInt n) else none
  | .decimal .. => none

/-- The number as a natural number; a decimal is never one. -/
def toNat? : Number → Option Nat
  | .integer n _ => if 0 ≤ n then some n.toNat else none
  | .decimal .. => none

/-- The number as a floating point number, rounded to the nearest. -/
def toBinary64 : Number → Binary64
  | .integer n _ => (Binary64.ofInt? n).getD .zero
  | .decimal x _ => x

end Number

/-! ## Text of a number -/

/-- Where a numeral is written with its point in place, and where with an exponent. -/
structure Layout where
  lowest : Int
  highest : Int

/-- Decimals have their point in place when the first digit stands between the fifth place after
the point and the sixteenth before it. -/
def decimalLayout : Layout := ⟨-5, 15⟩

/-- A numeral with its point in place, and a digit on either side of it. -/
def positional (n : Decimal.Numeral) : List Char :=
  if 0 ≤ n.exponent then
    let width := n.exponent.toNat + 1
    let whole := n.digits.take width ++ List.replicate (width - n.digits.length) '0'
    let fraction := n.digits.drop width
    whole ++ '.' :: (if fraction = [] then ['0'] else fraction)
  else '0' :: '.' :: List.replicate ((-n.exponent).toNat - 1) '0' ++ n.digits

/-- A numeral with one digit before the point, no point after a lone digit, and an exponent that
always has its sign. -/
def scientific (n : Decimal.Numeral) : List Char :=
  let mark := if n.exponent < 0 then ['e', '-'] else ['e', '+']
  let mantissa :=
    match n.digits with
    | [] => []
    | [d] => [d]
    | d :: rest => d :: '.' :: rest
  mantissa ++ mark ++ Nat.toDigits 10 n.exponent.natAbs

/-- A numeral as the layout wants it. -/
def Layout.write (layout : Layout) (n : Decimal.Numeral) : List Char :=
  if layout.lowest ≤ n.exponent ∧ n.exponent ≤ layout.highest then positional n else scientific n

/-- The text of a number: an integer in plain digits, a decimal in the fewest digits that read
back to it. -/
def Number.text : Number → String
  | .integer n _ => toString n
  | .decimal x _ =>
    let magnitude := decimalLayout.write (Decimal.shortest x)
    String.ofList (if x.negative then '-' :: magnitude else magnitude)

end RecordSql.Json
