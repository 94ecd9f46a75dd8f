import RecordSql.Decimal.Binary64

/-!
# Shortest decimal digits

The decimal numeral that stands for a floating point number in text: as few significant digits as
read back to the same number, and of those the nearest to it.

For each digit count the two neighbours of the number on that decimal grid are the only
candidates, since a grid point that reads back has a neighbour that does. An exact tie between the
two goes to the even digit. Seventeen digits always suffice.
-/

namespace RecordSql.Decimal

/-- A decimal numeral `d.ddd… · 10^exponent`, given by its digits from the first on. -/
structure Numeral where
  digits : List Char
  exponent : Int
  deriving DecidableEq, Repr

/-- The digits of a natural number. -/
def digitsOf (n : Nat) : List Char := Nat.toDigits 10 n

/-- The exponent of the first decimal digit of the positive ratio `num / den`. -/
def leadingExponent (num den : Nat) : Int :=
  if den ≤ num then ((digitsOf (num / den)).length : Int) - 1
  else
    let k := (digitsOf (den / num)).length
    if den ≤ num * Nat.pow 10 (k - 1) then -((k : Int) - 1) else -(k : Int)

/-- The ratio `num / den` times `10 ^ e`, as a ratio. -/
def scaled (num den : Nat) (e : Int) : Nat × Nat :=
  if 0 ≤ e then (num * Nat.pow 10 e.toNat, den) else (num, den * Nat.pow 10 (-e).toNat)

/-- Whether `n · 10 ^ e` reads as `x`, a positive number. -/
def readsAs (x : Binary64) (n : Nat) (e : Int) : Bool :=
  let (num, den) := scaled n 1 e
  Binary64.nearest? num den == some x

/-- Which of `low` and `low + 1` lies nearer to `num / den`, a tie going to the even one. -/
def nearer (num den low : Nat) : Nat :=
  let r := 2 * (num - low * den)
  if r < den then low
  else if den < r then low + 1
  else if low % 2 = 0 then low
  else low + 1

/-- The candidate of `count` digits that reads back to the positive number `x`, if there is one;
`lead` is the exponent of its first digit. The result counts steps of `10 ^ (lead - count + 1)`. -/
def candidate? (x : Binary64) (lead : Int) (count : Nat) : Option Nat :=
  let step : Int := lead - (count : Int) + 1
  let (num, den) := scaled x.units Binary64.unitsPerOne (-step)
  let low := num / den
  if readsAs x low step then
    if readsAs x (low + 1) step then some (nearer num den low) else some low
  else if readsAs x (low + 1) step then some (low + 1)
  else none

/-- The digits without trailing zeros, the first one apart. -/
def dropTrailingZeros : List Char → List Char
  | [] => []
  | d :: rest => d :: (rest.reverse.dropWhile (· = '0')).reverse

/-- The numeral of the first digit count at or above `count` with a candidate; `lead` is the
exponent of the first digit of the number. -/
def search (candidate? : Nat → Option Nat) (lead : Int) (count : Nat) : (tries : Nat) → Numeral
  | 0 => ⟨['0'], 0⟩
  | tries + 1 =>
    match candidate? count with
    | none => search candidate? lead (count + 1) tries
    | some n =>
      -- rounding up may have given one digit more than `count`
      let digits := digitsOf n
      ⟨dropTrailingZeros digits, lead + ((digits.length : Int) - (count : Int))⟩

/-- The shortest numeral of the magnitude of a finite number. -/
def shortest (x : Binary64) : Numeral :=
  let x : Binary64 := ⟨UInt64.ofNat (x.bits.toNat % Nat.pow 2 63)⟩
  if x.units = 0 then ⟨['0'], 0⟩
  else
    let lead := leadingExponent x.units Binary64.unitsPerOne
    search (candidate? x lead) lead 1 17

end RecordSql.Decimal
