import RecordSql.Decimal.Binary64

/-!
# Reading numbers written in text

Two readers for numbers typed by people, both strict about what stands around the number:

* `readInteger?` takes an optional sign and one or more ASCII digits;
* `readDecimal?` also takes a point and an exponent, with digits on at least one side of the
  point, and rounds to the nearest floating point number. Words such as `inf` and `nan` are no
  numbers here, and neither is anything that rounds to infinity.
-/

namespace RecordSql.Decimal

/-- The value of an ASCII digit. -/
def digitValue (c : Char) : Nat := c.toNat - 48

/-- The value of a run of digits, after those that gave `acc`. -/
def digitsValue (acc : Nat) (cs : List Char) : Nat :=
  cs.foldl (fun n c => 10 * n + digitValue c) acc

/-- An optional sign, and what follows it. The sign is `true` for minus. -/
def sign : List Char → Bool × List Char
  | '-' :: rest => (true, rest)
  | '+' :: rest => (false, rest)
  | rest => (false, rest)

/-- The value of a text that is digits throughout, and at least one. -/
def wholeNumber? (cs : List Char) : Option Nat :=
  if cs ≠ [] ∧ cs.all Char.isDigit then some (digitsValue 0 cs) else none

/-- The integer that a text denotes. -/
def readInteger? (cs : List Char) : Option Int :=
  let (negative, rest) := sign cs
  (wholeNumber? rest).map fun n => if negative then -(n : Int) else (n : Int)

/-- A leading run of digits, and what follows it. -/
def spanDigits (cs : List Char) : List Char × List Char :=
  (cs.takeWhile Char.isDigit, cs.dropWhile Char.isDigit)

/-- The exponent that ends a numeral: nothing, or a mark and an integer. -/
def exponent? : List Char → Option Int
  | [] => some 0
  | c :: rest => if c = 'e' ∨ c = 'E' then readInteger? rest else none

/-- The number nearest to `n · 10 ^ e`. Exponents so large or so small that the answer is infinity
or zero whatever the digits are settled by the digit count alone. -/
def nearestScaled? (n : Nat) (e : Int) : Option Binary64 :=
  let first : Int := ((Nat.toDigits 10 n).length : Int) + e
  if n = 0 ∨ first < -400 then some .zero
  else if 400 < first then none
  else if 0 ≤ e then Binary64.nearest? (n * Nat.pow 10 e.toNat) 1
  else Binary64.nearest? n (Nat.pow 10 (-e).toNat)

/-- The finite number that a text denotes. -/
def readDecimal? (cs : List Char) : Option Binary64 := do
  let (negative, cs) := sign cs
  let (whole, rest) := spanDigits cs
  let (fraction, rest) :=
    match rest with
    | '.' :: rest => spanDigits rest
    | rest => ([], rest)
  if whole = [] ∧ fraction = [] then none
  else do
    let e ← exponent? rest
    let x ← nearestScaled? (digitsValue 0 (whole ++ fraction)) (e - (fraction.length : Int))
    pure (x.withSign negative)

end RecordSql.Decimal
