import RecordSql.Text.Escaped

/-!
# Bytes in hexadecimal

Two digits to a byte, the high one first. Printing uses lower case; reading takes either case and
says what stopped it:

* an odd number of bytes is refused before anything else is looked at;
* otherwise the first byte that is no digit is named, with its place among the bytes of the text.
-/

namespace RecordSql.Text

/-- Why a text is not hexadecimal. -/
inductive HexFault where
  | oddLength
  | badDigit (byte : UInt8) (position : Nat)
  deriving DecidableEq, Repr

/-- The wording of a fault. -/
def HexFault.message : HexFault → String
  | .oddLength => "Odd number of digits"
  | .badDigit byte position => s!"Invalid character {latinQuoted byte} at position {position}"

namespace Hex

/-- The lower-case digit of a number below sixteen. -/
def digit (n : Nat) : Char := if n < 10 then Char.ofNat (48 + n) else Char.ofNat (87 + n)

/-- The two digits of a byte. -/
def encodeByte (b : UInt8) : List Char := [digit (b.toNat / 16), digit (b.toNat % 16)]

/-- Bytes as lower-case digits. -/
def encode (bytes : List UInt8) : String := String.ofList (bytes.flatMap encodeByte)

/-- The value of a digit of either case, given as a byte of the text. -/
def digitValue? (b : UInt8) : Option Nat :=
  let n := b.toNat
  if 48 ≤ n ∧ n ≤ 57 then some (n - 48)
  else if 97 ≤ n ∧ n ≤ 102 then some (n - 87)
  else if 65 ≤ n ∧ n ≤ 70 then some (n - 55)
  else none

/-- The value of the digit at a position, or the fault there. -/
def digitAt (b : UInt8) (position : Nat) : Except HexFault Nat :=
  match digitValue? b with
  | some n => .ok n
  | none => .error (.badDigit b position)

/-- Reads pairs of digits from a position on. -/
def decodePairs (position : Nat) : List UInt8 → Except HexFault (List UInt8)
  | high :: low :: rest => do
    let h ← digitAt high position
    let l ← digitAt low (position + 1)
    let bytes ← decodePairs (position + 2) rest
    pure (UInt8.ofNat (16 * h + l) :: bytes)
  | _ => .ok []

/-- The bytes of a text in UTF-8. -/
def utf8 (cs : List Char) : List UInt8 := cs.flatMap String.utf8EncodeChar

/-- Reads bytes from their digits. -/
def decode (cs : List Char) : Except HexFault (List UInt8) :=
  let bytes := utf8 cs
  if bytes.length % 2 = 1 then .error .oddLength else decodePairs 0 bytes

end Hex

end RecordSql.Text
