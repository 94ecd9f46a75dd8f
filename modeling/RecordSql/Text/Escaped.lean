/-!
# Characters as messages show them

A message that complains about one character has to show it even when it cannot be printed. Two
spellings are in use:

* `escaped` names everything outside printable ASCII by its code point;
* `latinQuoted` shows a byte as the Latin-1 character of that number, between single quotes.
-/

namespace RecordSql.Text

/-- A number in lower-case hexadecimal, without padding. -/
def hexNumber (n : Nat) : String := String.ofList (Nat.toDigits 16 n)

/-- The code point of a character, as `\u` and its number in braces. -/
def codePoint (c : Char) : String := "\\u\x7b" ++ hexNumber c.toNat ++ "\x7d"

/-- Printable ASCII stands for itself, except that quotes and the backslash get a backslash; tab,
line feed and carriage return have their letters; the rest goes by its code point. -/
def escaped (c : Char) : String :=
  if c = '\t' then "\\t"
  else if c = '\r' then "\\r"
  else if c = '\n' then "\\n"
  else if c = '\'' ∨ c = '"' ∨ c = '\\' then String.ofList ['\\', c]
  else if 0x20 ≤ c.toNat ∧ c.toNat ≤ 0x7e then c.toString
  else codePoint c

/-- Whether the Latin-1 character of this number leaves a visible mark: the controls, the no-break
space and the soft hyphen do not. -/
def latinVisible (n : Nat) : Bool :=
  (0x20 ≤ n && n ≤ 0x7e) || (0xa1 ≤ n && n != 0xad)

/-- A byte as a quoted Latin-1 character. A double quote needs no backslash here. -/
def latinQuoted (b : UInt8) : String :=
  let c := Char.ofNat b.toNat
  let shown :=
    if c = '\x00' then "\\0"
    else if c = '\t' then "\\t"
    else if c = '\r' then "\\r"
    else if c = '\n' then "\\n"
    else if c = '\'' ∨ c = '\\' then String.ofList ['\\', c]
    else if latinVisible b.toNat then c.toString
    else codePoint c
  "'" ++ shown ++ "'"

end RecordSql.Text
