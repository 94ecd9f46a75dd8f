import RecordSql.Decimal.Reading
import RecordSql.Json.Basic

/-!
# Reading JSON

A strict reader: one value, blanks around it, nothing else. Arrays and objects nest at most
`maxDepth` deep, strings hold no raw controls and no lone surrogates, and a number that would be
infinite is refused.

A text can be read for a **shape**, which says what the reader knows of the records in it. A member
that no record of the shape has is passed over: its grammar is checked, but not how deep it nests,
whether its surrogates are paired or how large its numbers are.

## Numbers

A token without point and exponent is an integer when it fits; every other one is a decimal. A
decimal is computed from the digits that fit sixty-four bits, the **significand**, and a power of
ten, in one rounding for the significand and one for the power; digits beyond the significand count
as places only. Minus zero is a decimal, since no integer is it.
-/

namespace RecordSql.Json

/-- How deep arrays and objects may nest. -/
def maxDepth : Nat := 127

/-- Whether a character separates tokens. -/
def isSpace (c : Char) : Bool := c = ' ' || c = '\n' || c = '\t' || c = '\r'

/-- The text from the next token on. -/
def skipSpace (cs : List Char) : List Char := cs.dropWhile isSpace

/-! ## Numbers -/

/-- Takes digits as long as the significand fits sixty-four bits; also returns the digits left. -/
def significand (acc : Nat) : List Char → Nat × List Char
  | [] => (acc, [])
  | c :: rest =>
    let next := 10 * acc + Decimal.digitValue c
    if next < UInt64.size then significand next rest else (acc, c :: rest)

/-- A power of ten as a floating point number. -/
def powerOfTen (n : Nat) : Binary64 := (Binary64.nearest? (Nat.pow 10 n) 1).getD .zero

/-- The product, rounded; none when it is infinite. -/
def multiply? (x y : Binary64) : Option Binary64 :=
  Binary64.ofUnits? (x.units * y.units) Binary64.unitsPerOne

/-- The quotient, rounded. -/
def divide (x y : Binary64) : Binary64 := (Binary64.nearest? x.units y.units).getD .zero

/-- Divides by a power of ten, by the largest finite one as often as needed first. -/
def divideByPower (x : Binary64) (n : Nat) : Binary64 :=
  if h : n ≤ 308 then divide x (powerOfTen n)
  else if x = .zero then x
  else divideByPower (divide x (powerOfTen 308)) (n - 308)
termination_by n
decreasing_by omega

/-- The decimal of a significand and a power of ten; none when it is infinite. -/
def decimal? (negative : Bool) (significand : Nat) (exponent : Int) : Option Number := do
  let x ← Binary64.nearest? significand 1
  let x ←
    if exponent < 0 then some (divideByPower x exponent.natAbs)
    else if x = .zero then some x
    else if 308 < exponent then none
    else multiply? x (powerOfTen exponent.natAbs)
  Number.ofBinary64? (x.withSign negative)

/-- The whole part of a number: a lone zero, or digits that start with none. -/
def wholePart? (cs : List Char) : Option (List Char × List Char) :=
  match Decimal.spanDigits cs with
  | ([], _) => none
  | (['0'], rest) => some (['0'], rest)
  | ('0' :: _, _) => none
  | (digits, rest) => some (digits, rest)

/-- The fraction of a number, if a point announces one. -/
def fractionPart? : List Char → Option (Option (List Char) × List Char)
  | '.' :: rest =>
    match Decimal.spanDigits rest with
    | ([], _) => none
    | (digits, rest) => some (some digits, rest)
  | rest => some (none, rest)

/-- The exponent of a number, if its mark announces one. -/
def exponentPart? : List Char → Option (Option Int × List Char)
  | c :: rest =>
    if c = 'e' ∨ c = 'E' then
      let (negative, rest) := Decimal.sign rest
      match Decimal.spanDigits rest with
      | ([], _) => none
      | (digits, rest) =>
        let n := Decimal.digitsValue 0 digits
        some (some (if negative then -(n : Int) else (n : Int)), rest)
    else some (none, c :: rest)
  | [] => some (none, [])

/-- The number of the parts of a token. -/
def numberOf? (negative : Bool) (whole : List Char) (fraction : Option (List Char))
    (exponent : Option Int) : Option Number :=
  let (n, unread) := significand 0 whole
  match fraction, exponent, unread with
  | none, none, [] =>
    if negative then
      -- no integer is minus zero
      if n = 0 then decimal? true 0 0
      else (Number.ofInt? (-(n : Int))).or (decimal? true n 0)
    else Number.ofInt? n
  | _, _, _ =>
    let places := fraction.getD []
    -- a digit of the fraction may still fit where one of the whole part did not
    let (m, dropped) := significand n places
    let taken := places.length - dropped.length
    decimal? negative m (exponent.getD 0 + (unread.length : Int) - (taken : Int))

/-- Reads the number that a text begins with. -/
def readNumber? (cs : List Char) : Option (Number × List Char) := do
  let (negative, cs) :=
    match cs with
    | '-' :: rest => (true, rest)
    | _ => (false, cs)
  let (whole, cs) ← wholePart? cs
  let (fraction, cs) ← fractionPart? cs
  let (exponent, cs) ← exponentPart? cs
  let n ← numberOf? negative whole fraction exponent
  pure (n, cs)

/-! ## Strings -/

/-- The value of a hexadecimal digit. -/
def hexDigit? (c : Char) : Option Nat :=
  let n := c.toNat
  if 48 ≤ n ∧ n ≤ 57 then some (n - 48)
  else if 97 ≤ n ∧ n ≤ 102 then some (n - 87)
  else if 65 ≤ n ∧ n ≤ 70 then some (n - 55)
  else none

/-- The number of four hexadecimal digits. -/
def hexUnit? (a b c d : Char) : Option Nat := do
  let a ← hexDigit? a
  let b ← hexDigit? b
  let c ← hexDigit? c
  let d ← hexDigit? d
  pure (((16 * a + b) * 16 + c) * 16 + d)

/-- The character that a letter after a backslash stands for. -/
def letterEscape? : Char → Option Char
  | '"' => some '"'
  | '\\' => some '\\'
  | '/' => some '/'
  | 'b' => some '\x08'
  | 'f' => some '\x0c'
  | 'n' => some '\n'
  | 'r' => some '\r'
  | 't' => some '\t'
  | _ => none

/-- The character of two units of sixteen bits, the first in the high and the second in the low
range of surrogates. -/
def pairChar? (high low : Nat) : Option Char :=
  if 0xdc00 ≤ low ∧ low ≤ 0xdfff then
    some (Char.ofNat (0x10000 + (high - 0xd800) * 0x400 + (low - 0xdc00)))
  else none

/-- Reads the rest of a string, after its opening quote. -/
def readString? (acc : List Char) : List Char → Option (String × List Char)
  | '"' :: rest => some (String.ofList acc.reverse, rest)
  | '\\' :: 'u' :: a :: b :: c :: d :: '\\' :: 'u' :: e :: f :: g :: h :: rest => do
    let high ← hexUnit? a b c d
    if 0xd800 ≤ high ∧ high ≤ 0xdbff then do
      let low ← hexUnit? e f g h
      let char ← pairChar? high low
      readString? (char :: acc) rest
    else if 0xdc00 ≤ high ∧ high ≤ 0xdfff then none
    else readString? (Char.ofNat high :: acc) ('\\' :: 'u' :: e :: f :: g :: h :: rest)
  | '\\' :: 'u' :: a :: b :: c :: d :: rest => do
    let unit ← hexUnit? a b c d
    if 0xd800 ≤ unit ∧ unit ≤ 0xdfff then none
    else readString? (Char.ofNat unit :: acc) rest
  | '\\' :: letter :: rest => do
    let char ← letterEscape? letter
    readString? (char :: acc) rest
  | c :: rest => if c.toNat < 0x20 ∨ c = '\\' then none else readString? (c :: acc) rest
  | [] => none

/-! ## Passing over -/

/-- What follows a given word. -/
def word? (word : String) (cs : List Char) : Option (List Char) :=
  if word.toList.isPrefixOf cs then some (cs.drop word.length) else none

/-- Passes over the rest of a string, after its opening quote. -/
def skipString? : List Char → Option (List Char)
  | '"' :: rest => some rest
  | '\\' :: 'u' :: a :: b :: c :: d :: rest =>
    if (hexUnit? a b c d).isSome then skipString? rest else none
  | '\\' :: letter :: rest => if (letterEscape? letter).isSome then skipString? rest else none
  | c :: rest => if c.toNat < 0x20 ∨ c = '\\' then none else skipString? rest
  | [] => none

/-- Passes over a number. -/
def skipNumber? (cs : List Char) : Option (List Char) := do
  let cs :=
    match cs with
    | '-' :: rest => rest
    | _ => cs
  let (_, cs) ← wholePart? cs
  let (_, cs) ← fractionPart? cs
  let (_, cs) ← exponentPart? cs
  pure cs

mutual

/-- Passes over the value that a text begins with. -/
def skipValue? (fuel : Nat) (cs : List Char) : Option (List Char) :=
  match fuel with
  | 0 => none
  | fuel + 1 =>
    match skipSpace cs with
    | '[' :: rest =>
      match skipSpace rest with
      | ']' :: rest => some rest
      | rest => skipItems? fuel rest
    | '{' :: rest =>
      match skipSpace rest with
      | '}' :: rest => some rest
      | rest => skipMembers? fuel rest
    | '"' :: rest => skipString? rest
    | 'n' :: rest => word? "ull" rest
    | 't' :: rest => word? "rue" rest
    | 'f' :: rest => word? "alse" rest
    | cs => skipNumber? cs

/-- Passes over the items of an array, up to and with its bracket. -/
def skipItems? (fuel : Nat) (cs : List Char) : Option (List Char) :=
  match fuel with
  | 0 => none
  | fuel + 1 =>
    match (skipValue? fuel cs).map skipSpace with
    | some (',' :: rest) => skipItems? fuel rest
    | some (']' :: rest) => some rest
    | _ => none

/-- Passes over the members of an object, up to and with its brace. -/
def skipMembers? (fuel : Nat) (cs : List Char) : Option (List Char) :=
  match fuel with
  | 0 => none
  | fuel + 1 =>
    match skipSpace cs with
    | '"' :: rest =>
      match (skipString? rest).map skipSpace with
      | some (':' :: rest) =>
        match (skipValue? fuel rest).map skipSpace with
        | some (',' :: rest) => skipMembers? fuel rest
        | some ('}' :: rest) => some rest
        | _ => none
      | _ => none
    | _ => none

end

/-! ## Shapes -/

/-- What a reader knows of the values it reads: nothing, the items of a list, or the members of a
record. -/
inductive Shape where
  | any
  | list (item : Shape)
  | record (members : List (String × Shape))
  deriving Inhabited

namespace Shape

/-- The shape of a record of these names, of which some are known more of. -/
def ofNames (names : List String) (known : List (String × Shape)) : Shape :=
  .record (names.map fun name => (name, (known.lookup name).getD .any))

/-- The shape of the first item of an array, and that of the array of the others. -/
def uncons : Shape → Shape × Shape
  | .list item => (item, .list item)
  | .record ((_, first) :: rest) => (first, .record rest)
  | _ => (.any, .any)

/-- The shape of a member; none when the member is passed over. -/
def member? (shape : Shape) (name : String) : Option Shape :=
  match shape with
  | .record members => members.lookup name
  | _ => some .any

end Shape

/-! ## Values -/

mutual

/-- Reads the value that a text begins with, `depth` levels of nesting being allowed. Each step
uses one unit of `fuel`, and no step fails to take a character but the last few. -/
def readValue? (fuel depth : Nat) (shape : Shape) (cs : List Char) :
    Option (Json × List Char) :=
  match fuel with
  | 0 => none
  | fuel + 1 =>
    match skipSpace cs with
    | '[' :: rest =>
      match depth with
      | 0 => none
      | depth + 1 =>
        match skipSpace rest with
        | ']' :: rest => some (.array [], rest)
        | rest =>
          (readItems? fuel depth shape [] rest).map fun (items, rest) => (.array items, rest)
    | '{' :: rest =>
      match depth with
      | 0 => none
      | depth + 1 =>
        match skipSpace rest with
        | '}' :: rest => some (.object [], rest)
        | rest =>
          (readMembers? fuel depth shape [] rest).map fun (members, rest) =>
            (.object members, rest)
    | '"' :: rest => (readString? [] rest).map fun (s, rest) => (.string s, rest)
    | 'n' :: rest => (word? "ull" rest).map (Json.null, ·)
    | 't' :: rest => (word? "rue" rest).map (Json.bool true, ·)
    | 'f' :: rest => (word? "alse" rest).map (Json.bool false, ·)
    | cs => (readNumber? cs).map fun (n, rest) => (.number n, rest)

/-- Reads the items of an array, up to and with its bracket. -/
def readItems? (fuel depth : Nat) (shape : Shape) (acc : List Json) (cs : List Char) :
    Option (List Json × List Char) :=
  match fuel with
  | 0 => none
  | fuel + 1 =>
    match readValue? fuel depth shape.uncons.1 cs with
    | none => none
    | some (value, rest) =>
      match skipSpace rest with
      | ',' :: rest => readItems? fuel depth shape.uncons.2 (value :: acc) rest
      | ']' :: rest => some ((value :: acc).reverse, rest)
      | _ => none

/-- Reads the members of an object that its shape has, up to and with its brace. -/
def readMembers? (fuel depth : Nat) (shape : Shape) (acc : List (String × Json))
    (cs : List Char) : Option (List (String × Json) × List Char) :=
  match fuel with
  | 0 => none
  | fuel + 1 =>
    match skipSpace cs with
    | '"' :: rest =>
      match readString? [] rest with
      | none => none
      | some (name, rest) =>
        match skipSpace rest with
        | ':' :: rest =>
          match readMember? fuel depth shape name acc rest with
          | none => none
          | some (acc, rest) =>
            match skipSpace rest with
            | ',' :: rest => readMembers? fuel depth shape acc rest
            | '}' :: rest => some (acc.reverse, rest)
            | _ => none
        | _ => none
    | _ => none

/-- Reads the value of a member, or passes over it, and adds it to those read before. -/
def readMember? (fuel depth : Nat) (shape : Shape) (name : String) (acc : List (String × Json))
    (cs : List Char) : Option (List (String × Json) × List Char) :=
  match fuel with
  | 0 => none
  | fuel + 1 =>
    match shape.member? name with
    | none => (skipValue? fuel cs).map fun rest => (acc, rest)
    | some inner =>
      (readValue? fuel depth inner cs).map fun (value, rest) => ((name, value) :: acc, rest)

end

/-- Reads a text as one value of a shape, members as they stand in it. -/
def asWritten? (shape : Shape) (s : String) : Option Json :=
  let cs := s.toList
  match readValue? (3 * cs.length + 3) maxDepth shape cs with
  | some (value, rest) => if skipSpace rest = [] then some value else none
  | none => none

/-- Reads a text as one value in canonical form. -/
def read? (s : String) : Option Json := (asWritten? .any s).map canonical

end RecordSql.Json
