import RecordSql.Text.Blank
import RecordSql.Decimal.Reading
import RecordSql.Calendar.Basic

/-!
# Reading dates and times

A text is read in one of two manners, the strict one first:

* as a **timestamp**, in which every number has its full width and an offset from universal time
  must follow; the offset is checked and dropped, since the local time is what counts;
* by a **format**, a list of items that forgives blanks before a number and leading zeros left out.

The formats are tried in turn: date and time to the second, date and time to the minute, each with
a `T` or blanks in between, and last the plain date, which stands for its midnight.
-/

namespace RecordSql.Calendar

open Text (trimStart trim)

/-- The numbers of a date and time as they are read. -/
structure Parts where
  year : Int
  month : Nat
  day : Nat
  hour : Nat
  minute : Nat
  second : Nat
  nanosecond : Nat

/-- No number read yet. -/
def Parts.empty : Parts := ⟨0, 0, 0, 0, 0, 0, 0⟩

/-- The date and time of the numbers, if there is one. -/
def Parts.dateTime? (p : Parts) : Option DateTime := do
  let date ← Date.of? p.year p.month p.day
  let time ← Time.of? p.hour p.minute p.second p.nanosecond
  pure ⟨date, time⟩

/-! ## Numbers -/

/-- The digits that a text begins with, `limit` of them at most, and what follows them. -/
def digitRun (limit : Nat) (cs : List Char) : List Char × List Char :=
  let digits := (cs.take limit).takeWhile Char.isDigit
  (digits, cs.drop digits.length)

/-- A number of one digit or more, `limit` at most. -/
def number? (limit : Nat) (cs : List Char) : Option (Nat × List Char) :=
  match digitRun limit cs with
  | ([], _) => none
  | (digits, rest) => some (Decimal.digitsValue 0 digits, rest)

/-- A number of exactly `width` digits. -/
def fixed? (width : Nat) (cs : List Char) : Option (Nat × List Char) :=
  match digitRun width cs with
  | (digits, rest) =>
    if digits.length = width then some (Decimal.digitsValue 0 digits, rest) else none

/-- A year: one to four digits, or a sign and as many digits as there are. -/
def year? (cs : List Char) : Option (Int × List Char) :=
  match cs with
  -- a sign lifts the limit of four digits
  | '-' :: rest => (number? rest.length rest).map fun (n, rest) => (-(n : Int), rest)
  | '+' :: rest => (number? rest.length rest).map fun (n, rest) => ((n : Int), rest)
  | _ => (number? 4 cs).map fun (n, rest) => ((n : Int), rest)

/-- A fraction of a second, in nanoseconds, when a point announces it. Digits beyond the ninth are
dropped. -/
def fraction? (cs : List Char) : Option (Nat × List Char) :=
  match cs with
  | '.' :: rest =>
    match Decimal.spanDigits rest with
    | ([], _) => none
    | (digits, rest) =>
      some (Decimal.digitsValue 0 (digits.take 9 ++ List.replicate (9 - digits.length) '0'), rest)
  | _ => some (0, cs)

/-! ## Timestamps -/

/-- What follows a given character. -/
def char? (c : Char) (cs : List Char) : Option (List Char) :=
  match cs with
  | d :: rest => if c = d then some rest else none
  | [] => none

/-- What follows the mark between a date and a time. -/
def timeMark? (cs : List Char) : Option (List Char) :=
  match cs with
  | c :: rest => if c = 'T' ∨ c = 't' ∨ c = ' ' then some rest else none
  | [] => none

/-- Whether a text is an offset from universal time, and nothing more: `Z`, or a sign with hours
and minutes. -/
def isOffset (cs : List Char) : Bool :=
  match cs with
  | [c] => c = 'Z' || c = 'z'
  | sign :: rest =>
    (sign = '+' || sign = '-' || sign = '\u2212') &&
      match fixed? 2 rest with
      | none => false
      | some (hours, rest) =>
        match (char? ':' rest).bind (fixed? 2) with
        | some (minutes, []) => decide (hours < 24 ∧ minutes < 60)
        | _ => false
  | [] => false

/-- Reads a text as a timestamp. -/
def timestamp? (cs : List Char) : Option DateTime := do
  let (year, cs) ← fixed? 4 cs
  let (month, cs) ← (char? '-' cs).bind (fixed? 2)
  let (day, cs) ← (char? '-' cs).bind (fixed? 2)
  let (hour, cs) ← (timeMark? cs).bind (fixed? 2)
  let (minute, cs) ← (char? ':' cs).bind (fixed? 2)
  let (second, cs) ← (char? ':' cs).bind (fixed? 2)
  let (nanosecond, cs) ← fraction? cs
  if isOffset cs then Parts.dateTime? ⟨year, month, day, hour, minute, second, nanosecond⟩
  else none

/-! ## Formats -/

/-- An item of a format. -/
inductive Item where
  | year
  | month
  | day
  | hour
  | minute
  | second
  | fraction
  | blanks
  | mark (c : Char)

/-- A number of one or two digits, after any blanks. -/
def smallNumber? (cs : List Char) : Option (Nat × List Char) := number? 2 (trimStart cs)

/-- Reads one item. -/
def Item.read? (p : Parts) (cs : List Char) : Item → Option (Parts × List Char)
  | .year => (year? (trimStart cs)).map fun (n, rest) => ({ p with year := n }, rest)
  | .month => (smallNumber? cs).map fun (n, rest) => ({ p with month := n }, rest)
  | .day => (smallNumber? cs).map fun (n, rest) => ({ p with day := n }, rest)
  | .hour => (smallNumber? cs).map fun (n, rest) => ({ p with hour := n }, rest)
  | .minute => (smallNumber? cs).map fun (n, rest) => ({ p with minute := n }, rest)
  | .second => (smallNumber? cs).map fun (n, rest) => ({ p with second := n }, rest)
  | .fraction => (fraction? cs).map fun (n, rest) => ({ p with nanosecond := n }, rest)
  | .blanks => some (p, trimStart cs)
  | .mark c => (char? c cs).map fun rest => (p, rest)

/-- Reads the items of a format, which must use up the text. -/
def readItems? (p : Parts) : List Item → List Char → Option Parts
  | [], [] => some p
  | [], _ :: _ => none
  | item :: items, cs =>
    match item.read? p cs with
    | none => none
    | some (p, rest) => readItems? p items rest

/-- Year, month and day. -/
def dateItems : List Item := [.year, .mark '-', .month, .mark '-', .day]

/-- Hour and minute. -/
def minuteItems : List Item := [.hour, .mark ':', .minute]

/-- Hour, minute and second, with a fraction or without. -/
def secondItems : List Item := minuteItems ++ [.mark ':', .second, .fraction]

/-- The formats, in the order in which they are tried. -/
def formats : List (List Item) :=
  [dateItems ++ .mark 'T' :: secondItems,
   dateItems ++ .blanks :: secondItems,
   dateItems ++ .mark 'T' :: minuteItems,
   dateItems ++ .blanks :: minuteItems,
   dateItems]

/-- Reads a text by one format. -/
def byFormat? (cs : List Char) (format : List Item) : Option DateTime :=
  (readItems? .empty format cs).bind Parts.dateTime?

end RecordSql.Calendar

namespace RecordSql

open Calendar in
/-- The date and time that a text denotes, blanks around it apart. -/
def DateTime.read? (cs : List Char) : Option DateTime :=
  let cs := Text.trim cs
  (timestamp? cs).or (formats.findSome? (byFormat? cs))

end RecordSql
