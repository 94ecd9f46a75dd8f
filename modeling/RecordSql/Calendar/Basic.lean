/-!
# Dates and times of day

Points of the proleptic Gregorian calendar, without a time zone.

* A **date** carries the proof that its day exists; years run from −262143 to 262142.
* A **time of day** goes down to nanoseconds. Second 60 is a leap second and may stand in any
  minute.

Both print in the order of their size, and a year outside 0 to 9999 prints with its sign.
-/

namespace RecordSql

/-! ## Dates -/

/-- Whether a year has a leap day. -/
def isLeapYear (year : Int) : Bool :=
  year % 4 = 0 && (year % 100 != 0 || year % 400 = 0)

/-- The number of days of a month; months that do not exist have none. -/
def daysInMonth (year : Int) : (month : Nat) → Nat
  | 1 | 3 | 5 | 7 | 8 | 10 | 12 => 31
  | 4 | 6 | 9 | 11 => 30
  | 2 => if isLeapYear year then 29 else 28
  | _ => 0

/-- Whether a day exists. -/
def isDay (year : Int) (month day : Nat) : Bool :=
  decide (-262143 ≤ year ∧ year ≤ 262142 ∧ 1 ≤ day ∧ day ≤ daysInMonth year month)

/-- A day of the calendar. -/
structure Date where
  year : Int
  month : Nat
  day : Nat
  exists_day : isDay year month day = true
  deriving DecidableEq, Repr

/-- The date of a year, month and day, if that day exists. -/
def Date.of? (year : Int) (month day : Nat) : Option Date :=
  if h : isDay year month day = true then some ⟨year, month, day, h⟩ else none

/-! ## Times -/

/-- Whether a time of day exists, leap seconds included. -/
def isTime (hour minute second nanosecond : Nat) : Bool :=
  decide (hour < 24 ∧ minute < 60 ∧ second ≤ 60 ∧ nanosecond < 1000000000)

/-- A time of day. -/
structure Time where
  hour : Nat
  minute : Nat
  second : Nat
  nanosecond : Nat
  exists_time : isTime hour minute second nanosecond = true
  deriving DecidableEq, Repr

/-- The time of an hour, minute, second and nanosecond, if there is one. -/
def Time.of? (hour minute second nanosecond : Nat) : Option Time :=
  if h : isTime hour minute second nanosecond = true then
    some ⟨hour, minute, second, nanosecond, h⟩
  else none

/-- The start of a day. -/
def Time.midnight : Time := ⟨0, 0, 0, 0, rfl⟩

/-- A date with a time of day. -/
structure DateTime where
  date : Date
  time : Time
  deriving DecidableEq, Repr

/-! ## Printing -/

namespace Calendar

/-- A number in at least `width` digits. -/
def padded (width n : Nat) : List Char :=
  let digits := Nat.toDigits 10 n
  List.replicate (width - digits.length) '0' ++ digits

/-- A year in at least four digits, with its sign when it is outside 0 to 9999. -/
def yearText (year : Int) : List Char :=
  if 0 ≤ year ∧ year ≤ 9999 then padded 4 year.toNat
  else (if year < 0 then '-' else '+') :: padded 4 year.natAbs

/-- A fraction of a second in nothing, three, six or nine digits, the fewest that are exact. -/
def fractionText (nanosecond : Nat) : List Char :=
  if nanosecond = 0 then []
  else if nanosecond % 1000000 = 0 then '.' :: padded 3 (nanosecond / 1000000)
  else if nanosecond % 1000 = 0 then '.' :: padded 6 (nanosecond / 1000)
  else '.' :: padded 9 nanosecond

end Calendar

open Calendar in
/-- A date as year, month and day. -/
def Date.chars (d : Date) : List Char :=
  yearText d.year ++ '-' :: padded 2 d.month ++ '-' :: padded 2 d.day

open Calendar in
/-- A time as hour, minute and second, with the fraction that the second has. -/
def Time.chars (t : Time) : List Char :=
  padded 2 t.hour ++ ':' :: padded 2 t.minute ++ ':' :: padded 2 t.second ++
    fractionText t.nanosecond

/-- A date as text. -/
def Date.text (d : Date) : String := String.ofList d.chars

/-- A date with its time, a `T` between them. -/
def DateTime.text (t : DateTime) : String := String.ofList (t.date.chars ++ 'T' :: t.time.chars)

end RecordSql
