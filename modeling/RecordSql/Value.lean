import RecordSql.Calendar.Reading
import RecordSql.DataType
import RecordSql.Json.Printer
import RecordSql.Text.Ascii
import RecordSql.Text.Hex

/-!
# Typed values

A value that a statement binds has the type of its column. Values arrive loosely typed, as JSON,
and `Value.coerce` gives them their type:

* `null` is the null of every type;
* text takes strings, numbers and truth values, as they are written;
* the other types take their own JSON form and the usual spellings in strings, with blanks around
  them forgiven.

Nothing is rounded, wrapped or cut off on the way, decimals apart, which are rounded to the nearest
floating point number.
-/

namespace RecordSql

/-- A value of a column type. -/
inductive Value where
  | null
  | text (s : String)
  | integer (n : Int64)
  | decimal (x : Binary64)
  | date (d : Date)
  | dateTime (t : DateTime)
  | boolean (b : Bool)
  | binary (bytes : List UInt8)
  deriving DecidableEq

/-- Why a value has no representation in a type. -/
inductive CoerceFault where
  | unusable (value : Json) (type : DataType)
  | unfitNumber (n : Json.Number) (type : DataType)
  | unfitText (s : String) (type : DataType)
  | notHex (s : String) (fault : Text.HexFault)
  | notByte (item : Json)
  | unbounded

namespace CoerceFault

/-- A type as the thing that a value cannot be used as. -/
def roleWord : DataType → String
  | .dateTime => "date/time"
  | .encrypted => "text"
  | type => type.word

/-- A type as the thing that a value is not. -/
def kindWords : DataType → String
  | .integer => "an integer"
  | type => "a " ++ roleWord type

/-- The wording of a fault. -/
def message : CoerceFault → String
  | .unusable value type => s!"cannot use {value.text} as {roleWord type}"
  | .unfitNumber n type => s!"{n.text} is not {kindWords type}"
  | .unfitText s type => s!"'{s}' is not {kindWords type}"
  | .notHex s fault => s!"'{s}' is not hex-encoded binary: {fault.message}"
  | .notByte item => s!"{item.text} is not a byte"
  | .unbounded => "range has neither a lower nor an upper bound"

end CoerceFault

namespace Value

/-- Whether the value is null. -/
def isNull : Value → Bool
  | .null => true
  | _ => false

/-! ## Spellings -/

/-- The truth value that a word stands for. -/
def truthWord? (s : String) : Option Bool :=
  let word := Text.lowerCase (Text.strip s)
  if word ∈ ["true", "1", "yes", "y"] then some true
  else if word ∈ ["false", "0", "no", "n"] then some false
  else none

/-- The truth value that a number stands for. -/
def truthNumber? (n : Json.Number) : Option Bool :=
  match n.toInt64? with
  | some 0 => some false
  | some 1 => some true
  | _ => none

/-- The integer of sixty-four bits that a text denotes. -/
def int64Text? (s : String) : Option Int64 :=
  match Decimal.readInteger? (Text.trim s.toList) with
  | some n =>
    if -9223372036854775808 ≤ n ∧ n < 9223372036854775808 then some (Int64.ofInt n) else none
  | none => none

/-- A text of hexadecimal digits without the mark that may precede them. -/
def withoutHexMark : List Char → List Char
  | '0' :: 'x' :: digits => digits
  | '0' :: 'X' :: digits => digits
  | digits => digits

/-- The byte that an array item stands for. -/
def byte? : Json → Option UInt8
  | .number n => n.toNat?.bind fun k => if k < 256 then some (UInt8.ofNat k) else none
  | _ => none

/-- The bytes that the items of an array stand for. -/
def bytes : List Json → Except CoerceFault (List UInt8)
  | [] => .ok []
  | item :: rest =>
    match byte? item with
    | none => .error (.notByte item)
    | some b => (bytes rest).map (b :: ·)

/-- The truth value as a word. -/
def truthText (b : Bool) : String := if b then "true" else "false"

/-- An option as a result. -/
def orFault {α : Type} (fault : CoerceFault) : Option α → Except CoerceFault α
  | some a => .ok a
  | none => .error fault

/-! ## Coercion -/

/-- A value other than `null` as text. -/
def coerceText (type : DataType) : Json → Except CoerceFault Value
  | .string s => .ok (.text s)
  | .number n => .ok (.text n.text)
  | .bool b => .ok (.text (truthText b))
  | value => .error (.unusable value type)

/-- A value other than `null` as an integer. -/
def coerceInteger : Json → Except CoerceFault Value
  | .number n => (orFault (.unfitNumber n .integer) n.toInt64?).map .integer
  | .string s => (orFault (.unfitText s .integer) (int64Text? s)).map .integer
  | value => .error (.unusable value .integer)

/-- A value other than `null` as a decimal. -/
def coerceDecimal : Json → Except CoerceFault Value
  | .number n => .ok (.decimal n.toBinary64)
  | .string s =>
    (orFault (.unfitText s .decimal) (Decimal.readDecimal? (Text.trim s.toList))).map .decimal
  | value => .error (.unusable value .decimal)

/-- A value other than `null` as a truth value. -/
def coerceBoolean : Json → Except CoerceFault Value
  | .bool b => .ok (.boolean b)
  | .number n => (orFault (.unfitNumber n .boolean) (truthNumber? n)).map .boolean
  | .string s => (orFault (.unfitText s .boolean) (truthWord? s)).map .boolean
  | value => .error (.unusable value .boolean)

/-- A value other than `null` as a date; the time of day is dropped. -/
def coerceDate : Json → Except CoerceFault Value
  | .string s => (orFault (.unfitText s .date) (DateTime.read? s.toList)).map fun t => .date t.date
  | value => .error (.unusable value .date)

/-- A value other than `null` as a date and time. -/
def coerceDateTime : Json → Except CoerceFault Value
  | .string s => (orFault (.unfitText s .dateTime) (DateTime.read? s.toList)).map .dateTime
  | value => .error (.unusable value .dateTime)

/-- A value other than `null` as bytes. -/
def coerceBinary : Json → Except CoerceFault Value
  | .string s =>
    match Text.Hex.decode (withoutHexMark (Text.trim s.toList)) with
    | .ok bytes => .ok (.binary bytes)
    | .error fault => .error (.notHex s fault)
  | .array items => (bytes items).map .binary
  | value => .error (.unusable value .binary)

/-- Gives a loosely typed value a type. -/
def coerce (value : Json) (type : DataType) : Except CoerceFault Value :=
  if value.isNull then .ok .null
  else
    match type with
    | .text | .encrypted => coerceText type value
    | .integer => coerceInteger value
    | .decimal => coerceDecimal value
    | .boolean => coerceBoolean value
    | .date => coerceDate value
    | .dateTime => coerceDateTime value
    | .binary => coerceBinary value

/-- The value as JSON. A decimal that is not finite has no JSON form and becomes `null`. -/
def toJson : Value → Json
  | .null => .null
  | .text s => .string s
  | .integer n => .number (.ofInt64 n)
  | .decimal x => ((Json.Number.ofBinary64? x).map Json.number).getD .null
  | .date d => .string d.text
  | .dateTime t => .string t.text
  | .boolean b => .bool b
  | .binary bytes => .string (Text.Hex.encode bytes)

end Value

end RecordSql
