import RecordSql.Json.Printer
import RecordSql.Text.Blank
import RecordSql.Text.Search

/-!
# Search predicates

What a search value asks of a column, and the wire form in which it is typed and stored.

## The wire form

The text is read by the first rule that applies:

* `NULL` and `NOT_NULL` test for null;
* `NOT_` negates the predicate that follows, and something must follow;
* `a_RANGE_b` is a closed range around the first `_RANGE_`; a blank side leaves it open, and both
  sides may not be blank;
* `LIST_` lists values between commas; blank ones are dropped, and one must be left;
* `LIKE_` searches for a part of the value;
* anything else is the value itself, and the empty text is no predicate at all.
-/

namespace RecordSql

/-- A search predicate, before its values have a type. -/
inductive Predicate where
  | isNull
  | isNotNull
  | not (inner : Predicate)
  | range (lower upper : Option String)
  | list (items : List String)
  | like (text : String)
  | equals (text : String)
  deriving DecidableEq, Repr

namespace Predicate

/-- Why a text or a value is no search predicate. -/
inductive Fault where
  | negatesNothing
  | openRange (text : String)
  | emptyList (text : String)
  | objectValue
  | emptyText
  deriving DecidableEq, Repr

/-! ## Marks of the wire form -/

/-- The test for null. -/
def nullMark : String := "NULL"

/-- The test for anything but null. -/
def notNullMark : String := "NOT_NULL"

/-- What announces a negation. -/
def notMark : String := "NOT_"

/-- What stands between the bounds of a range. -/
def rangeMark : String := "_RANGE_"

/-- What announces a list. -/
def listMark : String := "LIST_"

/-- What announces a search for a part. -/
def likeMark : String := "LIKE_"

/-- The wording of a fault. -/
def Fault.message : Fault → String
  | .negatesNothing => s!"'{notMark}' negates nothing"
  | .openRange text => s!"range '{text}' has neither a lower nor an upper bound"
  | .emptyList text => s!"list '{text}' has no items"
  | .objectValue => "object values cannot be used as search values"
  | .emptyText => "empty search value"

/-! ## Reading -/

/-- A bound of a range: the text without blanks around it, absent when nothing is left. -/
def bound? (cs : List Char) : Option String :=
  let cs := Text.trim cs
  if cs = [] then none else some (String.ofList cs)

/-- The items of a list: the pieces between commas without blanks around them, empty ones left
out. -/
def items (cs : List Char) : List String :=
  (((Text.pieces ',' cs).map Text.trim).filter (· ≠ [])).map String.ofList

/-- Reads a list from what follows its mark. -/
def readList (whole rest : List Char) : Except Fault Predicate :=
  match items rest with
  | [] => .error (.emptyList (String.ofList whole))
  | items => .ok (.list items)

/-- Reads a range from its two sides. -/
def readRange (whole before rest : List Char) : Except Fault Predicate :=
  match bound? before, bound? rest with
  | none, none => .error (.openRange (String.ofList whole))
  | lower, upper => .ok (.range lower upper)

/-- Reads a text that negates nothing. -/
def readPlain (cs : List Char) : Except Fault Predicate :=
  if cs = nullMark.toList then .ok .isNull
  else
    match Text.cut? rangeMark.toList cs with
    | some (before, rest) => readRange cs before rest
    | none =>
      match Text.after? listMark.toList cs with
      | some rest => readList cs rest
      | none =>
        match Text.after? likeMark.toList cs with
        | some rest => .ok (.like (String.ofList rest))
        | none => .ok (.equals (String.ofList cs))

/-- Reads a text that is not empty. -/
def readChars : List Char → Except Fault Predicate
  | 'N' :: 'O' :: 'T' :: '_' :: rest =>
    if rest = nullMark.toList then .ok .isNotNull
    else if rest = [] then .error .negatesNothing
    else (readChars rest).map .not
  | cs => readPlain cs

/-- Reads the wire form; the empty text gives no predicate. -/
def parse (text : String) : Except Fault (Option Predicate) :=
  match text.toList with
  | [] => .ok none
  | cs => (readChars cs).map some

/-- Reads the wire form of a predicate that has to be there. -/
def ofWire (text : String) : Except Fault Predicate :=
  match parse text with
  | .ok (some p) => .ok p
  | .ok none => .error .emptyText
  | .error fault => .error fault

/-! ## Writing -/

/-- The wire form. Values are written as they are, so a predicate whose values spell a mark, or
have blanks around them, does not read back. -/
def wire : Predicate → String
  | .isNull => nullMark
  | .isNotNull => notNullMark
  | .not inner => notMark ++ inner.wire
  | .range lower upper => lower.getD "" ++ rangeMark ++ upper.getD ""
  | .list items => listMark ++ ",".intercalate items
  | .like text => likeMark ++ text
  | .equals text => text

/-- The predicate as JSON, in its wire form. -/
def toJson (p : Predicate) : Json := .string p.wire

/-- A predicate stored in JSON; it has to be there. -/
def ofJson? : Json → Option Predicate
  | .string text => (ofWire text).toOption
  | _ => none

/-- A predicate stored as an optional member: nothing, `null` and the empty text are none. -/
def member? : Option Json → Option (Option Predicate)
  | none => some none
  | some .null => some none
  | some (.string text) => (parse text).toOption
  | some _ => none

/-! ## Property values -/

/-- A value as the text that is searched for: a string as it is, the rest in its JSON text. -/
def searchText : Json → String
  | .string s => s
  | value => value.text

/-- The predicate that a property value asks for: a string is read as a wire form, an array is a
list, and a number or truth value is searched for as it is written. -/
def ofProperty : Json → Except Fault (Option Predicate)
  | .null => .ok none
  | .string text => parse text
  | .array items =>
    match (items.filter fun item => !item.isNull).map searchText with
    | [] => .ok none
    | items => .ok (some (.list items))
  | .object _ => .error .objectValue
  | value => .ok (some (.equals (searchText value)))

end Predicate

end RecordSql
