import RecordSql.Text.Escaped
import RecordSql.Text.Search

/-!
# Identifiers

The names that may stand in a statement. Everything spliced into a statement as a name passes
these checks first.

* An **identifier** has 1 to 128 bytes, all of them ASCII letters, digits, `_`, `$` or `#`, and
  does not start with a digit.
* A **table name** is one to three identifiers with dots between them.
-/

namespace RecordSql

/-- Why a text is no identifier. -/
inductive IdentifierFault where
  | empty
  | tooLong (name : String)
  | badCharacter (name : String) (c : Char)
  | leadingDigit (name : String)
  deriving DecidableEq, Repr

namespace Identifier

/-- The most bytes that an identifier may have. -/
def maxLength : Nat := 128

/-- The most identifiers that a table name may have. -/
def maxTableParts : Nat := 3

/-- Whether a character may stand in an identifier. -/
def isAllowed (c : Char) : Bool := c.isAlphanum || c = '_' || c = '$' || c = '#'

/-- Passes an identifier and says what is wrong with anything else. -/
def check (name : String) : Except IdentifierFault Unit :=
  if name.isEmpty then .error .empty
  else if maxLength < name.utf8ByteSize then .error (.tooLong name)
  else
    match name.toList.find? fun c => !isAllowed c with
    | some c => .error (.badCharacter name c)
    | none =>
      match name.toList with
      | c :: _ => if c.isDigit then .error (.leadingDigit name) else .ok ()
      | [] => .ok ()

/-- The parts of a table name. -/
def tableParts (name : String) : List String :=
  (Text.pieces '.' name.toList).map String.ofList

end Identifier

/-- The wording of a fault. -/
def IdentifierFault.message : IdentifierFault → String
  | .empty => "identifier cannot be empty"
  | .tooLong name =>
    s!"identifier '{name}' is too long (max {Identifier.maxLength} characters)"
  | .badCharacter name c =>
    s!"identifier '{name}' contains invalid character '{Text.escaped c}'"
  | .leadingDigit name => s!"identifier '{name}' cannot start with a number"

end RecordSql
