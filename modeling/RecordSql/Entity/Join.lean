import RecordSql.Json.Reader
import RecordSql.Json.Record
import RecordSql.Text.Ascii
import RecordSql.Text.Blank
import RecordSql.Text.Search

/-!
# Joins

A field may bring in another table. The join compares a column of that table with a local one, and
pulls columns into the result.

A pulled column is declared as `source` or as `source AS alias`, the word in either case and with
spaces around it. The declaration splits at the first such word, unless that leaves one of the
names empty.
-/

namespace RecordSql

/-- Which rows survive a join without a partner. -/
inductive JoinDirection where
  | inner
  | left
  | right
  deriving DecidableEq, Repr

namespace JoinDirection

/-- The keywords of the join. -/
def keywords : JoinDirection → String
  | .inner => "INNER JOIN"
  | .left => "LEFT OUTER JOIN"
  | .right => "RIGHT OUTER JOIN"

/-- The name of the direction in stored metadata. -/
def wireName : JoinDirection → String
  | .inner => "Inner"
  | .left => "Left"
  | .right => "Right"

/-- The direction as stored metadata writes it. -/
def toJson (direction : JoinDirection) : Json := .string direction.wireName

/-- The direction that stored metadata names. -/
def ofJson? (value : Json) : Option JoinDirection :=
  value.choice? ([inner, left, right].map fun direction => (direction.wireName, direction))

end JoinDirection

/-- A column pulled from a joined table. -/
structure JoinColumn where
  source : String
  label : Option String
  deriving DecidableEq, Repr

namespace JoinColumn

/-- The word between a column and its alias. -/
def aliasWord : List Char := [' ', 'A', 'S', ' ']

/-- Splits a declaration at the first alias word, each half without blanks around it. -/
def splitAlias? (cs : List Char) : Option (List Char × List Char) :=
  match Text.cut? aliasWord (Text.upper cs) with
  | none => none
  | some (before, _) =>
    let left := Text.trim (cs.take before.length)
    let right := Text.trim (cs.drop (before.length + aliasWord.length))
    if left = [] ∨ right = [] then none else some (left, right)

/-- Reads the declaration of a column. -/
def parse (declaration : String) : JoinColumn :=
  let cs := Text.trim declaration.toList
  match splitAlias? cs with
  | some (source, label) => ⟨String.ofList source, some (String.ofList label)⟩
  | none => ⟨String.ofList cs, none⟩

/-- The name under which the column appears in a result. -/
def exposedName (c : JoinColumn) : String := c.label.getD c.source

end JoinColumn

/-- A join that a field carries. The local side of its condition is the field's own column unless
`localColumn` names another. -/
structure Join where
  direction : JoinDirection
  table : String
  onColumn : String
  localColumn : Option String
  declarations : List String
  deriving DecidableEq, Repr

namespace Join

/-- The columns that the join pulls in. -/
def columns (join : Join) : List JoinColumn := join.declarations.map JoinColumn.parse

/-! ## Stored form -/

/-- The names of the members of a stored join. -/
def memberNames : List String := ["direction", "table", "on_column", "local_column", "join_fields"]

/-- The shape of a stored join. -/
def shape : Json.Shape := .ofNames memberNames []

/-- The join as stored metadata. -/
def toJson (join : Join) : Json :=
  .object
    ([("direction", join.direction.toJson),
      ("table", .string join.table),
      ("on_column", .string join.onColumn)] ++
      Json.optionalMember "local_column" .string join.localColumn ++
      [("join_fields", .array (join.declarations.map .string))])

/-- The join of stored metadata. -/
def ofJson? (value : Json) : Option Join := do
  let member ← value.record? memberNames
  let direction ← Json.needed (member "direction") JoinDirection.ofJson?
  let table ← Json.needed (member "table") Json.string?
  let onColumn ← Json.needed (member "on_column") Json.string?
  let localColumn ← Json.optional (member "local_column") Json.string?
  let declarations ← Json.orElse [] (member "join_fields") (Json.list? Json.string?)
  pure ⟨direction, table, onColumn, localColumn, declarations⟩

end Join

end RecordSql
