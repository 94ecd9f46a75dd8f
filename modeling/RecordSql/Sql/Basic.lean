import RecordSql.Config
import RecordSql.Text.Quoted
import RecordSql.Value

/-!
# SQL as a list of pieces

A statement as the list of the pieces that it consists of. This is the view to reason about: what
a builder writes along with a sink is the text of such a list, with its parameters
(`Builder.answer_eq`).

* A name is a piece of its own, so whether names are quoted is decided once, for all of them.
* A bound value stands in the list where its placeholder goes, and has its number from the place
  among them. The sink, which numbers a value when it is bound, gives it the same one (`Renders`).
* A column knows the table it is read from, and whether it is read or assigned to.
* Text that only works while the symmetric key is open is marked. It is in the list just when the
  sink is marked.
-/

namespace RecordSql

/-! ## Parameters -/

/-- Which way the value of a parameter travels. -/
inductive Direction where
  | input
  | output
  deriving DecidableEq, Repr

/-- A value bound into a statement. A wildcard value is searched for as a part. -/
structure Binding where
  value : Value
  dataType : DataType
  wildcard : Bool
  direction : Direction
  deriving DecidableEq

namespace Binding

/-- A value for a column of a type. -/
def input (value : Value) (type : DataType) : Binding :=
  ⟨value, type.parameterType, false, .input⟩

/-- A text that is searched for as a part. -/
def search (text : String) : Binding := ⟨.text text, .text, true, .input⟩

/-- A value that the database fills in. -/
def output (type : DataType) : Binding := ⟨.null, type.parameterType, false, .output⟩

/-- The value that the database is given: a wildcard text stands between percent signs. -/
def bindValue (b : Binding) : Value :=
  match b.value, b.wildcard with
  | .text s, true => .text ("%" ++ s ++ "%")
  | value, _ => value

/-- Whether the database fills the value in. -/
def isOutput (b : Binding) : Bool := b.direction = .output

end Binding

/-- A binding with the name of its placeholder. -/
structure Parameter extends Binding where
  name : String
  deriving DecidableEq

/-! ## Pieces -/

/-- The alias of a table in a statement: the entity's own, or that of one of its joins. -/
inductive TableAlias where
  | root
  | join (index : Nat)
  deriving DecidableEq, Repr

/-- The alias as text. -/
def TableAlias.text : TableAlias → String
  | .root => "t0"
  | .join index => s!"j{index}"

/-- A piece of a statement. -/
inductive Piece where
  | text (s : String)
  | keyed (s : String)
  | name (s : String)
  | column (table : TableAlias) (name : String)
  | target (table : TableAlias) (name : String)
  | bind (b : Binding)
  | variable (name : String)
  deriving DecidableEq

/-- A statement, or a part of one. -/
abbrev Sql := List Piece

/-- How pieces become text: the dialect, and whether names are quoted. -/
structure Style where
  dialect : Dialect
  quoted : Bool
  deriving DecidableEq, Repr

namespace Style

/-- A name as it is written. -/
def identifier (style : Style) (name : String) : String :=
  if style.quoted then Text.quoteIdentifier name style.dialect.quotes.1 style.dialect.quotes.2
  else name

/-- A column with its table. -/
def qualified (style : Style) (table : TableAlias) (name : String) : String :=
  table.text ++ "." ++ style.identifier name

end Style

/-- The name of the parameter with a number. -/
def parameterName (n : Nat) : String := s!"p{n}"

/-- A piece as text, the next parameter having the number `n`. -/
def Piece.write (style : Style) (n : Nat) : Piece → String
  | .text s => s
  | .keyed s => s
  | .name s => style.identifier s
  | .column t c => style.qualified t c
  | .target t c => style.qualified t c
  | .bind _ => style.dialect.placeholder (parameterName n)
  | .variable s => s

/-- The value that a piece binds. -/
def Piece.binding? : Piece → Option Binding
  | .bind b => some b
  | _ => none

/-- Whether a piece needs the symmetric key to be open. -/
def Piece.isKeyed : Piece → Bool
  | .keyed _ => true
  | _ => false

namespace Sql

/-- The values bound in a statement, in the order of their placeholders. -/
def bindings (sql : Sql) : List Binding := sql.filterMap Piece.binding?

/-- The parameters of a statement. -/
def parameters (sql : Sql) : List Parameter :=
  sql.bindings.zipIdx.map fun (b, n) => { b with name := parameterName n }

/-- Whether any piece needs the symmetric key to be open. -/
def needsKey (sql : Sql) : Bool := sql.any Piece.isKeyed

/-- The characters of a statement whose first parameter has the number `n`. -/
def charsFrom (style : Style) (n : Nat) : Sql → List Char
  | [] => []
  | .bind b :: rest => ((Piece.bind b).write style n).toList ++ charsFrom style (n + 1) rest
  | piece :: rest => (piece.write style n).toList ++ charsFrom style n rest

/-- A statement as text. -/
def write (style : Style) (sql : Sql) : String := String.ofList (charsFrom style 0 sql)

/-! ## Putting statements together -/

/-- Parts with a separator between them. -/
def joined (separator : String) : List Sql → Sql
  | [] => []
  | [part] => part
  | part :: rest => part ++ .text separator :: joined separator rest

/-- Parts with commas between them. -/
def list (parts : List Sql) : Sql := joined ", " parts

/-- A table name, each part of it a name of its own. -/
def table (name : String) : Sql :=
  joined "." ((Identifier.tableParts name).map fun part => [.name part])

/-- An `AS` with the name of a result column. -/
def as (name : String) : Sql := [.text " AS ", .name name]

/-- A `WHERE` with its condition, or nothing. -/
def whereSuffix : Option Sql → Sql
  | none => []
  | some condition => .text " WHERE " :: condition

/-- The text without the semicolons at its end. -/
def dropSemicolons (s : String) : String :=
  String.ofList ((s.toList.reverse.dropWhile (· = ';')).reverse)

/-- Pieces in reverse order without the semicolons that come first. -/
def dropLeading : Sql → Sql
  | .text s :: rest =>
    -- only fixed text ends in semicolons; what is left of it may be nothing
    let s := dropSemicolons s
    if s = "" then dropLeading rest else .text s :: rest
  | rest => rest

/-- A statement without the semicolons at its end. -/
def withoutSemicolons (sql : Sql) : Sql := (dropLeading sql.reverse).reverse

end Sql

/-! ## Statements -/

/-- A finished statement: its pieces, and the style it is written in. -/
structure Statement where
  sql : Sql
  style : Style

namespace Statement

/-- The text of the statement. -/
def text (s : Statement) : String := s.sql.write s.style

/-- The parameters of the statement, in the order of their placeholders. -/
def parameters (s : Statement) : List Parameter := s.sql.parameters

/-- The parameter of a name. -/
def parameter? (s : Statement) (name : String) : Option Parameter :=
  s.parameters.find? fun p => p.name = name

/-- The values to bind, in the order of their placeholders. -/
def bindValues (s : Statement) : List Value := s.parameters.map fun p => p.bindValue

/-- The parameters that the database fills in. -/
def outputs (s : Statement) : List Parameter := s.parameters.filter fun p => p.isOutput

end Statement

end RecordSql
