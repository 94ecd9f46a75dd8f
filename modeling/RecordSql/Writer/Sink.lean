import RecordSql.Error
import RecordSql.Sql.Basic

/-!
# Sinks

A statement is written as text, and a **sink** goes along with it through every clause. It collects
what the text cannot hold.

* A value that is bound gets its number at once, which is the number of values bound before it. What
  the writer gets back is the placeholder of that number, to be put into the text. So parameters are
  in the order in which they were bound, wherever their placeholders end up.
* Whoever reads or writes an encrypted column says so, and the sink keeps it to the end.

A clause that is refused takes its sink with it.
-/

namespace RecordSql

/-- What is collected while a statement is written. -/
structure Sink where
  dialect : Dialect
  parameters : List Parameter
  usesEncryption : Bool

namespace Sink

/-- The sink of a statement that has not been started. -/
def new (d : Dialect) : Sink := ⟨d, [], false⟩

/-- The number of values bound so far. -/
def count (σ : Sink) : Nat := σ.parameters.length

/-- Takes a value in, and gives the placeholder for it. -/
def push (σ : Sink) (x : Binding) : String × Sink :=
  let name := parameterName σ.count
  (σ.dialect.placeholder name,
    { σ with parameters := σ.parameters ++ [{ x with name }] })

/-- Notes that an encrypted column is read or written. -/
def marked (σ : Sink) : Sink := { σ with usesEncryption := true }

end Sink

/-- Something that is written along with a sink. -/
abbrev Writing (α : Type) := StateT Sink Checked α

namespace Writing

variable {α : Type}

/-- A check, which has nothing to do with the sink. -/
def check (x : Checked α) : Writing α := StateT.lift x

/-- Binds a value for a column of a type, and writes its placeholder. -/
def bindInput (value : Value) (type : DataType) : Writing String :=
  modifyGet fun σ => σ.push (.input value type)

/-- Binds a text that is searched for as a part. -/
def bindSearch (text : String) : Writing String := modifyGet fun σ => σ.push (.search text)

/-- Binds a value that the database fills in. -/
def bindOutput (type : DataType) : Writing String := modifyGet fun σ => σ.push (.output type)

/-- Notes that an encrypted column is read or written. -/
def markEncryption : Writing Unit := modify Sink.marked

end Writing

/-- A finished text with its parameters. -/
structure Answer where
  text : String
  parameters : List Parameter
  deriving DecidableEq

namespace Answer

/-- The parameter of a name. -/
def parameter? (a : Answer) (name : String) : Option Parameter :=
  a.parameters.find? fun p => p.name = name

/-- The values to bind, in the order of their placeholders. -/
def bindValues (a : Answer) : List Value := a.parameters.map fun p => p.bindValue

/-- The parameters that the database fills in. -/
def outputs (a : Answer) : List Parameter := a.parameters.filter fun p => p.isOutput

end Answer

end RecordSql
