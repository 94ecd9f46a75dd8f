import RecordSql.Entity.Basic
import RecordSql.Error

/-!
# Checking entities

What must hold of an entity before any statement is written for it:

* its table name and those of its joins are table names;
* at most one field is a key;
* every name that can reach a statement is an identifier;
* no two columns of a result have the same name, letter case apart: the projected fields first,
  then the columns that joins pull in.

The values of the record play no part.
-/

namespace RecordSql.Entity

/-- Passes the names of a pulled column. -/
def checkColumn (c : JoinColumn) : Except EntityFault Unit := do
  Identifier.require c.source
  c.label.forM Identifier.require

/-- Passes the names of a join. -/
def checkJoin (join : Join) : Except EntityFault Unit := do
  Identifier.requireTable join.table
  Identifier.require join.onColumn
  join.localColumn.forM Identifier.require
  join.columns.forM checkColumn

/-- Passes the names of a field. -/
def checkField (f : Field) : Except EntityFault Unit := do
  Identifier.require f.name
  Identifier.require f.columnName
  f.join.forM checkJoin

/-- The names of the columns of a result. -/
def exposedNames (e : Entity) : List String :=
  (e.fields.filter Field.isProjected).map Field.name ++
    ((e.fields.filterMap Field.join).flatMap Join.columns).map JoinColumn.exposedName

/-- The first name that, in lower case, is one seen before. -/
def repeatedName? (seen : List String) : List String → Option String
  | [] => none
  | name :: rest =>
    let folded := Text.lowerCase name
    if folded ∈ seen then some name else repeatedName? (folded :: seen) rest

/-- Passes an entity that statements can be written for. -/
def check (e : Entity) : Except EntityFault Unit := do
  if Text.trim e.table.toList = [] then .error .emptyTableName
  Identifier.requireTable e.table
  let keys := e.fields.countP Field.isKey
  if 1 < keys then .error (.severalKeys e.table keys)
  e.fields.forM checkField
  match repeatedName? [] e.exposedNames with
  | some name => .error (.repeatedColumn e.table name)
  | none => .ok ()

/-- The key field, which has to be there. -/
def requireKey (e : Entity) : Except EntityFault Field :=
  match e.key? with
  | some key => .ok key
  | none => .error (.noKey e.table)

/-- The key field with its value, both of which have to be there. -/
def requireKeyValue (e : Entity) : Except EntityFault (Field × Json) := do
  let key ← e.requireKey
  match e.present? key.name with
  | some value => .ok (key, value)
  | none => .error (.noKeyValue key.name e.table)

end RecordSql.Entity
