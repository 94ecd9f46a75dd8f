import RecordSql.Builder.Basic

/-!
# What a name stands for

The root table of a statement has the alias `t0`; each join, in the order of the fields that carry
them, has the next alias `j0`, `j1` and so on. A name that a listing or an aggregation mentions
stands for the first of these that there is:

* a column that a join pulls in under no alias but its own name;
* a column that a join pulls in under the name as its alias;
* a field of the entity.

The local side of a join condition is looked up in the same way, but sees only the joins before its
own.
-/

namespace RecordSql

/-- A join with the number of its alias and the field that carries it. -/
structure JoinedTable where
  index : Nat
  field : Field
  join : Join

/-- The alias of the joined table. -/
def JoinedTable.tableAlias (t : JoinedTable) : TableAlias := .join t.index

/-- What a name stands for. -/
inductive Target where
  | field (f : Field)
  | joined (index : Nat) (column : JoinColumn)

namespace Target

/-- The type of the values that the column is compared with. Of a joined column nothing is known,
and it is compared as text. -/
def dataType : Target → DataType
  | .field f => f.dataType
  | .joined .. => .text

/-- The physical name of the column. -/
def columnName : Target → String
  | .field f => f.columnName
  | .joined _ column => column.source

/-- The column itself. -/
def column : Target → Sql
  | .field f => [.column .root f.columnName]
  | .joined index column => [.column (.join index) column.source]

end Target

namespace Entity

/-- The fields that carry a join. -/
def joinedFields (e : Entity) : List (Field × Join) :=
  e.fields.filterMap fun f => f.join.map fun join => (f, join)

/-- The joins of the entity, in order. -/
def joinedTables (e : Entity) : List JoinedTable :=
  e.joinedFields.zipIdx.map fun ((field, join), index) => ⟨index, field, join⟩

/-- The first pulled column that meets a condition. -/
def findJoined? (tables : List JoinedTable) (accept : JoinColumn → Bool) : Option Target :=
  tables.findSome? fun t => (t.join.columns.find? accept).map (.joined t.index)

/-- What a name stands for when these joins can be seen. -/
def resolveWithin? (e : Entity) (tables : List JoinedTable) (name : String) : Option Target :=
  (findJoined? tables fun c => c.label.isNone && c.source = name).or <|
    (findJoined? tables fun c => c.label = some name).or <|
      (e.field? name).map .field

/-- What a name stands for. -/
def resolve? (e : Entity) (name : String) : Option Target := e.resolveWithin? e.joinedTables name

/-- What a name of a listing or an aggregation stands for. -/
def resolve (e : Entity) (name : String) : Except FilterFault Target :=
  match e.resolve? name with
  | some target => .ok target
  | none => .error (.unknownColumn name e.table)

/-- The local side of the condition of a join. -/
def joinSource (e : Entity) (t : JoinedTable) : Except EntityFault Target :=
  match t.join.localColumn with
  | none => .ok (.field t.field)
  | some name =>
    match e.resolveWithin? (e.joinedTables.take t.index) name with
    | some target => .ok target
    | none => .error (.unresolvedJoin t.join.table name e.table)

end Entity

/-- The expression that a condition, a sort or a group reads a column through. -/
def Builder.operand (b : Builder) : Target → Checked Sql
  | .field f => b.readField f
  | .joined index column => .ok [.column (.join index) column.source]

end RecordSql
