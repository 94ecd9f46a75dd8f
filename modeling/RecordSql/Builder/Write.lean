import RecordSql.Builder.Where

/-!
# Inserts, updates and deletes

Statements that write one row.

* An insert names the insertable fields that have a value or a default, the key never. The key of
  the new row is returned, kept in a variable or left alone.
* An update sets the updatable fields, all of them or some; one without a value is set to null.
* An update and a delete pick their row by its key.

A field may be **linked**: its value is then a variable of the surrounding batch, and the property
is not looked at. The word `NOW` stands for the current time on dates and times.
-/

namespace RecordSql

/-- The variables that stand for the values of linked fields. -/
abbrev Links := List (String × String)

/-- What becomes of the key of a new row. -/
inductive KeyHandling where
  | return
  | capture (name : String)
  | omit
  deriving DecidableEq, Repr

/-- The word that stands for the current time. -/
def currentTimeWord : String := "now"

/-- Whether a value asks for the current time, blanks around it and letter case apart. -/
def isCurrentTime : Json → Bool
  | .string s => Text.lowerCase (Text.strip s) = currentTimeWord
  | _ => false

namespace Builder

/-- The expression for a value written into a column. -/
def valueExpression (b : Builder) (e : Entity) (f : Field) (value : Json) : Checked Sql :=
  if f.dataType.isTemporal && isCurrentTime value then
    .ok [.text (b.dialect.currentTime f.dataType)]
  else do
    let value ←
      Checked.ofEntity ((Value.coerce value f.dataType).mapError (.fieldValue f.name e.table))
    let bound : Sql := [.bind (.input value f.dataType)]
    if f.dataType = .encrypted then do
      let keys ← b.keysFor f
      b.dialect.encrypt bound keys
    else pure bound

/-! ## Inserts -/

/-- What an insert gives a field: the value of the property, or else the default. -/
def insertValue? (e : Entity) (f : Field) : Option Json := (e.present? f.name).or f.default

/-- The column and the expression of a field in an insert, if it has a value. -/
def insertEntry (b : Builder) (e : Entity) (links : Links) (f : Field) :
    Checked (Option (Sql × Sql)) :=
  match links.lookup f.name with
  | some name => .ok (some ([.name f.columnName], [.variable name]))
  | none =>
    match insertValue? e f with
    | none => .ok none
    | some value => do
      let value ← b.valueExpression e f value
      pure (some ([.name f.columnName], value))

/-- What becomes of the key, in the form that the dialect arranges. -/
def keyReturn (b : Builder) (e : Entity) (handling : KeyHandling) : KeyReturn :=
  match e.key?, handling with
  | some key, .return =>
    .return [.name key.columnName]
      (if b.dialect.returnsKeyInParameter then some [.bind (.output key.dataType)] else none)
  | some key, .capture name => .capture [.name key.columnName] name
  | _, _ => .omit

/-- The fields that an insert may name. -/
def insertFields (e : Entity) : List Field := e.fields.filter fun f => f.insertable && !f.isKey

/-- An insert of the entity's values. -/
def insertBody (b : Builder) (e : Entity) (links : Links) (handling : KeyHandling) :
    Checked Sql := do
  let entries ← (insertFields e).mapM (b.insertEntry e links)
  match entries.filterMap id with
  | [] => .error (.invalidEntity (.nothingToInsert e.table))
  | entries =>
    pure
      (b.dialect.insert
        ⟨Sql.table e.table, entries.map Prod.fst, entries.map Prod.snd⟩ (b.keyReturn e handling))

/-! ## Updates -/

/-- The assignment of a field in an update. -/
def assignment (b : Builder) (e : Entity) (links : Links) (f : Field) : Checked Sql := do
  let value ←
    match links.lookup f.name with
    | some name => .ok [.variable name]
    | none =>
      match e.present? f.name with
      | some value => b.valueExpression e f value
      | none => .ok [.bind (.input .null f.dataType)]
  pure ([.target .root f.columnName, .text " = "] ++ value)

/-- The fields that an update may set, those of the given names if names are given. -/
def updateFields (e : Entity) (names : Option (List String)) : List Field :=
  (e.fields.filter fun f => f.updatable && !f.isKey).filter fun f =>
    match names with
    | none => true
    | some names => names.contains f.name

/-- The variable that stands for the key, if the key is linked. -/
def keyLink? (e : Entity) (links : Links) : Option String :=
  e.key?.bind fun key => links.lookup key.name

/-- An update of the row of the entity's key. -/
def updateBody (b : Builder) (e : Entity) (names : Option (List String)) (links : Links) :
    Checked Sql := do
  let _ ← Checked.ofEntity e.requireKey
  match ← (updateFields e names).mapM (b.assignment e links) with
  | [] => .error (.invalidEntity (.nothingToUpdate e.table))
  | assignments => do
    let condition ← keyCondition e (keyLink? e links)
    pure
      (b.dialect.update (Sql.table e.table) [.text TableAlias.root.text] assignments condition)

/-! ## Deletes -/

/-- A delete of the row of the entity's key. -/
def deleteBody (b : Builder) (e : Entity) (links : Links) : Checked Sql := do
  let condition ← keyCondition e (keyLink? e links)
  pure (b.dialect.delete (Sql.table e.table) [.text TableAlias.root.text] condition)

/-! ## Statements -/

/-- An insert of the entity's values, which returns the key if there is one. -/
def insert (b : Builder) (e : Entity) : Checked Statement :=
  b.build e (b.insertBody e [] .return)

/-- An update of every updatable field. -/
def update (b : Builder) (e : Entity) : Checked Statement := b.build e (b.updateBody e none [])

/-- An update of the fields of the given names; names that fit no updatable field are ignored. -/
def updateProperties (b : Builder) (e : Entity) (names : List String) : Checked Statement :=
  b.build e (b.updateBody e (some names) [])

/-- A delete by key. -/
def delete (b : Builder) (e : Entity) : Checked Statement := b.build e (b.deleteBody e [])

end Builder

end RecordSql
