import RecordSql.Builder.Write
import RecordSql.Writer.Where

/-!
# Inserts, updates and deletes as they are written

The statements of `Builder.Write`, written along with a sink. The values of a row are bound in the
order of its fields, and the key behind them: as the output that an insert hands out, or as the
value that picks the row.
-/

namespace RecordSql

namespace Builder

/-- Writes the expression for a value of a column. The sink is marked for what is encrypted. -/
def writeValue (b : Builder) (e : Entity) (f : Field) (value : Json) : Writing String :=
  if f.dataType.isTemporal && isCurrentTime value then pure (b.dialect.currentTime f.dataType)
  else do
    let value ← Writing.check
      (Checked.ofEntity ((Value.coerce value f.dataType).mapError (.fieldValue f.name e.table)))
    if f.dataType = .encrypted then do
      let keys ← Writing.check (b.keysFor f)
      let placeholder ← Writing.bindInput value f.dataType
      Writing.markEncryption
      Writing.check (b.dialect.writeEncrypted placeholder keys)
    else Writing.bindInput value f.dataType

/-! ## Inserts -/

/-- Writes the column and the value of a field in an insert, if it has a value. -/
def writeEntry (b : Builder) (e : Entity) (links : Links) (f : Field) :
    Writing (Option (String × String)) :=
  match links.lookup f.name with
  | some name => pure (some (b.style.identifier f.columnName, name))
  | none =>
    match insertValue? e f with
    | none => pure none
    | some value => do
      let value ← b.writeValue e f value
      pure (some (b.style.identifier f.columnName, value))

/-- Writes what becomes of the key. A key that is handed out is bound behind the values. -/
def writeKeyReturn (b : Builder) (e : Entity) (handling : KeyHandling) : Writing WrittenKey :=
  match e.key?, handling with
  | some key, .return => do
    let column := b.style.identifier key.columnName
    if b.dialect.returnsKeyInParameter then
      let output ← Writing.bindOutput key.dataType
      pure (.return column (some output))
    else pure (.return column none)
  | some key, .capture name => pure (.capture (b.style.identifier key.columnName) name)
  | _, _ => pure .omit

/-- Writes an insert of the entity's values. -/
def writeInsert (b : Builder) (e : Entity) (links : Links) (handling : KeyHandling) :
    Writing String := do
  let entries ← (insertFields e).mapM (b.writeEntry e links)
  match entries.filterMap id with
  | [] => Writing.check (.error (.invalidEntity (.nothingToInsert e.table)))
  | entries => do
    let key ← b.writeKeyReturn e handling
    let table := b.style.qualifiedTable e.table
    pure (b.dialect.writeInsert ⟨table, entries.map Prod.fst, entries.map Prod.snd⟩ key)

/-! ## Updates -/

/-- Writes the assignment of a field in an update. -/
def writeAssignment (b : Builder) (e : Entity) (links : Links) (f : Field) : Writing String := do
  let value ←
    match links.lookup f.name with
    | some name => pure name
    | none =>
      match e.present? f.name with
      | some value => b.writeValue e f value
      | none => Writing.bindInput .null f.dataType
  pure (b.style.qualified .root f.columnName ++ " = " ++ value)

/-- Writes an update of the row of the entity's key: first the assignments, then the key. -/
def writeUpdate (b : Builder) (e : Entity) (names : Option (List String)) (links : Links) :
    Writing String := do
  let _ ← Writing.check (Checked.ofEntity e.requireKey)
  match ← (updateFields e names).mapM (b.writeAssignment e links) with
  | [] => Writing.check (.error (.invalidEntity (.nothingToUpdate e.table)))
  | assignments => do
    let condition ← b.writeKeyCondition e (keyLink? e links)
    let table := b.style.qualifiedTable e.table
    pure (b.dialect.writeUpdate table TableAlias.root.text assignments condition)

/-! ## Deletes -/

/-- Writes a delete of the row of the entity's key. -/
def writeDelete (b : Builder) (e : Entity) (links : Links) : Writing String := do
  let condition ← b.writeKeyCondition e (keyLink? e links)
  pure (b.dialect.writeDelete (b.style.qualifiedTable e.table) TableAlias.root.text condition)

end Builder

end RecordSql
