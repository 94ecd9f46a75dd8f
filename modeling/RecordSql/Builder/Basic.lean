import RecordSql.Entity.Check
import RecordSql.Sql.Template

/-!
# The builder

A builder writes statements for one dialect under one set of settings. It holds no state: the same
input always gives the same statement.

What all statements share is here: how an encrypted column is read, and how a statement is
finished. Statements are lists of pieces here. `Writer` writes the same statements as text, along
with a sink that takes their values.
-/

namespace RecordSql

/-- A writer of statements; its dialect need not be the one that its settings name. -/
structure Builder where
  dialect : Dialect
  config : Config
  deriving DecidableEq, Repr

namespace Builder

/-- The builder for the dialect of the settings. -/
def ofConfig (config : Config) : Builder := ⟨config.dialect, config⟩

/-- The builder that is set up when nothing is said. -/
def default : Builder := ofConfig .default

/-- How statements of this builder are written. -/
def style (b : Builder) : Style := ⟨b.dialect, b.config.quoteIdentifiers⟩

/-- The keys that protect an encrypted field. A dialect that cannot encrypt is the first thing that
can be wrong, missing keys the second. -/
def keysFor (b : Builder) (f : Field) : Checked EncryptionKeys :=
  if b.dialect.supportsEncryption then
    match b.config.encryption with
    | some keys => .ok keys
    | none => .error (.keysMissing (some f.name))
  else .error (.unsupported b.dialect (.column f.name))

/-- The expression that reads a column of the entity's own table: in clear when it is encrypted,
the column itself otherwise. -/
def readField (b : Builder) (f : Field) : Checked Sql :=
  let column : Sql := [.column .root f.columnName]
  if f.dataType = .encrypted then do
    let _ ← b.keysFor f
    b.dialect.decrypt column
  else .ok column

/-- Finishes a statement, with the key management that it needs. -/
def finish (b : Builder) (sql : Sql) : Checked Statement :=
  if sql.needsKey then
    match b.config.encryption with
    | none => .error (.keysMissing none)
    | some keys => do
      let sql ← b.dialect.withKeys sql keys
      pure ⟨sql, b.style⟩
  else .ok ⟨sql, b.style⟩

/-- Checks an entity, and finishes the statement that is written for it. -/
def build (b : Builder) (e : Entity) (body : Checked Sql) : Checked Statement := do
  Checked.ofEntity e.check
  let sql ← body
  b.finish sql

end Builder

end RecordSql
