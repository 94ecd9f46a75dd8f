import RecordSql.DataType
import RecordSql.Entity.Join

/-!
# Fields

The metadata of one column of a table: its names, its type, and what statements may do with it.

A default that is present may itself be `null`; stored metadata cannot tell that apart from no
default, and reads it as none.
-/

namespace RecordSql

/-- The metadata of a column. -/
structure Field where
  name : String
  dbName : Option String
  dataType : DataType
  isKey : Bool
  insertable : Bool
  updatable : Bool
  default : Option Json
  join : Option Join

namespace Field

/-- A field that is no key and may be inserted and updated. -/
def new (name : String) (dataType : DataType) : Field :=
  { name, dataType, dbName := none, isKey := false, insertable := true, updatable := true,
    default := none, join := none }

/-- The physical name of the column. -/
def columnName (f : Field) : String := f.dbName.getD f.name

/-- Whether the field is part of a projection. -/
def isProjected (f : Field) : Bool := f.insertable || f.updatable

/-! ## Stored form -/

/-- The names of the members of a stored field. -/
def memberNames : List String :=
  ["name", "db_name", "data_type", "is_key", "insertable", "updatable", "default", "join"]

/-- The shape of a stored field. -/
def shape : Json.Shape := .ofNames memberNames [("join", Join.shape)]

/-- The field as stored metadata. -/
def toJson (f : Field) : Json :=
  .object
    ([("name", .string f.name)] ++
      Json.optionalMember "db_name" .string f.dbName ++
      [("data_type", f.dataType.toJson),
       ("is_key", .bool f.isKey),
       ("insertable", .bool f.insertable),
       ("updatable", .bool f.updatable)] ++
      Json.optionalMember "default" id f.default ++
      Json.optionalMember "join" Join.toJson f.join)

/-- The field of stored metadata. -/
def ofJson? (value : Json) : Option Field := do
  let member ← value.record? memberNames
  let name ← Json.needed (member "name") Json.string?
  let dbName ← Json.optional (member "db_name") Json.string?
  let dataType ← Json.needed (member "data_type") DataType.ofJson?
  let isKey ← Json.orElse false (member "is_key") Json.bool?
  let insertable ← Json.orElse true (member "insertable") Json.bool?
  let updatable ← Json.orElse true (member "updatable") Json.bool?
  let default ← Json.optional (member "default") some
  let join ← Json.optional (member "join") Join.ofJson?
  pure { name, dbName, dataType, isKey, insertable, updatable, default, join }

end Field

end RecordSql
