import RecordSql.Json.Record

/-!
# Column types

The abstract type of a column. It decides which values the column takes, how it is projected and
what its parameters are declared as.
-/

namespace RecordSql

/-- The type of a column; an encrypted column holds text that the database encrypts at rest. -/
inductive DataType where
  | text
  | integer
  | decimal
  | date
  | dateTime
  | boolean
  | binary
  | encrypted
  deriving DecidableEq, Repr

namespace DataType

/-- The type of a parameter for the column: encrypted values travel as text. -/
def parameterType : DataType → DataType
  | .encrypted => .text
  | type => type

/-- Whether the column can be given the current time. -/
def isTemporal : DataType → Bool
  | .date | .dateTime => true
  | _ => false

/-- The word for the type in messages. -/
def word : DataType → String
  | .text => "text"
  | .integer => "integer"
  | .decimal => "decimal"
  | .date => "date"
  | .dateTime => "datetime"
  | .boolean => "boolean"
  | .binary => "binary"
  | .encrypted => "encrypted"

/-- The name of the type in stored metadata. -/
def wireName : DataType → String
  | .text => "Text"
  | .integer => "Integer"
  | .decimal => "Decimal"
  | .date => "Date"
  | .dateTime => "DateTime"
  | .boolean => "Boolean"
  | .binary => "Binary"
  | .encrypted => "Encrypted"

/-- Every type. -/
def all : List DataType :=
  [.text, .integer, .decimal, .date, .dateTime, .boolean, .binary, .encrypted]

/-- The type as stored metadata writes it. -/
def toJson (type : DataType) : Json := .string type.wireName

/-- The type that stored metadata names. -/
def ofJson? (value : Json) : Option DataType :=
  value.choice? (all.map fun type => (type.wireName, type))

end DataType

end RecordSql
