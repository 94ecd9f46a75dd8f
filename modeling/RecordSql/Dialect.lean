import RecordSql.DataType
import RecordSql.Text.Blank
import RecordSql.Text.Ascii

/-!
# Dialects

The two databases that statements are written for, and the small differences between them: how
parameters, variables and quoted names are spelled, and how the current time is asked for. The
larger differences, in the shape of whole statements, are in `Sql.Template`.
-/

namespace RecordSql

/-- The database that a statement is for. -/
inductive Dialect where
  | sqlServer
  | oracle
  deriving DecidableEq, Repr

namespace Dialect

/-- The name of the dialect. -/
def name : Dialect → String
  | .sqlServer => "sqlserver"
  | .oracle => "oracle"

/-- The words for each dialect. -/
def words : List (String × Dialect) :=
  [("sqlserver", .sqlServer), ("mssql", .sqlServer), ("tsql", .sqlServer), ("oracle", .oracle)]

/-- The dialect that a word stands for, blanks around it and letter case apart. -/
def parse? (s : String) : Option Dialect := words.lookup (Text.lowerCase (Text.strip s))

/-- The wording of the fault of a word that stands for no dialect. -/
def unknownMessage (s : String) : String := s!"Unsupported SQL dialect: {s}"

/-- The dialect as a setting is stored. -/
def toJson (d : Dialect) : Json := .string d.name

/-- The dialect of a stored setting, which has to be spelled exactly. -/
def ofJson? (value : Json) : Option Dialect := value.choice? words

/-! ## Spelling -/

/-- The placeholder of a parameter. -/
def placeholder (d : Dialect) (parameter : String) : String :=
  match d with
  | .sqlServer => "@" ++ parameter
  | .oracle => ":" ++ parameter

/-- The quotes around a name. -/
def quotes : Dialect → Char × Char
  | .sqlServer => ('[', ']')
  | .oracle => ('"', '"')

/-- The name of the variable that a batch keeps a key in. -/
def batchVariable (d : Dialect) (index : Nat) : String :=
  match d with
  | .sqlServer => s!"@id{index}"
  | .oracle => s!"v_id{index}"

/-- The current time, as the type of a column wants it. -/
def currentTime : Dialect → DataType → String
  | .sqlServer, .date => "CAST(GETDATE() AS DATE)"
  | .sqlServer, _ => "GETDATE()"
  | .oracle, .date => "TRUNC(SYSDATE)"
  | .oracle, _ => "SYSTIMESTAMP"

/-- Whether the key of an inserted row comes back in an output parameter. -/
def returnsKeyInParameter : Dialect → Bool
  | .sqlServer => false
  | .oracle => true

/-- Whether columns can be encrypted. -/
def supportsEncryption : Dialect → Bool
  | .sqlServer => true
  | .oracle => false

end Dialect

end RecordSql
