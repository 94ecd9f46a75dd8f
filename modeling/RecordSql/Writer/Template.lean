import RecordSql.Sql.Template
import RecordSql.Writer.Sink

/-!
# The texts of statements

How each dialect puts the texts of the parts together. The parts come fully written, with their
placeholders in them, so nothing here binds a value. The order of the parts in the text is that of
the dialect, and need not be the order in which they were written.
-/

namespace RecordSql

/-- The texts of a listing that paging rearranges. -/
structure WrittenSelect where
  projection : String
  source : String
  filter : Option String
  orderBy : String

/-- The texts of an insert; columns and values go together. -/
structure WrittenInsert where
  table : String
  columns : List String
  values : List String

/-- What becomes of the key of an inserted row. -/
inductive WrittenKey where
  | omit
  | return (column : String) (output : Option String)
  | capture (column : String) (name : String)

/-- A variable that a batch keeps a key in, and the placeholder that hands it out. -/
structure WrittenVariable where
  name : String
  output : Option String

/-- The texts of a batch. -/
structure WrittenBatch where
  keyVariables : List WrittenVariable
  fragments : List String

/-- Texts with commas between them. -/
def commas (texts : List String) : String := ", ".intercalate texts

/-- A `WHERE` with its condition, or nothing. -/
def whereText : Option String → String
  | none => ""
  | some condition => " WHERE " ++ condition

namespace Dialect

/-- A date as text of the form year, month and day. -/
def writeDate (d : Dialect) (column : String) : String :=
  match d with
  | .sqlServer => "CONVERT(VARCHAR(10), " ++ column ++ ", 120)"
  | .oracle => "TO_CHAR(" ++ column ++ ", 'YYYY-MM-DD')"

/-- One page of a listing. -/
def writePage (d : Dialect) (select : WrittenSelect) (w : Window) : String :=
  match d with
  | .sqlServer =>
    "SELECT * FROM (SELECT " ++ select.projection ++ ", ROW_NUMBER() OVER (ORDER BY " ++
      select.orderBy ++ ") AS RowNum " ++ select.source ++ whereText select.filter ++
      s!") paged WHERE paged.RowNum BETWEEN {w.firstRow} AND {w.lastRow}" ++
      " ORDER BY paged.RowNum"
  | .oracle =>
    "SELECT " ++ select.projection ++ " " ++ select.source ++ whereText select.filter ++
      " ORDER BY " ++ select.orderBy ++
      s!" OFFSET {w.start} ROWS FETCH NEXT {w.length} ROWS ONLY"

/-- The head of an insert. -/
def insertHeadText (parts : WrittenInsert) : String :=
  "INSERT INTO " ++ parts.table ++ " (" ++ commas parts.columns ++ ")"

/-- The values of an insert. -/
def insertValuesText (parts : WrittenInsert) : String := " VALUES (" ++ commas parts.values ++ ")"

/-- An insert of one row. -/
def writeInsert (d : Dialect) (parts : WrittenInsert) (key : WrittenKey) : String :=
  match d, key with
  | .sqlServer, .return column _ =>
    insertHeadText parts ++ " OUTPUT INSERTED." ++ column ++ insertValuesText parts
  | .sqlServer, .capture _ name =>
    insertHeadText parts ++ insertValuesText parts ++ "; SET " ++ name ++ " = SCOPE_IDENTITY()"
  | .oracle, .return column (some output) =>
    insertHeadText parts ++ insertValuesText parts ++ " RETURNING " ++ column ++ " INTO " ++ output
  | .oracle, .capture column name =>
    insertHeadText parts ++ insertValuesText parts ++ " RETURNING " ++ column ++ " INTO " ++ name
  | _, _ => insertHeadText parts ++ insertValuesText parts

/-- An update of the rows that a condition picks. -/
def writeUpdate (d : Dialect) (table tableAlias : String) (assignments : List String)
    (condition : String) : String :=
  match d with
  | .sqlServer =>
    "UPDATE " ++ tableAlias ++ " SET " ++ commas assignments ++ " FROM " ++ table ++ " " ++
      tableAlias ++ " WHERE " ++ condition
  | .oracle =>
    "UPDATE " ++ table ++ " " ++ tableAlias ++ " SET " ++ commas assignments ++ " WHERE " ++
      condition

/-- A delete of the rows that a condition picks. -/
def writeDelete (d : Dialect) (table tableAlias condition : String) : String :=
  match d with
  | .sqlServer =>
    "DELETE " ++ tableAlias ++ " FROM " ++ table ++ " " ++ tableAlias ++ " WHERE " ++ condition
  | .oracle => "DELETE FROM " ++ table ++ " " ++ tableAlias ++ " WHERE " ++ condition

/-- The lines of a batch. -/
def batchTexts (d : Dialect) (parts : WrittenBatch) : List String :=
  match d with
  | .sqlServer =>
    ["SET XACT_ABORT ON;", "BEGIN TRANSACTION;"] ++
      parts.keyVariables.map (fun v => "DECLARE " ++ v.name ++ " BIGINT;") ++
      parts.fragments.map (fun fragment => fragment ++ ";") ++
      ["COMMIT TRANSACTION;"] ++
      (if parts.keyVariables.isEmpty then []
       else
        ["SELECT " ++
          commas (parts.keyVariables.map fun v => v.name ++ s!" AS {bareName v.name}") ++ ";"])
  | .oracle =>
    (if parts.keyVariables.isEmpty then []
     else "DECLARE" :: parts.keyVariables.map fun v => "  " ++ v.name ++ " NUMBER;") ++
      ["BEGIN"] ++
      parts.fragments.map (fun fragment => "  " ++ fragment ++ ";") ++
      ["  COMMIT;"] ++
      parts.keyVariables.filterMap (fun v =>
        v.output.map fun output => "  " ++ output ++ " := " ++ v.name ++ ";") ++
      ["END;"]

/-- Fragments that run together or not at all. -/
def writeBatch (d : Dialect) (parts : WrittenBatch) : String :=
  "\n".intercalate (d.batchTexts parts)

/-! ## Encryption -/

/-- An encrypted column in clear. -/
def writeDecrypted (d : Dialect) (column : String) : Checked String :=
  match d with
  | .sqlServer => .ok (decryptOpening ++ column ++ encryptionClosing)
  | .oracle => .error (.unsupported d .decryption)

/-- A value as an encrypted column stores it. -/
def writeEncrypted (d : Dialect) (value : String) (keys : EncryptionKeys) : Checked String :=
  match d with
  | .sqlServer => .ok (encryptOpening keys ++ value ++ encryptionClosing)
  | .oracle => .error (.unsupported d .encryption)

/-- A statement between the opening and the closing of the key it needs. -/
def writeWithKeys (d : Dialect) (text : String) (keys : EncryptionKeys) : Checked String :=
  match d with
  | .sqlServer =>
    let key := d.quote keys.keyName
    let certificate := d.quote keys.certificateName
    .ok
      (s!"OPEN SYMMETRIC KEY {key} DECRYPTION BY CERTIFICATE {certificate};\n" ++
        Sql.dropSemicolons text ++ s!";\nCLOSE SYMMETRIC KEY {key};")
  | .oracle => .error (.unsupported d .encryption)

end Dialect

end RecordSql
