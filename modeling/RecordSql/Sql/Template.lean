import RecordSql.Sql.Basic
import RecordSql.Window

/-!
# The shapes of statements

How each dialect arranges the parts of a statement. The parts are finished SQL of any kind; nothing
here looks into them, apart from the semicolons that a statement inside key management sheds.

* SQL Server numbers the rows of a page in a derived table and cuts the page out of it; Oracle has
  clauses for it.
* SQL Server returns a new key as a result, Oracle in an output parameter. In a batch both keep it
  in a variable.
* Only SQL Server can encrypt columns.
-/

namespace RecordSql

/-- A listing in the parts that paging rearranges. -/
structure PagedSelect where
  projection : Sql
  source : Sql
  filter : Option Sql
  orderBy : Sql

/-- The parts of an insert; columns and values go together. -/
structure InsertParts where
  table : Sql
  columns : List Sql
  values : List Sql

/-- What becomes of the key of an inserted row. -/
inductive KeyReturn where
  | omit
  | return (column : Sql) (output : Option Sql)
  | capture (column : Sql) (name : String)

/-- A variable that a batch keeps a key in, and the parameter that hands it out. -/
structure BatchVariable where
  name : String
  output : Option Sql

/-- The parts of a batch. -/
structure BatchParts where
  keyVariables : List BatchVariable
  fragments : List Sql

namespace Dialect

/-- A date as text of the form year, month and day. -/
def dateToString (d : Dialect) (column : Sql) : Sql :=
  match d with
  | .sqlServer => .text "CONVERT(VARCHAR(10), " :: column ++ [.text ", 120)"]
  | .oracle => .text "TO_CHAR(" :: column ++ [.text ", 'YYYY-MM-DD')"]

/-! ## Reading -/

/-- One page of a listing. -/
def paginate (d : Dialect) (select : PagedSelect) (w : Window) : Sql :=
  match d with
  | .sqlServer =>
    .text "SELECT * FROM (SELECT " :: select.projection ++
      .text ", ROW_NUMBER() OVER (ORDER BY " :: select.orderBy ++
      .text ") AS RowNum " :: select.source ++ Sql.whereSuffix select.filter ++
      [.text s!") paged WHERE paged.RowNum BETWEEN {w.firstRow} AND {w.lastRow}",
       .text " ORDER BY paged.RowNum"]
  | .oracle =>
    .text "SELECT " :: select.projection ++ .text " " :: select.source ++
      Sql.whereSuffix select.filter ++ .text " ORDER BY " :: select.orderBy ++
      [.text s!" OFFSET {w.start} ROWS FETCH NEXT {w.length} ROWS ONLY"]

/-! ## Writing -/

/-- The head of an insert. -/
def insertHead (parts : InsertParts) : Sql :=
  .text "INSERT INTO " :: parts.table ++ .text " (" :: Sql.list parts.columns ++ [.text ")"]

/-- The values of an insert. -/
def insertValues (parts : InsertParts) : Sql :=
  .text " VALUES (" :: Sql.list parts.values ++ [.text ")"]

/-- An insert of one row. -/
def insert (d : Dialect) (parts : InsertParts) (key : KeyReturn) : Sql :=
  match d, key with
  | .sqlServer, .return column _ =>
    insertHead parts ++ .text " OUTPUT INSERTED." :: column ++ insertValues parts
  | .sqlServer, .capture _ name =>
    insertHead parts ++ insertValues parts ++
      [.text "; SET ", .variable name, .text " = SCOPE_IDENTITY()"]
  | .oracle, .return column (some output) =>
    insertHead parts ++ insertValues parts ++
      .text " RETURNING " :: column ++ .text " INTO " :: output
  | .oracle, .capture column name =>
    insertHead parts ++ insertValues parts ++
      .text " RETURNING " :: column ++ [.text " INTO ", .variable name]
  | _, _ => insertHead parts ++ insertValues parts

/-- An update of the rows that a condition picks. -/
def update (d : Dialect) (table tableAlias : Sql) (assignments : List Sql) (condition : Sql) :
    Sql :=
  match d with
  | .sqlServer =>
    .text "UPDATE " :: tableAlias ++ .text " SET " :: Sql.list assignments ++ .text " FROM " ::
      table ++
      .text " " :: tableAlias ++ .text " WHERE " :: condition
  | .oracle =>
    .text "UPDATE " :: table ++ .text " " :: tableAlias ++ .text " SET " :: Sql.list assignments ++
      .text " WHERE " :: condition

/-- A delete of the rows that a condition picks. -/
def delete (d : Dialect) (table tableAlias condition : Sql) : Sql :=
  match d with
  | .sqlServer =>
    .text "DELETE " :: tableAlias ++ .text " FROM " :: table ++ .text " " :: tableAlias ++
      .text " WHERE " :: condition
  | .oracle =>
    .text "DELETE FROM " :: table ++ .text " " :: tableAlias ++ .text " WHERE " :: condition

/-! ## Batches -/

/-- A name without the at signs it starts with. -/
def bareName (name : String) : String := String.ofList (name.toList.dropWhile (· = '@'))

/-- The lines of a batch. -/
def batchLines (d : Dialect) (parts : BatchParts) : List Sql :=
  match d with
  | .sqlServer =>
    [[.text "SET XACT_ABORT ON;"], [.text "BEGIN TRANSACTION;"]] ++
      parts.keyVariables.map (fun v => [.text "DECLARE ", .variable v.name, .text " BIGINT;"]) ++
      parts.fragments.map (fun fragment => fragment ++ [.text ";"]) ++
      [[.text "COMMIT TRANSACTION;"]] ++
      (if parts.keyVariables.isEmpty then []
       else
        [.text "SELECT " ::
          Sql.list
            (parts.keyVariables.map fun v => [.variable v.name, .text s!" AS {bareName v.name}"]) ++
          [.text ";"]])
  | .oracle =>
    (if parts.keyVariables.isEmpty then []
     else
      [.text "DECLARE"] ::
        parts.keyVariables.map (fun v => [.text "  ", .variable v.name, .text " NUMBER;"])) ++
      [[.text "BEGIN"]] ++
      parts.fragments.map (fun fragment => .text "  " :: fragment ++ [.text ";"]) ++
      [[.text "  COMMIT;"]] ++
      parts.keyVariables.filterMap (fun v =>
        v.output.map fun output =>
          .text "  " :: output ++ [.text " := ", .variable v.name, .text ";"]) ++
      [[.text "END;"]]

/-- Fragments that run together or not at all. -/
def batch (d : Dialect) (parts : BatchParts) : Sql := Sql.joined "\n" (d.batchLines parts)

/-! ## Encryption -/

/-- The text that opens the decryption of a column. -/
def decryptOpening : String := "CONVERT(NVARCHAR(MAX), DECRYPTBYKEY("

/-- The text that opens the encryption of a value with a key. -/
def encryptOpening (keys : EncryptionKeys) : String :=
  s!"ENCRYPTBYKEY(KEY_GUID({Text.quoteLiteral keys.keyName}), CONVERT(NVARCHAR(MAX), "

/-- The text that closes either. -/
def encryptionClosing : String := "))"

/-- An encrypted column in clear. -/
def decrypt (d : Dialect) (column : Sql) : Checked Sql :=
  match d with
  | .sqlServer => .ok (.keyed decryptOpening :: column ++ [.text encryptionClosing])
  | .oracle => .error (.unsupported d .decryption)

/-- A value as an encrypted column stores it. -/
def encrypt (d : Dialect) (value : Sql) (keys : EncryptionKeys) : Checked Sql :=
  match d with
  | .sqlServer => .ok (.keyed (encryptOpening keys) :: value ++ [.text encryptionClosing])
  | .oracle => .error (.unsupported d .encryption)

/-- A quoted name, whether or not names are quoted elsewhere. -/
def quote (d : Dialect) (name : String) : String :=
  Text.quoteIdentifier name d.quotes.1 d.quotes.2

/-- A statement between the opening and the closing of the key it needs. -/
def withKeys (d : Dialect) (sql : Sql) (keys : EncryptionKeys) : Checked Sql :=
  match d with
  | .sqlServer =>
    let key := d.quote keys.keyName
    let certificate := d.quote keys.certificateName
    .ok
      (.text s!"OPEN SYMMETRIC KEY {key} DECRYPTION BY CERTIFICATE {certificate};\n" ::
        sql.withoutSemicolons ++ [.text s!";\nCLOSE SYMMETRIC KEY {key};"])
  | .oracle => .error (.unsupported d .encryption)

end Dialect

end RecordSql
