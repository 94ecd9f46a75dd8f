import RecordSql.Aggregation
import RecordSql.Dialect
import RecordSql.Identifier
import RecordSql.Listing
import RecordSql.Predicate.Condition

/-!
# Why a statement is refused

A refusal has one of four kinds, and names its cause. No kind is worth a second try: the same input
is always refused the same way.
-/

namespace RecordSql

/-- What a batch step does. -/
inductive BatchOperation where
  | insert
  | update
  | delete
  deriving DecidableEq, Repr

/-- The word for what a batch step does. -/
def BatchOperation.word : BatchOperation → String
  | .insert => "insert"
  | .update => "update"
  | .delete => "delete"

/-- Causes that lie with an entity: its metadata, its values, or the links between entities. -/
inductive EntityFault where
  | identifier (fault : IdentifierFault)
  | emptyTableName
  | tableNameParts (table : String)
  | severalKeys (table : String) (count : Nat)
  | repeatedColumn (table column : String)
  | noKey (table : String)
  | noKeyValue (key table : String)
  | keyValue (key table : String) (reason : CoerceFault)
  | fieldValue (field table : String) (reason : CoerceFault)
  | nothingToSelect (table : String)
  | nothingToInsert (table : String)
  | nothingToUpdate (table : String)
  | unresolvedJoin (joined localColumn table : String)
  | emptyBatch
  | linkToUnknownField (step : Nat) (field table : String)
  | linkNotBackward (step source : Nat)
  | linkToNoInsert (step source : Nat) (operation : BatchOperation)
  | linkToNoKey (step source : Nat) (table : String)
  | linkToOtherKey (key table : String) (type : DataType)

/-- Causes that lie with a listing or an aggregation. -/
inductive FilterFault where
  | predicate (fault : Predicate.Fault)
  | unknownFunction (text : String)
  | unknownOperator (text : String)
  | sortIndex (fault : Listing.SortFault)
  | windowRange (start length : UInt64)
  | windowOrder (table : String)
  | unknownColumn (column table : String)
  | columnSearch (search : Predicate) (column : String) (reason : CoerceFault)
  | exampleValue (search : Predicate) (field : String) (reason : CoerceFault)
  | emptyAggregation (table : String)
  | functionWithoutField (function : AggregateFunction)
  | havingValue (label : String) (reason : CoerceFault)

/-- Uses of encryption that a dialect may lack. -/
inductive EncryptionUse where
  | column (field : String)
  | decryption
  | encryption
  deriving DecidableEq, Repr

/-- Why a statement is refused. Keys may be missing for one field or for a whole statement. -/
inductive QueryError where
  | invalidEntity (fault : EntityFault)
  | invalidFilter (fault : FilterFault)
  | unsupported (dialect : Dialect) (use : EncryptionUse)
  | keysMissing (field : Option String)

/-! ## Wording -/

/-- The wording of a cause that lies with an entity. -/
def EntityFault.message : EntityFault → String
  | .identifier fault => fault.message
  | .emptyTableName => "table name is empty"
  | .tableNameParts table =>
    s!"table name '{table}' has more than {Identifier.maxTableParts} parts"
  | .severalKeys table count =>
    s!"table '{table}' declares {count} key fields, at most one is allowed"
  | .repeatedColumn table column => s!"table '{table}' exposes column '{column}' more than once"
  | .noKey table => s!"table '{table}' has no key field"
  | .noKeyValue key table => s!"key '{key}' of table '{table}' has no value"
  | .keyValue key table reason => s!"key '{key}' of table '{table}': {reason.message}"
  | .fieldValue field table reason =>
    s!"value for field '{field}' of table '{table}': {reason.message}"
  | .nothingToSelect table => s!"table '{table}' has no visible columns to select"
  | .nothingToInsert table => s!"table '{table}' has no values to insert"
  | .nothingToUpdate table => s!"table '{table}' has no updatable fields to set"
  | .unresolvedJoin joined localColumn table =>
    s!"join on '{joined}' reads '{localColumn}', which matches no field or earlier join column " ++
      s!"of table '{table}'"
  | .emptyBatch => "batch has no steps"
  | .linkToUnknownField step field table =>
    s!"step {step} links unknown field '{field}' of table '{table}'"
  | .linkNotBackward step source =>
    s!"step {step} links the key of step {source}, which does not run before it"
  | .linkToNoInsert step source operation =>
    s!"step {step} links the key of step {source}, which is an {operation.word} and generates " ++
      "no key"
  | .linkToNoKey step source table =>
    s!"step {step} links the key of step {source}, but table '{table}' has no key field"
  | .linkToOtherKey key table type =>
    s!"key '{key}' of table '{table}' is {type.word} and cannot be captured in a batch"

/-- The wording of a cause that lies with a listing or an aggregation. -/
def FilterFault.message : FilterFault → String
  | .predicate fault => fault.message
  | .unknownFunction text => s!"unknown aggregate function '{text}'"
  | .unknownOperator text => s!"unsupported HAVING operator '{text}'"
  | .sortIndex fault => fault.message
  | .windowRange start length =>
    s!"page of {length} rows starting at row {start} is out of range"
  | .windowOrder table => s!"a paged query on table '{table}' needs a sort column or a key field"
  | .unknownColumn column table =>
    s!"column '{column}' matches no field or join column of table '{table}'"
  | .columnSearch search column reason =>
    s!"search value '{search.wire}' for column '{column}': {reason.message}"
  | .exampleValue search field reason =>
    s!"value '{search.wire}' for field '{field}': {reason.message}"
  | .emptyAggregation table =>
    s!"aggregate on table '{table}' has no group fields and no functions"
  | .functionWithoutField function => s!"aggregate function {function.name} needs a field"
  | .havingValue label reason => s!"HAVING value for {label}: {reason.message}"

/-- The wording of a use of encryption. -/
def EncryptionUse.words : EncryptionUse → String
  | .column field => s!"encrypted column '{field}'"
  | .decryption => "column decryption"
  | .encryption => "column encryption"

namespace QueryError

/-- The wording of a refusal. -/
def message : QueryError → String
  | .invalidEntity fault => s!"Invalid entity: {fault.message}"
  | .invalidFilter fault => s!"Invalid filter: {fault.message}"
  | .unsupported dialect use =>
    s!"Operation '{use.words}' is not supported by the {dialect.name} dialect"
  | .keysMissing (some field) =>
    "Encryption configuration missing: " ++
      s!"field '{field}' is encrypted but no key/certificate is configured"
  | .keysMissing none =>
    "Encryption configuration missing: " ++
      "statement touches encrypted columns but no key/certificate is configured"

/-- The kind of a refusal, in one word. -/
def kind : QueryError → String
  | .invalidEntity _ => "invalid_entity"
  | .invalidFilter _ => "invalid_filter"
  | .unsupported .. => "unsupported_operation"
  | .keysMissing _ => "encryption_config_missing"

end QueryError

/-- The result of something that may be refused. -/
abbrev Checked (α : Type) := Except QueryError α

/-- A result whose cause lies with an entity. -/
def Checked.ofEntity {α : Type} : Except EntityFault α → Checked α
  | .ok a => .ok a
  | .error fault => .error (.invalidEntity fault)

/-- A result whose cause lies with a listing or an aggregation. -/
def Checked.ofFilter {α : Type} : Except FilterFault α → Checked α
  | .ok a => .ok a
  | .error fault => .error (.invalidFilter fault)

/-! ## Checks of single texts -/

/-- Passes an identifier. -/
def Identifier.require (name : String) : Except EntityFault Unit :=
  (Identifier.check name).mapError .identifier

/-- Passes a table name. -/
def Identifier.requireTable (name : String) : Except EntityFault Unit :=
  let parts := Identifier.tableParts name
  if Identifier.maxTableParts < parts.length then .error (.tableNameParts name)
  else parts.forM Identifier.require

/-- The function that a word stands for. -/
def AggregateFunction.require (text : String) : Except FilterFault AggregateFunction :=
  match AggregateFunction.parse? text with
  | some f => .ok f
  | none => .error (.unknownFunction text)

/-- The comparison that an operator stands for. -/
def Comparison.require (text : String) : Except FilterFault Comparison :=
  match Comparison.parse? text with
  | some c => .ok c
  | none => .error (.unknownOperator text)

end RecordSql
