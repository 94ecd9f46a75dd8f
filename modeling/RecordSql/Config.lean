import RecordSql.Error

/-!
# Settings

What a builder of statements is set up with: the dialect, whether names are quoted, and the
symmetric key that protects encrypted columns. Settings are stored as JSON or taken from the
environment, and are checked either way.
-/

namespace RecordSql

/-- A symmetric key and the certificate that opens it. -/
structure EncryptionKeys where
  keyName : String
  certificateName : String
  deriving DecidableEq, Repr

/-- The settings of a builder. -/
structure Config where
  dialect : Dialect
  quoteIdentifiers : Bool
  encryption : Option EncryptionKeys
  deriving DecidableEq, Repr

/-- The two names that encryption is set up with. -/
inductive KeySetting where
  | key
  | certificate
  deriving DecidableEq, Repr

/-- Why settings are refused. -/
inductive ConfigError where
  | missing (setting : KeySetting)
  | badDialect (value : String)
  | badFlag (value : String)
  | badName (setting : KeySetting) (value : String) (fault : IdentifierFault)
  | encryptionUnavailable
  | malformed
  deriving DecidableEq, Repr

/-! ## Wording -/

namespace KeySetting

/-- The setting as a path. -/
def field : KeySetting → String
  | .key => "encryption.key_name"
  | .certificate => "encryption.certificate_name"

/-- The environment variable of the setting. -/
def environmentName : KeySetting → String
  | .key => "METAQUERY_ENCRYPTION_KEY"
  | .certificate => "METAQUERY_ENCRYPTION_CERTIFICATE"

/-- The other one of the two. -/
def other : KeySetting → KeySetting
  | .key => .certificate
  | .certificate => .key

end KeySetting

namespace ConfigError

/-- The wording of a value that is not what was expected. -/
def invalidValue (field value expected : String) : String :=
  s!"Invalid value for field '{field}': '{value}'. Expected: {expected}"

/-- The wording of a refusal. -/
def message : ConfigError → String
  | .missing setting =>
    s!"Missing required field: {setting.field}. " ++
      s!"{setting.environmentName} is required when {setting.other.environmentName} is set"
  | .badDialect value => invalidValue "dialect" value "sqlserver or oracle"
  | .badFlag value => invalidValue "quote_identifiers" value "true or false"
  | .badName setting value fault =>
    let reason := (QueryError.invalidEntity (.identifier fault)).message
    invalidValue setting.field value s!"a valid SQL identifier ({reason})"
  | .encryptionUnavailable =>
    "Configuration validation failed: " ++
      "column encryption is only available with the sqlserver dialect"
  | .malformed => "JSON error"

/-- The kind of a refusal, in one word. -/
def kind : ConfigError → String
  | .missing _ => "missing_required"
  | .badDialect _ | .badFlag _ | .badName .. => "invalid_value"
  | .encryptionUnavailable => "validation_failed"
  | .malformed => "json"

end ConfigError

namespace Config

/-- Plain settings for a dialect. -/
def new (dialect : Dialect) : Config := ⟨dialect, false, none⟩

/-- The settings that apply when nothing is set. -/
def default : Config := new .sqlServer

/-! ## Checking -/

/-- Passes one of the names of encryption. -/
def checkName (setting : KeySetting) (name : String) : Except ConfigError Unit :=
  (Identifier.check name).mapError (.badName setting name)

/-- Passes settings that can work: encryption needs a dialect that has it, and names that are
identifiers. -/
def check (c : Config) : Except ConfigError Unit :=
  match c.encryption with
  | none => .ok ()
  | some keys =>
    if c.dialect = .oracle then .error .encryptionUnavailable
    else do
      checkName .key keys.keyName
      checkName .certificate keys.certificateName

/-! ## Stored form -/

/-- The names of the members of stored keys. -/
def keyMemberNames : List String := ["key_name", "certificate_name"]

/-- The names of the members of stored settings. -/
def memberNames : List String := ["dialect", "quote_identifiers", "encryption"]

/-- The shape of stored settings. -/
def shape : Json.Shape := .ofNames memberNames [("encryption", .ofNames keyMemberNames [])]

/-- The keys as they are stored. -/
def keysJson (keys : EncryptionKeys) : Json :=
  .object [("key_name", .string keys.keyName), ("certificate_name", .string keys.certificateName)]

/-- The keys of a stored form. -/
def keysOfJson? (value : Json) : Option EncryptionKeys := do
  let member ← value.record? keyMemberNames
  let keyName ← Json.needed (member "key_name") Json.string?
  let certificateName ← Json.needed (member "certificate_name") Json.string?
  pure ⟨keyName, certificateName⟩

/-- The settings in their stored form. -/
def toJson (c : Config) : Json :=
  .object
    ([("dialect", c.dialect.toJson), ("quote_identifiers", .bool c.quoteIdentifiers)] ++
      Json.optionalMember "encryption" keysJson c.encryption)

/-- The settings of a stored form, unchecked. -/
def ofJson? (value : Json) : Option Config := do
  let member ← value.record? memberNames
  let dialect ← Json.orElse .sqlServer (member "dialect") Dialect.ofJson?
  let quoteIdentifiers ← Json.orElse false (member "quote_identifiers") Json.bool?
  let encryption ← Json.optional (member "encryption") keysOfJson?
  pure ⟨dialect, quoteIdentifiers, encryption⟩

/-- The settings of a stored text, checked. -/
def ofText (text : String) : Except ConfigError Config := do
  match (Json.asWritten? shape text).bind ofJson? with
  | none => .error .malformed
  | some c => do
    c.check
    pure c

/-! ## Environment -/

/-- The variable that names the dialect. -/
def dialectVariable : String := "METAQUERY_DIALECT"

/-- The variable that says whether names are quoted. -/
def quoteVariable : String := "METAQUERY_QUOTE_IDENTIFIERS"

/-- The truth value that a flag stands for. -/
def flag? (s : String) : Option Bool :=
  let word := Text.lowerCase (Text.strip s)
  if word ∈ ["true", "1", "yes", "on"] then some true
  else if word ∈ ["false", "0", "no", "off"] then some false
  else none

/-- The dialect that the environment sets. -/
def dialectSetting (value : Option String) : Except ConfigError Dialect :=
  match value with
  | none => .ok default.dialect
  | some s =>
    match Dialect.parse? s with
    | some d => .ok d
    | none => .error (.badDialect s)

/-- The quoting that the environment sets. -/
def quoteSetting (value : Option String) : Except ConfigError Bool :=
  match value with
  | none => .ok default.quoteIdentifiers
  | some s =>
    match flag? s with
    | some b => .ok b
    | none => .error (.badFlag s)

/-- The keys that the environment sets, both names or none. -/
def keysSetting (key certificate : Option String) : Except ConfigError (Option EncryptionKeys) :=
  match key, certificate with
  | some key, some certificate => .ok (some ⟨key, certificate⟩)
  | some _, none => .error (.missing .certificate)
  | none, some _ => .error (.missing .key)
  | none, none => .ok none

/-- The settings of an environment, checked. -/
def ofEnvironment (env : String → Option String) : Except ConfigError Config := do
  let dialect ← dialectSetting (env dialectVariable)
  let quoteIdentifiers ← quoteSetting (env quoteVariable)
  let encryption ←
    keysSetting (env KeySetting.key.environmentName) (env KeySetting.certificate.environmentName)
  let c : Config := ⟨dialect, quoteIdentifiers, encryption⟩
  c.check
  pure c

end Config

end RecordSql
