/-
Settings from environment variables.

* `Environment` — the variables that are set, with their bytes.
* `Config.ofEnvironment` — the settings they give; a variable that is not set leaves the default.
* `VariableError` — why a variable cannot be read.

A variable that holds a number, a truth value or a name must be readable. One that holds any text
is passed over where it is no text.
-/
import RepoAccess.Config.Basic
import RepoAccess.Text.Number
import RepoAccess.Text.Quoted
import RepoAccess.Text.Utf8

namespace RepoAccess

/-- The variables that are set, with their bytes. -/
abbrev Environment := List (String × List UInt8)

/-! ### Errors -/

/-- Why a variable cannot be read. -/
inductive VariableError where
  | number (cause : Text.NumberError)
  | truthValue
  | name
  /-- The bytes are no text. -/
  | notText (bytes : List UInt8)
deriving DecidableEq, Repr

/-- The wording of an error. -/
def VariableError.message : VariableError → String
  | .number cause => cause.message
  | .truthValue => "provided string was not `true` or `false`"
  | .name => Named.unknownName
  | .notText bytes => "environment variable was not valid unicode: " ++ Text.quotedBytes bytes

/-! ### Values -/

/-- A truth value: `true` or `false`. -/
def parseTruthValue (text : String) : Except VariableError Bool :=
  if text = "true" then .ok true else if text = "false" then .ok false else .error .truthValue

/-- A name of an enumeration. -/
def parseName (α : Type) [Named α] (text : String) : Except VariableError α :=
  match Named.ofName? text with
  | some a => .ok a
  | none => .error .name

/-! ### Variables -/

namespace Environment

/-- The value of a variable, if it is set; it must be readable then. -/
def read? {α : Type} (env : Environment) (key : String)
    (parse : String → Except VariableError α) : Except VariableError (Option α) :=
  match env.lookup key with
  | none => .ok none
  | some bytes =>
    match Text.Utf8.decode bytes with
    | .ok text => some <$> parse text
    | .error _ => .error (.notText bytes)

/-- The number in a variable, if it is set. -/
def number? (env : Environment) (key : String) (bound : Nat) :
    Except VariableError (Option Nat) :=
  env.read? key fun text => (Text.parseNumber bound text).mapError .number

/-- The text in a variable, or the default where there is none. -/
def textOr (env : Environment) (key default : String) : String :=
  match env.lookup key with
  | none => default
  | some bytes =>
    match Text.Utf8.decode bytes with
    | .ok text => text
    | .error _ => default

end Environment

/-! ### Settings -/

/-- The connection that the variables give. -/
def PostgresConfig.ofEnvironment (env : Environment) : Except VariableError PostgresConfig := do
  let d : PostgresConfig := {}
  let port ← env.number? "PG_PORT" UInt16.size
  let poolSize ← env.number? "PG_POOL_SIZE" UInt32.size
  let timeoutSeconds ← env.number? "PG_TIMEOUT_SECONDS" UInt64.size
  return { host := env.textOr "PG_HOST" d.host
           port := (port.map Nat.toUInt16).getD d.port
           database := env.textOr "PG_DATABASE" d.database
           username := env.textOr "PG_USERNAME" d.username
           password := env.textOr "PG_PASSWORD" d.password
           poolSize := (poolSize.map Nat.toUInt32).getD d.poolSize
           timeoutSeconds := (timeoutSeconds.map Nat.toUInt64).getD d.timeoutSeconds }

/-- The settings that the variables give. -/
def Config.ofEnvironment (env : Environment) : Except VariableError Config := do
  let d : Config := {}
  let bindId ← env.read? "AUTHZ_BIND_ID" (parseName BindingMode)
  let backend ← env.read? "AUTHZ_STORE_BACKEND" (parseName StoreBackend)
  let postgres ← PostgresConfig.ofEnvironment env
  let timeout ← env.number? "AUTHZ_OPERATION_TIMEOUT_MS" UInt64.size
  let metrics ← env.read? "AUTHZ_METRICS_ENABLED" parseTruthValue
  return { mapping := ⟨bindId.getD d.mapping.bindId⟩
           store := ⟨backend.getD d.store.backend, postgres⟩
           engine := ⟨timeout.map Nat.toUInt64⟩
           observability :=
             ⟨metrics.getD d.observability.metricsEnabled,
               env.textOr "AUTHZ_LOGGING_LEVEL" d.observability.loggingLevel⟩ }

end RepoAccess
