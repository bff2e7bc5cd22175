/-
Bounds on settings.

* `Violation` — a field whose value is out of bounds.
* `Config.violations` — all of them, by field in alphabetical order.
* `Config.isValid` — there are none.

Texts are measured in characters. The bounds hold whether or not a field is used.
-/
import RepoAccess.Config.Basic

namespace RepoAccess

/-- What is wrong with a value. -/
inductive Violation.Cause where
  | range (low high value : Nat)
  /-- A text is too short or too long. -/
  | length (low high : Nat) (value : String)
  | unknownLevel (value : String)
deriving DecidableEq, Repr

/-- A field whose value is out of bounds. -/
structure Violation where
  /-- The names of the parts that lead to the field, with points between them. -/
  field : String
  cause : Violation.Cause
deriving DecidableEq, Repr

/-- The name of what is wrong. -/
def Violation.Cause.code : Violation.Cause → String
  | .range _ _ _ => "range"
  | .length _ _ _ => "length"
  | .unknownLevel _ => "Invalid logging level"

/-- A number must be within bounds. -/
def checkRange (field : String) (low high value : Nat) : List Violation :=
  if low ≤ value ∧ value ≤ high then [] else [⟨field, .range low high value⟩]

/-- A text must have a length within bounds. -/
def checkLength (field : String) (low high : Nat) (value : String) : List Violation :=
  if low ≤ value.length ∧ value.length ≤ high then [] else [⟨field, .length low high value⟩]

/-- The levels of messages, the most talkative first. -/
def loggingLevels : List String := ["trace", "debug", "info", "warn", "error"]

/-- A level must be known. -/
def checkLevel (field value : String) : List Violation :=
  if loggingLevels.contains value then [] else [⟨field, .unknownLevel value⟩]

/-- A time limit must be within bounds if it is set. -/
def EngineConfig.violations (c : EngineConfig) : List Violation :=
  match c.operationTimeoutMs with
  | some ms => checkRange "engine.operation_timeout_ms" 1 600000 ms.toNat
  | none => []

/-- The fields of a connection that are out of bounds. -/
def PostgresConfig.violations (c : PostgresConfig) : List Violation :=
  checkLength "store.postgres.database" 1 63 c.database ++
  checkLength "store.postgres.host" 1 255 c.host ++
  checkRange "store.postgres.pool_size" 1 100 c.poolSize.toNat ++
  checkRange "store.postgres.port" 1 65535 c.port.toNat ++
  checkRange "store.postgres.timeout_seconds" 1 300 c.timeoutSeconds.toNat ++
  checkLength "store.postgres.username" 1 63 c.username

/-- The fields that are out of bounds. -/
def Config.violations (c : Config) : List Violation :=
  c.engine.violations ++ checkLevel "observability.logging_level" c.observability.loggingLevel ++
    c.store.postgres.violations

/-- All fields are within bounds. -/
def Config.isValid (c : Config) : Bool := c.violations.isEmpty

end RepoAccess
