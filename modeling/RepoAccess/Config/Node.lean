/-
Settings from a document of any format.

* `SettingsNode` — what settings ask of a node of a document.
* `Config.ofNode` — the settings that a document holds.

Sections and fields that are left out keep their defaults, and those nobody knows are passed over.
-/
import RepoAccess.Config.Basic

namespace RepoAccess

/-- What settings ask of a node of a document. -/
class SettingsNode (ν : Type) where
  /-- The fields of those names that a section gives, each at most once. -/
  fields? : List String → ν → Option (List (String × ν))
  text? : ν → Option String
  /-- A number from zero on, below a bound. -/
  number? : Nat → ν → Option Nat
  truthValue? : ν → Option Bool
  /-- The name of an alternative. -/
  choice? : ν → Option String
  /-- The node of an optional field, unless it says that the field has no value. -/
  optional? : ν → Option (Option ν)

open SettingsNode

variable {ν : Type} [SettingsNode ν]

/-- The value of a field, or its default if the section does not give it. -/
def fieldOr {α : Type} (fields : List (String × ν)) (key : String) (read : ν → Option α)
    (default : α) : Option α :=
  match fields.lookup key with
  | some node => read node
  | none => some default

/-- The alternative that a node names. -/
def choose? (α : Type) [Named α] (node : ν) : Option α :=
  (choice? node).bind Named.ofName?

/-- How promises are bound, from a section. -/
def MappingConfig.ofNode (node : ν) : Option MappingConfig := do
  let fields ← fields? ["bind_id"] node
  return ⟨← fieldOr fields "bind_id" (choose? BindingMode) .unset⟩

/-- The connection to a database, from a section. -/
def PostgresConfig.ofNode (node : ν) : Option PostgresConfig := do
  let fields ← fields?
    ["host", "port", "database", "username", "password", "pool_size", "timeout_seconds"] node
  let d : PostgresConfig := {}
  let port ← fieldOr fields "port" (number? UInt16.size) d.port.toNat
  let poolSize ← fieldOr fields "pool_size" (number? UInt32.size) d.poolSize.toNat
  let timeoutSeconds ← fieldOr fields "timeout_seconds" (number? UInt64.size) d.timeoutSeconds.toNat
  return { host := ← fieldOr fields "host" text? d.host
           port := port.toUInt16
           database := ← fieldOr fields "database" text? d.database
           username := ← fieldOr fields "username" text? d.username
           password := ← fieldOr fields "password" text? d.password
           poolSize := poolSize.toUInt32
           timeoutSeconds := timeoutSeconds.toUInt64 }

/-- The store, from a section. -/
def StoreConfig.ofNode (node : ν) : Option StoreConfig := do
  let fields ← fields? ["backend", "postgres"] node
  return ⟨← fieldOr fields "backend" (choose? StoreBackend) .memory,
    ← fieldOr fields "postgres" PostgresConfig.ofNode {}⟩

/-- A time limit, or none. -/
def timeLimit? (node : ν) : Option (Option UInt64) := do
  (← optional? node).mapM fun node => Nat.toUInt64 <$> number? UInt64.size node

/-- The limits of the engine, from a section. -/
def EngineConfig.ofNode (node : ν) : Option EngineConfig := do
  let fields ← fields? ["operation_timeout_ms"] node
  return ⟨← fieldOr fields "operation_timeout_ms" timeLimit? none⟩

/-- What is observed, from a section. -/
def ObservabilityConfig.ofNode (node : ν) : Option ObservabilityConfig := do
  let fields ← fields? ["metrics_enabled", "logging_level"] node
  let d : ObservabilityConfig := {}
  return ⟨← fieldOr fields "metrics_enabled" truthValue? d.metricsEnabled,
    ← fieldOr fields "logging_level" text? d.loggingLevel⟩

/-- The settings that a document holds. -/
def Config.ofNode (node : ν) : Option Config := do
  let fields ← fields? ["permissions_user_mapping", "store", "engine", "observability"] node
  return { mapping := ← fieldOr fields "permissions_user_mapping" MappingConfig.ofNode {}
           store := ← fieldOr fields "store" StoreConfig.ofNode {}
           engine := ← fieldOr fields "engine" EngineConfig.ofNode {}
           observability := ← fieldOr fields "observability" ObservabilityConfig.ofNode {} }

end RepoAccess
