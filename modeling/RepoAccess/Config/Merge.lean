/-
Layers of settings.

* `FieldRule.merge` — a field that a layer gives anew replaces the one below, and a line tells so.
* `Config.merge` — all fields one after another, with the lines of those that were replaced.
* `mergeLayers` — all layers from the lowest to the highest, with a notice for each one that changed
  something.

A layer does not know which of its fields were given, so a field counts as given if it differs from
its default. Notices show every value but the password.
-/
import RepoAccess.Config.Basic
import RepoAccess.Notice

namespace RepoAccess

/-! ### One field -/

/-- How a field is merged: its name, how a value is shown, and the values that count as given. -/
structure FieldRule (α : Type) where
  field : String
  shown : α → String
  gives : α → Bool

/-- A field that is given by differing from its default. -/
def FieldRule.of {α : Type} [DecidableEq α] (default : α) (field : String) (shown : α → String) :
    FieldRule α where
  field
  shown
  gives value := value ≠ default

/-- Lays a layer's value of a field over the one below. Where the layer gives another value, that
one replaces it and a line is added to those of the fields before; else nothing happens. -/
def FieldRule.merge {α : Type} [DecidableEq α] (rule : FieldRule α) (below layer : α) :
    StateM (List String) α := do
  if rule.gives layer && layer ≠ below then
    modify (· ++ [rule.field ++ " = " ++ rule.shown layer])
    return layer
  else
    return below

/-! ### One layer over another -/

/-- What is shown of a password. -/
def hidden (_ : String) : String := "***"

def MappingConfig.merge (below layer : MappingConfig) : StateM (List String) MappingConfig := do
  let d : MappingConfig := {}
  let bindId ← (FieldRule.of d.bindId "permissions_user_mapping.bind_id" name).merge
    below.bindId layer.bindId
  return { bindId }

def PostgresConfig.merge (below layer : PostgresConfig) :
    StateM (List String) PostgresConfig := do
  let d : PostgresConfig := {}
  let host ← (FieldRule.of d.host "store.postgres.host" id).merge below.host layer.host
  let port ← (FieldRule.of d.port "store.postgres.port" toString).merge below.port layer.port
  let database ← (FieldRule.of d.database "store.postgres.database" id).merge
    below.database layer.database
  let username ← (FieldRule.of d.username "store.postgres.username" id).merge
    below.username layer.username
  -- The empty password is no password, whatever the default is.
  let password ← FieldRule.merge ⟨"store.postgres.password", hidden, fun p => !p.isEmpty⟩
    below.password layer.password
  let poolSize ← (FieldRule.of d.poolSize "store.postgres.pool_size" toString).merge
    below.poolSize layer.poolSize
  let timeoutSeconds ← (FieldRule.of d.timeoutSeconds "store.postgres.timeout_seconds"
    toString).merge below.timeoutSeconds layer.timeoutSeconds
  return { host, port, database, username, password, poolSize, timeoutSeconds }

def StoreConfig.merge (below layer : StoreConfig) : StateM (List String) StoreConfig := do
  let d : StoreConfig := {}
  let backend ← (FieldRule.of d.backend "store.backend" name).merge below.backend layer.backend
  let postgres ← below.postgres.merge layer.postgres
  return { backend, postgres }

def EngineConfig.merge (below layer : EngineConfig) : StateM (List String) EngineConfig := do
  let shown (limit : Option UInt64) : String := toString (limit.getD 0)
  let operationTimeoutMs ← FieldRule.merge ⟨"engine.operation_timeout_ms", shown, (·.isSome)⟩
    below.operationTimeoutMs layer.operationTimeoutMs
  return { operationTimeoutMs }

def ObservabilityConfig.merge (below layer : ObservabilityConfig) :
    StateM (List String) ObservabilityConfig := do
  let d : ObservabilityConfig := {}
  let metricsEnabled ← (FieldRule.of d.metricsEnabled "observability.metrics_enabled"
    toString).merge below.metricsEnabled layer.metricsEnabled
  let loggingLevel ← (FieldRule.of d.loggingLevel "observability.logging_level" id).merge
    below.loggingLevel layer.loggingLevel
  return { metricsEnabled, loggingLevel }

/-- Lays a layer over settings, field by field. -/
def Config.merge (below layer : Config) : StateM (List String) Config := do
  let mapping ← below.mapping.merge layer.mapping
  let store ← below.store.merge layer.store
  let engine ← below.engine.merge layer.engine
  let observability ← below.observability.merge layer.observability
  return { mapping, store, engine, observability }

/-- Settings with those of a higher layer laid over them. -/
def Config.overlay (below layer : Config) : Config := ((below.merge layer).run []).1

/-! ### All layers -/

/-- Lays a named layer over settings; a notice tells what it changed, if it changed something. -/
def addLayer (progress : Config × List Notice) (layer : String × Config) : Config × List Notice :=
  let (below, notices) := progress
  let (merged, changes) := (below.merge layer.2).run []
  (merged, if changes.isEmpty then notices else notices ++ [.configured layer.1 changes])

/-- The settings of all layers, the highest last. -/
def mergeLayers (lowest : Config) (layers : List (String × Config)) : Config × List Notice :=
  layers.foldl addLayer (lowest, [])

end RepoAccess
