/-
Settings.

* `Config` — the binding mode, the store and its database connection, limits of the engine, and what
  is observed. The default of each field stands beside it.
* `PostgresConfig.url` — the connection URL of a database.

Settings come from several layers; every field has a default, so a layer may leave out any of them.
-/
import RepoAccess.Permission

namespace RepoAccess

/-- How promises are bound to users. -/
structure MappingConfig where
  bindId : BindingMode := .unset
deriving DecidableEq, Repr

instance : Inhabited MappingConfig := ⟨{}⟩

/-- Where permissions are kept. -/
inductive StoreBackend where
  | memory
  | postgres
deriving DecidableEq, Repr

instance : Inhabited StoreBackend := ⟨.memory⟩

instance : Named StoreBackend where
  all := [.memory, .postgres]
  name
    | .memory => "memory"
    | .postgres => "postgres"

/-- The connection to a PostgreSQL database. -/
structure PostgresConfig where
  host : String := "localhost"
  port : UInt16 := 5432
  database : String := "authz"
  username : String := "postgres"
  password : String := ""
  /-- Connections kept at most. -/
  poolSize : UInt32 := 10
  /-- Seconds to wait for a connection. -/
  timeoutSeconds : UInt64 := 30
deriving DecidableEq, Repr

instance : Inhabited PostgresConfig := ⟨{}⟩

/-- The connection URL. An empty password is left out, its colon too. -/
def PostgresConfig.url (c : PostgresConfig) : String :=
  "postgres://" ++ c.username ++ (if c.password.isEmpty then "" else ":" ++ c.password) ++ "@" ++
    c.host ++ ":" ++ toString c.port ++ "/" ++ c.database

/-- Milliseconds to wait for a connection. -/
def PostgresConfig.acquireTimeoutMs (c : PostgresConfig) : Nat :=
  c.timeoutSeconds.toNat * 1000

/-- The store. -/
structure StoreConfig where
  backend : StoreBackend := .memory
  postgres : PostgresConfig := {}
deriving DecidableEq, Repr

instance : Inhabited StoreConfig := ⟨{}⟩

/-- Limits of the engine. -/
structure EngineConfig where
  /-- Milliseconds an operation may take; no limit when absent. -/
  operationTimeoutMs : Option UInt64 := none
deriving DecidableEq, Repr

instance : Inhabited EngineConfig := ⟨{}⟩

/-- What is observed. -/
structure ObservabilityConfig where
  metricsEnabled : Bool := true
  loggingLevel : String := "info"
deriving DecidableEq, Repr

instance : Inhabited ObservabilityConfig := ⟨{}⟩

/-- All settings. -/
structure Config where
  mapping : MappingConfig := {}
  store : StoreConfig := {}
  engine : EngineConfig := {}
  observability : ObservabilityConfig := {}
deriving DecidableEq, Repr

instance : Inhabited Config := ⟨{}⟩

end RepoAccess
