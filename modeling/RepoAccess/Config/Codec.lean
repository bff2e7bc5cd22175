/-
Settings as JSON.

One `JsonCodec` for each part of `Config`. Every field may be left out and takes its default then.
-/
import RepoAccess.Config.Basic
import RepoAccess.Json.Model

namespace RepoAccess

instance : JsonCodec StoreBackend := Named.jsonCodec

instance : JsonCodec MappingConfig where
  toJson c := .object [("bind_id", toJson c.bindId)]
  ofJson? j := do
    let r ← j.record? ["bind_id"]
    return ⟨← r.orDefault "bind_id" default⟩

instance : JsonCodec PostgresConfig where
  toJson c := .object [("host", toJson c.host), ("port", toJson c.port),
    ("database", toJson c.database), ("username", toJson c.username),
    ("password", toJson c.password), ("pool_size", toJson c.poolSize),
    ("timeout_seconds", toJson c.timeoutSeconds)]
  ofJson? j := do
    let r ← j.record? ["host", "port", "database", "username", "password", "pool_size",
      "timeout_seconds"]
    let d : PostgresConfig := {}
    return ⟨← r.orDefault "host" d.host, ← r.orDefault "port" d.port,
      ← r.orDefault "database" d.database, ← r.orDefault "username" d.username,
      ← r.orDefault "password" d.password, ← r.orDefault "pool_size" d.poolSize,
      ← r.orDefault "timeout_seconds" d.timeoutSeconds⟩

instance : JsonCodec StoreConfig where
  toJson c := .object [("backend", toJson c.backend), ("postgres", toJson c.postgres)]
  ofJson? j := do
    let r ← j.record? ["backend", "postgres"]
    return ⟨← r.orDefault "backend" default, ← r.orDefault "postgres" {}⟩

instance : JsonCodec EngineConfig where
  toJson c := .object [("operation_timeout_ms", toJson c.operationTimeoutMs)]
  ofJson? j := do
    let r ← j.record? ["operation_timeout_ms"]
    return ⟨← r.orDefault "operation_timeout_ms" none⟩

instance : JsonCodec ObservabilityConfig where
  toJson c := .object [("metrics_enabled", toJson c.metricsEnabled),
    ("logging_level", toJson c.loggingLevel)]
  ofJson? j := do
    let r ← j.record? ["metrics_enabled", "logging_level"]
    let d : ObservabilityConfig := {}
    return ⟨← r.orDefault "metrics_enabled" d.metricsEnabled,
      ← r.orDefault "logging_level" d.loggingLevel⟩

instance : JsonCodec Config where
  toJson c := .object [("permissions_user_mapping", toJson c.mapping), ("store", toJson c.store),
    ("engine", toJson c.engine), ("observability", toJson c.observability)]
  ofJson? j := do
    let r ← j.record? ["permissions_user_mapping", "store", "engine", "observability"]
    return ⟨← r.orDefault "permissions_user_mapping" {}, ← r.orDefault "store" {},
      ← r.orDefault "engine" {}, ← r.orDefault "observability" {}⟩

end RepoAccess
