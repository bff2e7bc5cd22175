/-
Opening a permission store.

* `loginOf`, `Server.reach` — the login of the settings of a database, and a connection with it.
* `Server.prepare` — creates what is missing of the schema.
* `openStore` — opens the store that the settings name, ready for use.
-/
import RepoAccess.Config.Basic
import RepoAccess.Engine.Basic
import RepoAccess.Sql.Login
import RepoAccess.Sql.Schema
import RepoAccess.Sql.Server

namespace RepoAccess

/-- The login of the settings of a database, whose URL must be readable. -/
def loginOf {σ : Type} (config : PostgresConfig) : Action σ Login :=
  Action.ofExcept ((Login.ofUrl config.url).mapError .database)

namespace Server

variable {σ : Type}

/-- What the server answers, as an operation over its state. -/
def action {α : Type} (ask : σ → Except DatabaseError α × σ) : Action σ α :=
  ExceptT.mk fun (s, journal) =>
    let (result, s) := ask s
    (result.mapError fun e => .failed (.database e), (s, journal))

/-- Connects with the settings of a database. Where no connection is kept, or there is no time to wait
for one, none is made. -/
def reach (server : Server σ) (config : PostgresConfig) : Action σ Unit := do
  let _ ← loginOf config
  if config.poolSize = 0 ∨ config.timeoutSeconds = 0 then
    Action.ofExcept (.error (.database .poolTimedOut))
  else action server.connect

/-- Creates the tables and indexes that are missing, each on its own. -/
def prepare (server : Server σ) : Action σ Unit := do
  Schema.statements.forM fun statement => do
    let _ ← action (server.send (.run statement))
  Action.note .schemaReady

end Server

/-- Opens the store that the settings name. -/
def openStore {σ : Type} (server : Server σ) (config : StoreConfig) : Action σ Unit :=
  match config.backend with
  | .memory => Action.note .memoryStoreUsed
  | .postgres => do
    server.reach config.postgres
    server.prepare
    Action.note (.postgresStoreUsed config.postgres.host config.postgres.database)

end RepoAccess
