/-
Records as rows of the database.

* `UserHoldings.toRow`, `RepoHolders.toRow`, `PendingHoldings.toRow`, `PendingHolders.toRow` — the
  columns of a record, in the order in which they are saved.
* `UserHoldings.ofRow`, `RepoHolders.ofRow`, `PendingHoldings.ofRow`, `PendingHolders.ofRow` — the
  record of a row that was loaded.
* `Source.kindName`, `Source.ofColumns` — a source as its kind and its account.
* `sourcesOfRows`, `overlaysOfRows` — maps from the rows of many.

A row of a repository is loaded by its key and leaves the key out. A name that nobody knows makes
the load fail; it is never taken for another.
-/
import RepoAccess.Sql.Value

namespace RepoAccess

open Std

/-- The name of the store in messages. -/
def postgresName : String := "postgres"

/-- The value of a name that was read from a column. -/
def parseColumn (α : Type) [Named α] (text : String) : Except AccessError α :=
  match Named.ofName? text with
  | some a => .ok a
  | none => .error (.query postgresName (text ++ ": " ++ Named.unknownName))

/-! ### Users and repositories -/

/-- The columns of a user's row. -/
def UserHoldings.toRow (h : UserHoldings) : Row :=
  [("user_id", toSql h.user), ("permission", toSql (name h.perm)),
    ("object_type", toSql (name h.resource)), ("object_ids", toSql h.repos),
    ("updated_at", toSql h.updatedAt), ("synced_at", toSql h.syncedAt)]

/-- The user's row of these columns. -/
def UserHoldings.ofRow (row : Row) : Except AccessError UserHoldings := do
  let perm ← row.read String "permission"
  let resource ← row.read String "object_type"
  return { user := ← row.read UserId "user_id", perm := ← parseColumn Permission perm,
           resource := ← parseColumn ResourceKind resource,
           repos := ← row.read RepoSet "object_ids",
           updatedAt := ← row.read Timestamp "updated_at",
           syncedAt := ← row.read (Option Timestamp) "synced_at" }

/-- The columns of a repository's row. -/
def RepoHolders.toRow (h : RepoHolders) : Row :=
  [("repo_id", toSql h.repo), ("permission", toSql (name h.perm)), ("user_ids", toSql h.users),
    ("updated_at", toSql h.updatedAt), ("synced_at", toSql h.syncedAt)]

/-- The repository's row with that key and these columns. -/
def RepoHolders.ofRow (repo : RepoId) (perm : Permission) (row : Row) :
    Except AccessError RepoHolders := do
  return { repo, perm, users := ← row.read UserSet "user_ids",
           updatedAt := ← row.read Timestamp "updated_at",
           syncedAt := ← row.read (Option Timestamp) "synced_at" }

/-! ### Promises -/

/-- The columns of an alias. -/
def Alias.toRow (a : Alias) : Row :=
  [("service_type", toSql a.provider.serviceType), ("service_id", toSql a.provider.serviceId),
    ("bind_id", toSql a.bindId)]

/-- The alias of these columns. -/
def Alias.ofRow (row : Row) : Except AccessError Alias := do
  return ⟨⟨← row.read String "service_type", ← row.read String "service_id"⟩,
    ← row.read String "bind_id"⟩

/-- The columns of an alias's row. -/
def PendingHoldings.toRow (h : PendingHoldings) : Row :=
  h.holder.toRow ++
    [("permission", toSql (name h.perm)), ("object_type", toSql (name h.resource)),
      ("object_ids", toSql h.repos), ("updated_at", toSql h.updatedAt)]

/-- The alias's row of these columns. -/
def PendingHoldings.ofRow (row : Row) : Except AccessError PendingHoldings := do
  let perm ← row.read String "permission"
  let resource ← row.read String "object_type"
  return { holder := ← Alias.ofRow row, perm := ← parseColumn Permission perm,
           resource := ← parseColumn ResourceKind resource,
           repos := ← row.read RepoSet "object_ids",
           updatedAt := ← row.read Timestamp "updated_at" }

/-- The columns of a repository's row of aliases. -/
def PendingHolders.toRow (h : PendingHolders) : Row :=
  [("repo_id", toSql h.repo), ("permission", toSql (name h.perm)),
    ("service_type", toSql h.provider.serviceType), ("service_id", toSql h.provider.serviceId),
    ("bind_ids", toSql h.bindIds), ("updated_at", toSql h.updatedAt)]

/-- The repository's row of aliases with that key and these columns. -/
def PendingHolders.ofRow (repo : RepoId) (perm : Permission) (provider : Provider) (row : Row) :
    Except AccessError PendingHolders := do
  return { repo, perm, provider, bindIds := ← row.read NameSet "bind_ids",
           updatedAt := ← row.read Timestamp "updated_at" }

/-! ### Sources -/

/-- The name of a source's kind; the account stands in a column of its own. -/
def Source.kindName : Source → String
  | .repoSync => "repo_sync"
  | .grant => "grant"
  | .account _ => "external_account"

/-- The source of a kind with an account, which counts only where the kind has one. -/
def Source.ofColumns (kind : String) (account : AccountId) : Except AccessError Source :=
  match kind with
  | "repo_sync" => .ok .repoSync
  | "grant" => .ok .grant
  | "external_account" => .ok (.account account)
  | _ => .error (.query postgresName ("unknown permission source: " ++ kind))

/-- The columns of one reason for one user's access. -/
def Source.toRow (user : UserId) (perm : Permission) (repo : RepoId) (source : Source) : Row :=
  [("user_id", toSql user), ("repo_id", toSql repo), ("permission", toSql (name perm)),
    ("source", toSql source.kindName), ("external_account_id", toSql source.accountId)]

/-- Whose access a row explains, and the columns of the reason; they are known by their places. -/
def readReason (α : Type) [SqlCodec α] (column : String) (row : Row) :
    Except AccessError (α × String × AccountId) := do
  return (← row.readAs α column (.at 0), ← row.readAs String "source" (.at 1),
    ← row.readAs AccountId "external_account_id" (.at 2))

/-- The reasons of all rows, by what the given column holds. -/
def sourcesOfRows (α : Type) [SqlCodec α] [Ord α] [TransOrd α] (column : String) (rows : List Row) :
    Except AccessError (ExtTreeMap α SourceSet) := do
  (← rows.mapM (readReason α column)).foldlM
    (fun sources (key, kind, account) => do
      let source ← Source.ofColumns kind account
      return sources.insert key ((sources.getD key ∅).insert source))
    ∅

/-! ### Overlays -/

/-- The columns of an overlay. -/
def Overlay.toRow (user : UserId) (repo : RepoId) (overlay : Overlay) : Row :=
  [("user_id", toSql user), ("repo_id", toSql repo), ("paths", toSql overlay.paths)]

/-- A repository and its overlay; the columns are known by their places. -/
def Overlay.ofRow (row : Row) : Except AccessError (RepoId × Overlay) := do
  return (← row.readAs RepoId "repo_id" (.at 0), ⟨← row.readAs (List String) "paths" (.at 1)⟩)

/-- The overlays of all rows by repository; of two for one repository the last counts. -/
def overlaysOfRows (rows : List Row) : Except AccessError (ExtTreeMap RepoId Overlay) := do
  return .ofList (← rows.mapM Overlay.ofRow)

end RepoAccess
