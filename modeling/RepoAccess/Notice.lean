/-
Notices: what the program tells its operator.

* `Notice` — something worth telling, by what happened.
* `Notice.message`, `Notice.fields` — its wording and the facts that go with it.
-/
import RepoAccess.Holdings
import RepoAccess.Json.Basic
import RepoAccess.Text.Quoted

namespace RepoAccess

/-- Something worth telling. -/
inductive Notice where
  | granted (outcome : GrantOutcome)
  /-- What a revocation deleted: the user's rows, places in repositories' rows, rows of aliases and
  overlays. -/
  | revoked (users repos pending overlays : Nat)
  | memoryStoreUsed
  | postgresStoreUsed (host database : String)
  | schemaReady
  /-- A layer of settings changed something. -/
  | configured (layer : String) (changes : List String)
deriving DecidableEq, Repr

/-- Every notice is informative only. -/
def Notice.level : String := "INFO"

/-- The wording of a notice. -/
def Notice.message : Notice → String
  | .granted _ => "Granted pending permissions"
  | .revoked _ _ _ _ => "Revoked user permissions"
  | .memoryStoreUsed => "Using in-memory permission store"
  | .postgresStoreUsed _ _ => "Using PostgreSQL permission store"
  | .schemaReady => "Permission store schema initialized"
  | .configured layer changes => "Configuration from " ++ layer ++ ": " ++ Text.quotedList changes

/-- The facts that go with a notice. -/
def Notice.fields : Notice → List (String × Json)
  | .granted o =>
    [("candidates", .integer o.candidates), ("matched", .integer o.matched),
      ("granted", .integer o.granted), ("added", .integer o.added)]
  | .revoked users repos pending overlays =>
    [("user_rows", .integer users), ("repo_sets", .integer repos),
      ("pending_rows", .integer pending), ("sub_repo_rows", .integer overlays)]
  | .postgresStoreUsed host database => [("host", .string host), ("database", .string database)]
  | _ => []

end RepoAccess
