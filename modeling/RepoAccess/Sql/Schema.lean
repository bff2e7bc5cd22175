/-
The schema of the database.

* `Schema.statements` — what creates the tables and indexes that are missing, in order.
-/
import RepoAccess.Sql.Statement

namespace RepoAccess.Schema

/-- A statement that creates a table unless it is there. -/
def table (table : Table) (columns : List String) : Statement :=
  ⟨.define, sqlText ["CREATE TABLE IF NOT EXISTS", name table, "(", ", ".intercalate columns, ")"],
    []⟩

/-- A statement that creates an index unless it is there. -/
def index (title : String) (table : Table) (columns : String) : Statement :=
  ⟨.define, sqlText ["CREATE INDEX IF NOT EXISTS", title, "ON", name table, columns], []⟩

/-- What creates the tables and indexes that are missing. -/
def statements : List Statement :=
  [table .users
      ["user_id INTEGER NOT NULL", "permission TEXT NOT NULL", "object_type TEXT NOT NULL",
        "object_ids INTEGER[] NOT NULL DEFAULT '\x7b\x7d'", "updated_at TIMESTAMPTZ NOT NULL",
        "synced_at TIMESTAMPTZ", "PRIMARY KEY (user_id, permission, object_type)"],
    table .repos
      ["repo_id INTEGER NOT NULL", "permission TEXT NOT NULL",
        "user_ids INTEGER[] NOT NULL DEFAULT '\x7b\x7d'", "updated_at TIMESTAMPTZ NOT NULL",
        "synced_at TIMESTAMPTZ", "PRIMARY KEY (repo_id, permission)"],
    index "idx_repo_permissions_user_ids" .repos "USING GIN (user_ids)",
    table .pending
      ["service_type TEXT NOT NULL", "service_id TEXT NOT NULL", "bind_id TEXT NOT NULL",
        "permission TEXT NOT NULL", "object_type TEXT NOT NULL",
        "object_ids INTEGER[] NOT NULL DEFAULT '\x7b\x7d'", "updated_at TIMESTAMPTZ NOT NULL",
        "PRIMARY KEY (service_type, service_id, bind_id, permission, object_type)"],
    table .invited
      ["repo_id INTEGER NOT NULL", "permission TEXT NOT NULL", "service_type TEXT NOT NULL",
        "service_id TEXT NOT NULL", "bind_ids TEXT[] NOT NULL DEFAULT '\x7b\x7d'",
        "updated_at TIMESTAMPTZ NOT NULL",
        "PRIMARY KEY (repo_id, permission, service_type, service_id)"],
    table .sources
      ["user_id INTEGER NOT NULL", "repo_id INTEGER NOT NULL", "permission TEXT NOT NULL",
        "source TEXT NOT NULL", "external_account_id INTEGER NOT NULL DEFAULT 0",
        "updated_at TIMESTAMPTZ NOT NULL",
        "PRIMARY KEY (user_id, repo_id, permission, source, external_account_id)"],
    index "idx_user_repo_permissions_repo" .sources "(repo_id, permission)",
    table .overlays
      ["user_id INTEGER NOT NULL", "repo_id INTEGER NOT NULL", "paths TEXT[] NOT NULL",
        "updated_at TIMESTAMPTZ NOT NULL", "PRIMARY KEY (user_id, repo_id)"]]

end RepoAccess.Schema
