/-
Statements of SQL.

* `Table` — the tables of the schema.
* `StatementKind` — what a statement does, and to which table.
* `Statement` — a statement with its text and parameters.
* `LockKey` — what a lock stands for, with `LockKey.statement` to take it.

A lock lasts until the end of its transaction. Whoever reads a row in order to write it back takes
the lock of its key first, so that two writers of one key come one after the other even if there is
no row yet.
-/
import RepoAccess.Sql.Value

namespace RepoAccess

/-- The tables of the schema. -/
inductive Table where
  | users
  | repos
  | pending
  | invited
  | sources
  | overlays
deriving DecidableEq, Repr

instance : Named Table where
  all := [.users, .repos, .pending, .invited, .sources, .overlays]
  name
    | .users => "user_permissions"
    | .repos => "repo_permissions"
    | .pending => "user_pending_permissions"
    | .invited => "repo_pending_permissions"
    | .sources => "user_repo_permissions"
    | .overlays => "sub_repo_permissions"

/-- What a statement does. -/
inductive StatementKind where
  | define
  | lock
  | select (table : Table)
  | insert (table : Table)
  | update (table : Table)
  | delete (table : Table)
deriving DecidableEq, Repr

/-- A statement; a parameter is referred to in the text by its place, counted from one. -/
structure Statement where
  kind : StatementKind
  text : String
  params : List SqlValue := []
deriving DecidableEq, Repr

/-- A text that is given line by line. -/
def sqlText (lines : List String) : String := " ".intercalate lines

/-! ### Locks -/

/-- What a lock stands for. -/
inductive LockKey where
  | user (user : UserId)
  | repo (repo : RepoId)
  | holder (holder : Alias)
  /-- The aliases to whom a repository is promised. -/
  | invited (repo : RepoId)
deriving DecidableEq, Repr

/-- A lock whose key is a number. -/
def numberLock (space key : Int32) : Statement :=
  ⟨.lock, "SELECT pg_advisory_xact_lock($1, $2)", [toSql space, toSql key]⟩

/-- Takes the lock. Each kind of key has a number space of its own; an alias is hashed into its. -/
def LockKey.statement : LockKey → Statement
  | .user id => numberLock 1 id.val
  | .repo id => numberLock 2 id.val
  | .holder a =>
    ⟨.lock, "SELECT pg_advisory_xact_lock($1, hashtext($2))", [toSql (3 : Int32), toSql a.display]⟩
  | .invited id => numberLock 4 id.val

end RepoAccess
