/-
Records of who holds what.

* `UserHoldings` — the repositories a user may access, and `RepoHolders` — the users who may access
  a repository: the same fact from both sides.
* `PendingHoldings` — the repositories promised to an alias, and `PendingHolders` — the aliases of
  one provider to whom a repository is promised: again one fact from both sides.
* `Overlay` — the path rules that restrict a user inside one repository.
* `ReplaceDiff`, `GrantOutcome` — what a write did.

A record without members is not the same as no record.
-/
import RepoAccess.Permission
import RepoAccess.Timestamp

namespace RepoAccess

open Std

/-- Names, in ascending order of their characters. -/
abbrev NameSet := ExtTreeSet String

/-- The repositories a user may access. -/
structure UserHoldings where
  user : UserId
  perm : Permission
  resource : ResourceKind := .repos
  repos : RepoSet := ∅
  updatedAt : Timestamp
  syncedAt : Option Timestamp := none
deriving DecidableEq

/-- The users who may access a repository. -/
structure RepoHolders where
  repo : RepoId
  perm : Permission
  users : UserSet := ∅
  updatedAt : Timestamp
  syncedAt : Option Timestamp := none
deriving DecidableEq

/-- The repositories promised to an alias. -/
structure PendingHoldings where
  holder : Alias
  perm : Permission
  resource : ResourceKind := .repos
  repos : RepoSet := ∅
  updatedAt : Timestamp
deriving DecidableEq

/-- The aliases of one provider to whom a repository is promised. -/
structure PendingHolders where
  repo : RepoId
  perm : Permission
  provider : Provider
  bindIds : NameSet := ∅
  updatedAt : Timestamp
deriving DecidableEq

/-- The path rules that restrict a user inside one repository, in the order they are tried. -/
structure Overlay where
  paths : List String
deriving DecidableEq, Repr, Inhabited

/-- What replacing a set did: how many members appeared and disappeared, and whether there was a
record before. -/
structure ReplaceDiff where
  added : Nat := 0
  removed : Nat := 0
  found : Bool := false
deriving DecidableEq, Repr, Inhabited

/-- What claiming promises did. -/
structure GrantOutcome where
  mode : BindingMode
  /-- Aliases that were looked up. -/
  candidates : Nat
  /-- Candidates to whom something was promised. -/
  matched : Nat := 0
  /-- Repositories that were promised to them. -/
  granted : Nat := 0
  /-- Repositories the user could not access before. -/
  added : Nat := 0
deriving DecidableEq, Repr

end RepoAccess
