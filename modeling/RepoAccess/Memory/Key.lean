/-
Keys of the tables in memory.

Each key is a record of the fields that name a row, ordered field by field in the order in which
they stand.
-/
import RepoAccess.Permission

namespace RepoAccess

open Std

/-- A user's row. -/
structure UserKey where
  user : UserId
  perm : Permission
deriving DecidableEq, Repr

/-- A repository's row. -/
structure RepoKey where
  repo : RepoId
  perm : Permission
deriving DecidableEq, Repr

/-- An alias's row. -/
structure PendingKey where
  holder : Alias
  perm : Permission
deriving DecidableEq, Repr

/-- A repository's row of aliases of one provider. -/
structure InvitedKey where
  repo : RepoId
  perm : Permission
  provider : Provider
deriving DecidableEq, Repr

/-- The reasons for one user's access to one repository. -/
structure SourceKey where
  user : UserId
  perm : Permission
  repo : RepoId
deriving DecidableEq, Repr

/-- A user's path rules in one repository. -/
structure OverlayKey where
  user : UserId
  repo : RepoId
deriving DecidableEq, Repr

/-! ### Orders -/

/-- Keys of users' rows are ordered by user, then by permission. -/
def UserKey.order : UserKey → UserKey → Ordering :=
  compareLex (compareOn user) (compareOn perm)

instance : Ord UserKey := ⟨UserKey.order⟩

instance : TransOrd UserKey := inferInstanceAs (TransCmp (compareLex (compareOn UserKey.user) _))

instance : LawfulEqOrd UserKey :=
  lawfulEqLex fun a b hUser hPerm => by
    cases a; cases b; cases hUser; cases compareOn_eq_iff.1 hPerm; rfl

/-- Keys of repositories' rows are ordered by repository, then by permission. -/
def RepoKey.order : RepoKey → RepoKey → Ordering :=
  compareLex (compareOn repo) (compareOn perm)

instance : Ord RepoKey := ⟨RepoKey.order⟩

instance : TransOrd RepoKey := inferInstanceAs (TransCmp (compareLex (compareOn RepoKey.repo) _))

instance : LawfulEqOrd RepoKey :=
  lawfulEqLex fun a b hRepo hPerm => by
    cases a; cases b; cases hRepo; cases compareOn_eq_iff.1 hPerm; rfl

/-- Keys of aliases' rows are ordered by alias, then by permission. -/
def PendingKey.order : PendingKey → PendingKey → Ordering :=
  compareLex (compareOn holder) (compareOn perm)

instance : Ord PendingKey := ⟨PendingKey.order⟩

instance : TransOrd PendingKey :=
  inferInstanceAs (TransCmp (compareLex (compareOn PendingKey.holder) _))

instance : LawfulEqOrd PendingKey :=
  lawfulEqLex fun a b hHolder hPerm => by
    cases a; cases b; cases hHolder; cases compareOn_eq_iff.1 hPerm; rfl

/-- Keys of repositories' rows of aliases are ordered by repository, permission and provider. -/
def InvitedKey.order : InvitedKey → InvitedKey → Ordering :=
  compareLex (compareOn repo) (compareLex (compareOn perm) (compareOn provider))

instance : Ord InvitedKey := ⟨InvitedKey.order⟩

instance : TransOrd InvitedKey :=
  inferInstanceAs (TransCmp (compareLex (compareOn InvitedKey.repo) (compareLex _ _)))

instance : LawfulEqOrd InvitedKey :=
  lawfulEqLex fun a b hRepo hRest => by
    obtain ⟨hPerm, hProvider⟩ := compareLex_eq_eq.1 hRest
    cases a; cases b; cases hRepo
    cases compareOn_eq_iff.1 hPerm; cases compareOn_eq_iff.1 hProvider; rfl

/-- Keys of reasons are ordered by user, permission and repository. -/
def SourceKey.order : SourceKey → SourceKey → Ordering :=
  compareLex (compareOn user) (compareLex (compareOn perm) (compareOn repo))

instance : Ord SourceKey := ⟨SourceKey.order⟩

instance : TransOrd SourceKey :=
  inferInstanceAs (TransCmp (compareLex (compareOn SourceKey.user) (compareLex _ _)))

instance : LawfulEqOrd SourceKey :=
  lawfulEqLex fun a b hUser hRest => by
    obtain ⟨hPerm, hRepo⟩ := compareLex_eq_eq.1 hRest
    cases a; cases b; cases hUser
    cases compareOn_eq_iff.1 hPerm; cases compareOn_eq_iff.1 hRepo; rfl

/-- Keys of path rules are ordered by user, then by repository. -/
def OverlayKey.order : OverlayKey → OverlayKey → Ordering :=
  compareLex (compareOn user) (compareOn repo)

instance : Ord OverlayKey := ⟨OverlayKey.order⟩

instance : TransOrd OverlayKey :=
  inferInstanceAs (TransCmp (compareLex (compareOn OverlayKey.user) _))

instance : LawfulEqOrd OverlayKey :=
  lawfulEqLex fun a b hUser hRepo => by
    cases a; cases b; cases hUser; cases compareOn_eq_iff.1 hRepo; rfl

end RepoAccess
