/-
Kinds of permission, what binds a promise to a user, and where access comes from.

* `Permission` — to read or to write.
* `ResourceKind` — what a permission is about; repositories only.
* `BindingMode` — which fact about a user claims the promises made to an alias.
* `Source` — a reason why a user has access. Access lasts while one reason does, and each writer
  replaces only its own.
-/
import RepoAccess.Named
import RepoAccess.Principal

namespace RepoAccess

open Std

/-- What a user may do with a repository. -/
inductive Permission where
  | read
  | write
deriving DecidableEq, Repr, Inhabited

instance : Named Permission where
  all := [.read, .write]
  name
    | .read => "read"
    | .write => "write"

/-- Reading comes before writing. -/
def Permission.rank : Permission → Nat
  | .read => 0
  | .write => 1

instance : Ord Permission := ⟨compareOn Permission.rank⟩

instance : TransOrd Permission := inferInstanceAs (TransCmp (compareOn Permission.rank))

instance : LawfulEqOrd Permission :=
  lawfulEqOn (f := Permission.rank) fun a b h => by
    cases a <;> cases b <;> simp_all [Permission.rank]

/-- What a permission is about. -/
inductive ResourceKind where
  | repos
deriving DecidableEq, Repr, Inhabited

instance : Named ResourceKind where
  all := [.repos]
  name
    | .repos => "repos"

/-- Which fact about a user claims the promises made to an alias. -/
inductive BindingMode where
  /-- A verified e-mail address. -/
  | email
  /-- The user name. -/
  | username
  /-- A linked account. -/
  | unset
deriving DecidableEq, Repr

instance : Inhabited BindingMode := ⟨.unset⟩

instance : Named BindingMode where
  all := [.email, .username, .unset]
  name
    | .email => "email"
    | .username => "username"
    | .unset => "unset"

/-- A reason why a user has access to a repository. -/
inductive Source where
  /-- The repository's list of users says so. -/
  | repoSync
  /-- A promise to one of the user's aliases was claimed. -/
  | grant
  /-- A linked account brings it. -/
  | account (id : AccountId)
deriving DecidableEq, Repr, Inhabited

/-- The kind of a source, and the account in it. -/
def Source.rank : Source → Nat
  | .repoSync => 0
  | .grant => 1
  | .account _ => 2

/-- The account of a source; zero where there is none. -/
def Source.accountId : Source → AccountId
  | .account id => id
  | _ => ⟨0⟩

/-- Sources are ordered by kind, accounts by number. -/
def Source.order : Source → Source → Ordering :=
  compareLex (compareOn rank) (compareOn accountId)

instance : Ord Source := ⟨Source.order⟩

instance : TransOrd Source := inferInstanceAs (TransCmp (compareLex (compareOn Source.rank) _))

instance : LawfulEqOrd Source :=
  lawfulEqLex fun a b hRank hAccount => by
    have hAccount := compareOn_eq_iff.1 hAccount
    cases a <;> cases b <;> simp_all [Source.rank, Source.accountId]

/-- The reasons for one user's access to one repository. -/
abbrev SourceSet := ExtTreeSet Source

end RepoAccess
