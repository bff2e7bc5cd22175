/-
Who and what permissions speak about.

* `UserId`, `RepoId`, `AccountId` — 32-bit numbers that name users, repositories and linked
  accounts.
* `Provider` — the service that an alias belongs to; `Provider.internal` is this system itself.
* `Alias` — a name of somebody at a provider, who need not be a known user yet.
* `AliasGroup` — aliases that share their provider.
* `Account`, `EmailAddress`, `Repo` — a linked account, an e-mail address, a repository by name.

Numbers and texts are ordered as such, records field by field; the orders are lawful, so all of them
can be keys of sorted maps.
-/
import RepoAccess.Order
import Std.Data.ExtTreeSet

namespace RepoAccess

open Std

/-! ### Numbers that name things -/

/-- A user. -/
structure UserId where
  val : Int32
deriving DecidableEq, Repr, Inhabited

/-- A repository. -/
structure RepoId where
  val : Int32
deriving DecidableEq, Repr, Inhabited

/-- A linked account. -/
structure AccountId where
  val : Int32
deriving DecidableEq, Repr, Inhabited

instance : Ord UserId := ⟨compareOn UserId.val⟩
instance : Ord RepoId := ⟨compareOn RepoId.val⟩
instance : Ord AccountId := ⟨compareOn AccountId.val⟩

instance : TransOrd UserId := inferInstanceAs (TransCmp (compareOn UserId.val))
instance : TransOrd RepoId := inferInstanceAs (TransCmp (compareOn RepoId.val))
instance : TransOrd AccountId := inferInstanceAs (TransCmp (compareOn AccountId.val))

instance : LawfulEqOrd UserId :=
  lawfulEqOn (f := UserId.val) fun a b h => by cases a; cases b; exact congrArg _ h

instance : LawfulEqOrd RepoId :=
  lawfulEqOn (f := RepoId.val) fun a b h => by cases a; cases b; exact congrArg _ h

instance : LawfulEqOrd AccountId :=
  lawfulEqOn (f := AccountId.val) fun a b h => by cases a; cases b; exact congrArg _ h

/-- Users, in ascending order. -/
abbrev UserSet := ExtTreeSet UserId

/-- Repositories, in ascending order. -/
abbrev RepoSet := ExtTreeSet RepoId

/-! ### Providers and aliases -/

/-- The service that an alias belongs to. -/
structure Provider where
  serviceType : String
  serviceId : String
deriving DecidableEq, Repr, Inhabited

/-- This system itself: its aliases are e-mail addresses and user names. -/
def Provider.internal : Provider := ⟨"internal", "internal"⟩

/-- Whether the provider is this system itself. -/
def Provider.isInternal (p : Provider) : Bool := p == .internal

/-- Providers are ordered by service type, then by service. -/
def Provider.order : Provider → Provider → Ordering :=
  compareLex (compareOn serviceType) (compareOn serviceId)

instance : Ord Provider := ⟨Provider.order⟩

instance : TransOrd Provider :=
  inferInstanceAs (TransCmp (compareLex (compareOn Provider.serviceType) _))

instance : LawfulEqOrd Provider :=
  lawfulEqLex fun a b hType hId => by
    cases a; cases b; cases hType; cases compareOn_eq_iff.1 hId; rfl

/-- A name of somebody at a provider. -/
structure Alias where
  provider : Provider
  bindId : String
deriving DecidableEq, Repr, Inhabited

/-- An alias of this system itself. -/
def Alias.internal (bindId : String) : Alias := ⟨.internal, bindId⟩

/-- The alias as messages and lock keys show it. -/
def Alias.display (a : Alias) : String :=
  a.provider.serviceType ++ ":" ++ a.provider.serviceId ++ ":" ++ a.bindId

/-- Aliases are ordered by provider, then by name. -/
def Alias.order : Alias → Alias → Ordering :=
  compareLex (compareOn provider) (compareOn bindId)

instance : Ord Alias := ⟨Alias.order⟩

instance : TransOrd Alias :=
  inferInstanceAs (TransCmp (compareLex (compareOn Alias.provider) _))

instance : LawfulEqOrd Alias :=
  lawfulEqLex fun a b hProvider hId => by
    cases a; cases b; cases hProvider; cases compareOn_eq_iff.1 hId; rfl

/-- Aliases that share their provider; the order is the caller's and a name may be repeated. -/
structure AliasGroup where
  provider : Provider
  bindIds : List String
deriving DecidableEq, Repr, Inhabited

/-- The aliases of a group, one by one. -/
def AliasGroup.aliases (g : AliasGroup) : List Alias :=
  g.bindIds.map fun bindId => ⟨g.provider, bindId⟩

/-! ### Facts about people and repositories -/

/-- An account at a provider. -/
structure AccountSpec where
  provider : Provider
  accountId : String
deriving DecidableEq, Repr, Inhabited

/-- The alias that the account stands for. -/
def AccountSpec.toAlias (s : AccountSpec) : Alias := ⟨s.provider, s.accountId⟩

/-- An account linked to a user. -/
structure Account where
  id : AccountId
  spec : AccountSpec
deriving DecidableEq, Repr, Inhabited

/-- An e-mail address; a verified one is known to belong to the user. -/
structure EmailAddress where
  address : String
  verified : Bool
deriving DecidableEq, Repr, Inhabited

/-- A repository by number and name. -/
structure Repo where
  id : RepoId
  name : String
deriving DecidableEq, Repr, Inhabited

end RepoAccess
