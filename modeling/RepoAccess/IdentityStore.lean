/-
Identities kept in memory.

* `IdentityStore` — the known identities by user, and the last account number handed out.
* `IdentityStore.identity` — the identity of a user, who must be known.
* `IdentityStore.put`, `createUser`, `addEmail`, `setEmailVerified`, `setUsername`, `linkAccount`,
  `remove` — what can be done to it.

An account number is handed out once, to whichever user links an account that is new to that user;
after the largest number the count goes on from the smallest.
-/
import RepoAccess.Error
import RepoAccess.Identity

namespace RepoAccess

open Std

/-- Identities by user, and the last account number handed out. -/
structure IdentityStore where
  identities : ExtTreeMap UserId Identity := ∅
  lastAccount : Int32 := 0

namespace IdentityStore

/-- The identity of a user. -/
def identity (s : IdentityStore) (user : UserId) : Except AccessError Identity :=
  match s.identities[user]? with
  | some i => .ok i
  | none => .error (.userNotFound user.val)

/-- Keeps an identity in place of the user's former one. -/
def put (s : IdentityStore) (i : Identity) : IdentityStore :=
  { s with identities := s.identities.insert i.user i }

/-- Keeps a new identity with a user name and nothing else. -/
def createUser (s : IdentityStore) (user : UserId) (username : String) :
    Identity × IdentityStore :=
  let i : Identity := { Identity.unknown user with username := some username }
  (i, s.put i)

/-- Changes the identity of a known user. -/
def modify (s : IdentityStore) (user : UserId) (change : Identity → Identity) :
    Except AccessError IdentityStore := do
  let i ← s.identity user
  return { s with identities := s.identities.insert user (change i) }

/-- The addresses with the first entry of an address marked as verified or not. -/
def markEmail (address : String) (verified : Bool) : List EmailAddress → List EmailAddress
  | [] => []
  | e :: rest =>
    if e.address = address then { e with verified } :: rest
    else e :: markEmail address verified rest

/-- Adds an address, or marks the one that is there. -/
def addEmail (s : IdentityStore) (user : UserId) (address : String) (verified : Bool) :
    Except AccessError IdentityStore :=
  s.modify user fun i =>
    { i with
      emails :=
        if i.emails.any (·.address == address) then markEmail address verified i.emails
        else i.emails ++ [⟨address, verified⟩] }

/-- Marks an address if it is there. -/
def setEmailVerified (s : IdentityStore) (user : UserId) (address : String) (verified : Bool) :
    Except AccessError IdentityStore :=
  s.modify user fun i => { i with emails := markEmail address verified i.emails }

/-- Replaces the user name. -/
def setUsername (s : IdentityStore) (user : UserId) (username : Option String) :
    Except AccessError IdentityStore :=
  s.modify user fun i => { i with username }

/-- Links an account to the user and tells its number. An account that is linked already keeps the
number it has. -/
def linkAccount (s : IdentityStore) (user : UserId) (spec : AccountSpec) :
    Except AccessError (AccountId × IdentityStore) := do
  let i ← s.identity user
  match i.accounts.find? (·.spec == spec) with
  | some account => return (account.id, s)
  | none =>
    let number := s.lastAccount + 1
    let i := { i with accounts := i.accounts ++ [⟨⟨number⟩, spec⟩] }
    return (⟨number⟩, ⟨s.identities.insert user i, number⟩)

/-- Forgets a user. -/
def remove (s : IdentityStore) (user : UserId) : Option Identity × IdentityStore :=
  (s.identities[user]?, { s with identities := s.identities.erase user })

end IdentityStore

end RepoAccess
