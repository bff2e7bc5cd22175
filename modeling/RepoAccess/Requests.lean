/-
What a caller asks of the engine.

* `GrantRequest` — claim the promises made to a user's aliases.
* `AccessRequest` — which repositories a user may access.
* `RevokeRequest` — forget every permission of a user. The caller takes the alias groups before the
  identity is gone; `RevokeRequest.ofIdentity` names every alias the user may ever have had.
-/
import RepoAccess.Identity

namespace RepoAccess

/-- Claim the promises made to a user's aliases. -/
structure GrantRequest where
  user : UserId
  perm : Permission
  resource : ResourceKind := .repos
deriving DecidableEq, Repr

/-- Which repositories a user may access. -/
structure AccessRequest where
  user : UserId
  perm : Permission
  resource : ResourceKind := .repos
deriving DecidableEq, Repr

/-- Forget every permission of a user and of these aliases. -/
structure RevokeRequest where
  user : UserId
  groups : List AliasGroup
deriving DecidableEq, Repr

/-- The request that names every alias of an identity. -/
def RevokeRequest.ofIdentity (i : Identity) : RevokeRequest := ⟨i.user, i.aliasGroups⟩

/-- The aliases of a request, one by one. -/
def RevokeRequest.aliases (r : RevokeRequest) : List Alias := r.groups.flatMap (·.aliases)

end RepoAccess
