/-
What the engine does.

* `Engine.grant` — claims the promises made to a user's aliases.
* `Engine.authorizedRepos` — which of some repositories a user may access.
* `Engine.revoke` — deletes every trace of a user's permissions.
* `Engine.saveOverlay`, `Engine.overlays` — a user's path rules.
* `Engine.filterPaths`, `Engine.canReadPath` — which paths of a repository a user may read.

Everything that writes does so in one transaction. A grant that finds nothing to claim writes
nothing. Path rules are checked before they are stored, and a path is looked at only once the
repository itself is granted.
-/
import RepoAccess.Engine.Basic
import RepoAccess.PathRule
import RepoAccess.Requests

namespace RepoAccess

open Std

/-! ### Claiming promises -/

/-- Looks up one alias. Answers the aliases that matched with it, and their repositories. -/
def matchPending (perm : Permission) (found : List Alias × RepoSet) (holder : Alias) :
    Tx (List Alias × RepoSet) := do
  match ← Tx.request (.loadPending holder perm) with
  | some row =>
    if row.repos.isEmpty then return found
    else return (found.1 ++ [holder], found.2 ∪ row.repos)
  | none => return found

/-- Moves what is promised to the candidates into the user's own rows. If nothing is promised, the
transaction is rolled back. -/
def claim (now : Timestamp) (request : GrantRequest) (mode : BindingMode)
    (candidates : List Alias) : Tx (Ending GrantOutcome) := do
  let (matched, repos) ← candidates.foldlM (matchPending request.perm) ([], ∅)
  if matched.isEmpty then return .rollBack { mode, candidates := candidates.length }
  else
    let added ← Tx.mergeGranted now request.user request.perm repos .grant
    repos.toList.forM fun repo => Tx.addHolder now repo request.perm request.user
    matched.forM fun holder => do
      let _ ← Tx.clearPending now holder request.perm
    return .commit
      { mode, candidates := candidates.length, matched := matched.length, granted := repos.size,
        added }

/-! ### Revoking -/

/-- What a revocation deleted. -/
structure RevokeCounts where
  users : Nat
  repos : Nat
  pending : Nat
  overlays : Nat
deriving DecidableEq, Repr

/-- Deletes a user's rows, its places in the rows of repositories, the promises to its aliases and
its overlays. -/
def forget (now : Timestamp) (request : RevokeRequest) : Tx RevokeCounts := do
  let users ← Tx.deleteUser request.user
  let repos ← Tx.request (.removeFromRepos request.user)
  let pending ← Tx.clearAliases now request.aliases
  let overlays ← Tx.request (.deleteOverlays request.user)
  return ⟨users, repos, pending, overlays⟩

/-! ### Operations -/

namespace Engine

variable {σ α : Type}

/-- Claims the promises made to a user's aliases under a given binding mode. -/
def grantUnder (e : Engine σ) (now : Timestamp) (request : GrantRequest) (mode : BindingMode) :
    Action σ GrantOutcome :=
  e.observe "grant" do
    let identity ← Action.ofExcept (e.identityOf request.user)
    let candidates := identity.candidates mode
    if candidates.isEmpty then return { mode, candidates := 0 }
    else
      let outcome ← e.transact now (claim now request mode candidates)
      if outcome.matched ≠ 0 then
        Action.note (.granted outcome)
        e.measure (.granted (name mode) outcome.matched outcome.granted)
      return outcome

/-- Claims the promises made to a user's aliases under the binding mode in force. -/
def grant (e : Engine σ) (now : Timestamp) (request : GrantRequest) : Action σ GrantOutcome :=
  e.grantUnder now request e.mode

/-- The repositories, of those given, that the user may access, in the given order. No repositories
are answered without asking the store. -/
def authorizedRepos (e : Engine σ) (now : Timestamp) (request : AccessRequest)
    (repoOf : α → RepoId) (repos : List α) : Action σ (List α) :=
  if repos.isEmpty then return []
  else
    e.observe "authorized_repos" do
      match ← e.once now (Tx.request (.loadUser request.user request.perm)) with
      | none =>
        e.measure (.checked repos.length 0)
        return []
      | some row =>
        let allowed := repos.filter fun repo => row.repos.contains (repoOf repo)
        e.measure (.checked repos.length allowed.length)
        return allowed

/-- Deletes every trace of a user's permissions. -/
def revoke (e : Engine σ) (now : Timestamp) (request : RevokeRequest) : Action σ Unit :=
  e.observe "revoke" do
    let counts ← e.once now (forget now request)
    Action.note (.revoked counts.users counts.repos counts.pending counts.overlays)
    e.measure (.revoked (counts.users + counts.pending + counts.overlays))

/-- Checks path rules and puts them in place of the user's former ones for the repository. -/
def saveOverlay (e : Engine σ) (now : Timestamp) (user : UserId) (repo : RepoId)
    (overlay : Overlay) : Action σ Unit := do
  let _ ← Action.ofExcept (compileRules overlay.paths)
  e.observe "upsert_sub_repo" (e.once now (Tx.request (.saveOverlay user repo overlay)))

/-- The path rules of a user by repository; a repository without rules is unrestricted. -/
def overlays (e : Engine σ) (now : Timestamp) (user : UserId) :
    Action σ (ExtTreeMap RepoId Overlay) :=
  e.observe "get_sub_repo" (e.once now (Tx.request (.loadOverlays user)))

/-- The paths, of those given, that the user may read in a repository, in the given order. -/
def filterPaths (e : Engine σ) (now : Timestamp) (user : UserId) (perm : Permission)
    (repo : RepoId) (paths : List String) : Action σ (List String) := do
  if paths.isEmpty then return []
  else
    let granted ← e.authorizedRepos now { user, perm } id [repo]
    if granted.isEmpty then return []
    else
      match (← e.overlays now user)[repo]? with
      | none => return paths
      | some overlay =>
        let rules ← Action.ofExcept (compileRules overlay.paths)
        let allowed := paths.filter (isAllowed rules)
        if allowed.length < paths.length then
          e.measure (.pathsDenied (paths.length - allowed.length))
        return allowed

/-- Whether the user may read a path in a repository. -/
def canReadPath (e : Engine σ) (now : Timestamp) (user : UserId) (perm : Permission)
    (repo : RepoId) (path : String) : Action σ Bool := do
  return !(← e.filterPaths now user perm repo [path]).isEmpty

end Engine

end RepoAccess
