/-
The tables of the store in memory.

* `Tables` — one sorted map for each kind of row.
* `Tables.perform` — what a request answers and how it changes the tables.

A row is stored under the key in it. A user without a reason for a repository has no entry among
the sources: an entry that would become empty is removed.
-/
import RepoAccess.Memory.Key
import RepoAccess.Transaction.Basic

namespace RepoAccess

open Std

/-! ### Keys of rows -/

/-- The key of a user's row. -/
def UserHoldings.key (row : UserHoldings) : UserKey := ⟨row.user, row.perm⟩

/-- The key of a repository's row. -/
def RepoHolders.key (row : RepoHolders) : RepoKey := ⟨row.repo, row.perm⟩

/-- The key of an alias's row. -/
def PendingHoldings.key (row : PendingHoldings) : PendingKey := ⟨row.holder, row.perm⟩

/-- The key of a repository's row of aliases. -/
def PendingHolders.key (row : PendingHolders) : InvitedKey := ⟨row.repo, row.perm, row.provider⟩

/-! ### Tables -/

/-- One sorted map for each kind of row. -/
structure Tables where
  users : ExtTreeMap UserKey UserHoldings := ∅
  repos : ExtTreeMap RepoKey RepoHolders := ∅
  pending : ExtTreeMap PendingKey PendingHoldings := ∅
  invited : ExtTreeMap InvitedKey PendingHolders := ∅
  sources : ExtTreeMap SourceKey SourceSet := ∅
  overlays : ExtTreeMap OverlayKey Overlay := ∅
deriving DecidableEq

namespace Tables

/-- The reasons for a user's access to a repository; none where there is no entry. -/
def reasons (t : Tables) (key : SourceKey) : SourceSet := t.sources.getD key ∅

/-- The tables without one reason. -/
def removeReason (t : Tables) (key : SourceKey) (source : Source) : Tables :=
  let left := (t.reasons key).erase source
  { t with sources := if left.isEmpty then t.sources.erase key else t.sources.insert key left }

/-- The reasons for each repository that a user may access. -/
def userSources (t : Tables) (user : UserId) (perm : Permission) : ExtTreeMap RepoId SourceSet :=
  let found := t.sources.filter fun key _ => key.user == user && key.perm == perm
  .ofList (found.toList.map fun (key, reasons) => (key.repo, reasons))

/-- The reasons for each user who may access a repository. -/
def repoSources (t : Tables) (repo : RepoId) (perm : Permission) : ExtTreeMap UserId SourceSet :=
  let found := t.sources.filter fun key _ => key.repo == repo && key.perm == perm
  .ofList (found.toList.map fun (key, reasons) => (key.user, reasons))

/-- The overlays of a user by repository. -/
def userOverlays (t : Tables) (user : UserId) : ExtTreeMap RepoId Overlay :=
  let found := t.overlays.filter fun key _ => key.user == user
  .ofList (found.toList.map fun (key, overlay) => (key.repo, overlay))

/-- A repository's row without a user; it changes only if the user was in it. -/
def withoutHolder (now : Timestamp) (user : UserId) (row : RepoHolders) : RepoHolders :=
  if row.users.contains user then
    { row with users := row.users.erase user, updatedAt := now }
  else row

/-- What a request answers and the tables after it. -/
def perform (now : Timestamp) : (p : Primitive) → Tables → p.Reply × Tables
  | .loadUser user perm, t => (t.users[(⟨user, perm⟩ : UserKey)]?, t)
  | .saveUser row, t => ((), { t with users := t.users.insert row.key row })
  | .deleteUserRows user, t =>
    let doomed := t.users.filter fun key _ => key.user == user
    (doomed.size, { t with users := t.users.filter fun key _ => key.user != user })
  | .loadRepo repo perm, t => (t.repos[(⟨repo, perm⟩ : RepoKey)]?, t)
  | .saveRepo row, t => ((), { t with repos := t.repos.insert row.key row })
  | .removeFromRepos user, t =>
    let touched := t.repos.filter fun _ row => row.users.contains user
    (touched.size, { t with repos := t.repos.map fun _ row => withoutHolder now user row })
  | .loadPending holder perm, t => (t.pending[(⟨holder, perm⟩ : PendingKey)]?, t)
  | .listPending holder, t =>
    ((Named.all : List Permission).filterMap fun perm =>
      t.pending[(⟨holder, perm⟩ : PendingKey)]?, t)
  | .savePending row, t => ((), { t with pending := t.pending.insert row.key row })
  | .deletePending holder perm, t => ((), { t with pending := t.pending.erase ⟨holder, perm⟩ })
  | .loadInvited repo perm provider, t => (t.invited[(⟨repo, perm, provider⟩ : InvitedKey)]?, t)
  | .saveInvited row, t => ((), { t with invited := t.invited.insert row.key row })
  | .loadUserSources user perm, t => (t.userSources user perm, t)
  | .loadRepoSources repo perm, t => (t.repoSources repo perm, t)
  | .addSource user perm repo source, t =>
    let key : SourceKey := ⟨user, perm, repo⟩
    ((), { t with sources := t.sources.insert key ((t.reasons key).insert source) })
  | .removeSource user perm repo source, t => ((), t.removeReason ⟨user, perm, repo⟩ source)
  | .deleteSources user, t =>
    let doomed := t.sources.filter fun key _ => key.user == user
    (doomed.size, { t with sources := t.sources.filter fun key _ => key.user != user })
  | .saveOverlay user repo overlay, t =>
    ((), { t with overlays := t.overlays.insert ⟨user, repo⟩ overlay })
  | .loadOverlays user, t => (t.userOverlays user, t)
  | .deleteOverlays user, t =>
    let doomed := t.overlays.filter fun key _ => key.user == user
    (doomed.size, { t with overlays := t.overlays.filter fun key _ => key.user != user })

end Tables

end RepoAccess
