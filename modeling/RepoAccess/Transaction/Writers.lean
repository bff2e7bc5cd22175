/-
Writes that touch several rows.

* `Tx.replaceHolders` — the users that a repository's own list names.
* `Tx.replaceInvited` — the aliases of one provider that a repository's list names.
* `Tx.replaceAccount` — the repositories that a linked account brings.
* `Tx.mergeGranted`, `Tx.addHolder` — more repositories for a user, one more user for a repository.
* `Tx.clearPending`, `Tx.clearAliases` — a promise is taken back from both sides.
* `Tx.deleteUser` — a user's rows and the reasons behind them.

Every fact is kept from two sides, and each of these writes both, so the sides agree afterwards. A
writer takes away only the reasons it gave itself; access ends when no reason is left.
-/
import RepoAccess.Transaction.Basic

namespace RepoAccess

open Std

namespace Tx

/-! ### Rows that may not exist yet -/

/-- A user's row, a new one if there is none. -/
def userRow (now : Timestamp) (user : UserId) (perm : Permission) : Tx UserHoldings := do
  return (← request (.loadUser user perm)).getD { user, perm, updatedAt := now }

/-- An alias's row, a new one if there is none. -/
def pendingRow (now : Timestamp) (holder : Alias) (perm : Permission) : Tx PendingHoldings := do
  return (← request (.loadPending holder perm)).getD { holder, perm, updatedAt := now }

/-! ### A repository's own list -/

/-- Gives one user the repository: the user's row and its sources. Answers the repository's users
with the new one and how many of them are new. -/
def addSynced (now : Timestamp) (repo : RepoId) (perm : Permission) (progress : UserSet × Nat)
    (user : UserId) : Tx (UserSet × Nat) := do
  let row ← userRow now user perm
  request (.addSource user perm repo .repoSync)
  if !row.repos.contains repo then
    request (.saveUser { row with repos := row.repos.insert repo, updatedAt := now })
  let (users, added) := progress
  return (users.insert user, if users.contains user then added else added + 1)

/-- Withdraws the repository's own reason from one user, and the repository if that was the last
one. Answers the repository's users that are left and how many have gone. -/
def dismiss (now : Timestamp) (repo : RepoId) (perm : Permission) (progress : UserSet × Nat)
    (user : UserId) : Tx (UserSet × Nat) := do
  let row ← request (.loadUser user perm)
  request (.removeSource user perm repo .repoSync)
  let sources ← request (.loadUserSources user perm)
  if (sources.getD repo ∅).isEmpty then
    match row with
    | some row => request (.saveUser { row with repos := row.repos.erase repo, updatedAt := now })
    | none => pure ()
    let (users, removed) := progress
    return (users.erase user, if users.contains user then removed + 1 else removed)
  else return progress

/-- Replaces the users that a repository's own list names. Users whom it names no longer keep the
repository while another reason is left; a user with no reason at all counts as named before. -/
def replaceHolders (now : Timestamp) (repo : RepoId) (perm : Permission) (users : UserSet) :
    Tx ReplaceDiff := do
  let existing ← request (.loadRepo repo perm)
  let row := existing.getD { repo, perm, updatedAt := now }
  let sources ← request (.loadRepoSources repo perm)
  let synced := sources.toList.filterMap fun (user, reasons) =>
    if reasons.contains .repoSync then some user else none
  let dropped := (row.users ∪ ExtTreeSet.ofList synced).filter fun user => !users.contains user
  let (members, added) ← users.toList.foldlM (addSynced now repo perm) (row.users, 0)
  let (members, removed) ← dropped.toList.foldlM (dismiss now repo perm) (members, 0)
  request (.saveRepo { row with users := members, updatedAt := now, syncedAt := some now })
  return { added, removed, found := existing.isSome }

/-! ### A repository's list of aliases -/

/-- Promises the repository to one alias. -/
def promise (now : Timestamp) (repo : RepoId) (perm : Permission) (holder : Alias) : Tx Unit := do
  let row ← pendingRow now holder perm
  request (.savePending { row with repos := row.repos.insert repo, updatedAt := now })

/-- Takes the promise back from one alias. -/
def retract (now : Timestamp) (repo : RepoId) (perm : Permission) (holder : Alias) : Tx Unit := do
  match ← request (.loadPending holder perm) with
  | some row => request (.savePending { row with repos := row.repos.erase repo, updatedAt := now })
  | none => pure ()

/-- Replaces the aliases of one provider to whom a repository is promised. -/
def replaceInvited (now : Timestamp) (group : AliasGroup) (repo : RepoId) (perm : Permission) :
    Tx ReplaceDiff := do
  let existing ← request (.loadInvited repo perm group.provider)
  let old := (existing.map (·.bindIds)).getD ∅
  let new := ExtTreeSet.ofList group.bindIds
  let added := (new \ old).toList
  let removed := (old \ new).toList
  added.forM fun bindId => promise now repo perm ⟨group.provider, bindId⟩
  removed.forM fun bindId => retract now repo perm ⟨group.provider, bindId⟩
  request (.saveInvited
    { repo, perm, provider := group.provider, bindIds := new, updatedAt := now })
  return { added := added.length, removed := removed.length, found := existing.isSome }

/-! ### One user, one repository -/

/-- Adds a user to a repository's row, which stays as it is if the user is in it. -/
def addHolder (now : Timestamp) (repo : RepoId) (perm : Permission) (user : UserId) : Tx Unit := do
  let row := (← request (.loadRepo repo perm)).getD { repo, perm, updatedAt := now }
  if !row.users.contains user then
    request (.saveRepo { row with users := row.users.insert user, updatedAt := now })

/-- Takes a user out of a repository's row, if the user is in it. -/
def removeHolder (now : Timestamp) (repo : RepoId) (perm : Permission) (user : UserId) :
    Tx Unit := do
  match ← request (.loadRepo repo perm) with
  | some row =>
    if row.users.contains user then
      request (.saveRepo { row with users := row.users.erase user, updatedAt := now })
  | none => pure ()

/-- Adds repositories to a user's row, each with that reason, and counts the new ones. -/
def mergeGranted (now : Timestamp) (user : UserId) (perm : Permission) (repos : RepoSet)
    (source : Source) : Tx Nat := do
  let row ← userRow now user perm
  repos.toList.forM fun repo => request (.addSource user perm repo source)
  let merged := row.repos ∪ repos
  request (.saveUser { row with repos := merged, updatedAt := now })
  return merged.size - row.repos.size

/-! ### A linked account -/

/-- Lets an account bring one repository. Answers the user's repositories with it and how many of
them are new. -/
def bring (now : Timestamp) (user : UserId) (account : AccountId) (progress : RepoSet × Nat)
    (repo : RepoId) : Tx (RepoSet × Nat) := do
  request (.addSource user .read repo (.account account))
  let (repos, added) := progress
  if repos.contains repo then return progress
  else
    addHolder now repo .read user
    return (repos.insert repo, added + 1)

/-- Withdraws an account's reason for one repository, and the repository if no other of the reasons
found before is left. Answers the user's repositories that are left and how many have gone. -/
def drop (now : Timestamp) (user : UserId) (account : AccountId)
    (before : ExtTreeMap RepoId SourceSet) (progress : RepoSet × Nat) (repo : RepoId) :
    Tx (RepoSet × Nat) := do
  request (.removeSource user .read repo (.account account))
  if (before.getD repo ∅).toList.any (· != .account account) then return progress
  else
    removeHolder now repo .read user
    let (repos, removed) := progress
    return (repos.erase repo, if repos.contains repo then removed + 1 else removed)

/-- Replaces the repositories that a linked account lets its user read. A repository that it brings
no longer stays while another reason is left. -/
def replaceAccount (now : Timestamp) (user : UserId) (account : AccountId) (repos : RepoSet) :
    Tx ReplaceDiff := do
  let existing ← request (.loadUser user .read)
  let row := existing.getD { user, perm := .read, updatedAt := now }
  let sources ← request (.loadUserSources user .read)
  let old := sources.toList.filterMap fun (repo, reasons) =>
    if reasons.contains (.account account) && !repos.contains repo then some repo else none
  let (members, added) ← repos.toList.foldlM (bring now user account) (row.repos, 0)
  let (members, removed) ← old.foldlM (drop now user account sources) (members, 0)
  request (.saveUser { row with repos := members, updatedAt := now, syncedAt := some now })
  return { added, removed, found := existing.isSome }

/-! ### Taking back -/

/-- Takes one promise off a repository's list of aliases. -/
def uninvite (now : Timestamp) (holder : Alias) (perm : Permission) (repo : RepoId) : Tx Unit := do
  match ← request (.loadInvited repo perm holder.provider) with
  | some row =>
    if row.bindIds.contains holder.bindId then
      request (.saveInvited
        { row with bindIds := row.bindIds.erase holder.bindId, updatedAt := now })
  | none => pure ()

/-- Deletes an alias's row and takes the alias off the lists of its repositories. Tells whether
there was a row. -/
def clearPending (now : Timestamp) (holder : Alias) (perm : Permission) : Tx Bool := do
  match ← request (.loadPending holder perm) with
  | some row =>
    row.repos.toList.forM (uninvite now holder perm)
    request (.deletePending holder perm)
    return true
  | none => return false

/-- Clears every row of every alias and counts them. -/
def clearAliases (now : Timestamp) (holders : List Alias) : Tx Nat :=
  holders.foldlM
    (fun cleared holder => do
      let rows ← request (.listPending holder)
      rows.foldlM
        (fun cleared row => do
          return if ← clearPending now holder row.perm then cleared + 1 else cleared)
        cleared)
    0

/-- Deletes a user's rows and the reasons behind them, and counts the rows. -/
def deleteUser (user : UserId) : Tx Nat := do
  let deleted ← request (.deleteUserRows user)
  let _ ← request (.deleteSources user)
  return deleted

end Tx

end RepoAccess
