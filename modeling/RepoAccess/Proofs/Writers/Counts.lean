/-
What the writers of lists count.

* `ReplaceDiff.Counts` — a diff counts the members that a set has gained and those that it has
  lost; `ReplaceDiff.Counts.size_add_removed` — so the size follows from the counts;
* `Tx.counts_replaceHolders`, `Tx.counts_replaceAccount`, `Tx.counts_replaceInvited` — the diffs of
  the three writers are such counts.

Two of the writers count in loops: first everybody who is named comes to the set, then some who are
not named go. So after the first loop the set is the union of the old and the new one, which is
bigger than the one by those who have come and bigger than the other by those who go.
-/
import RepoAccess.Proofs.Writers.Account
import RepoAccess.Proofs.Writers.Promises

namespace RepoAccess

open Std

/-! ### Counts of a change -/

section Sets

variable {κ : Type} [Ord κ] [TransOrd κ]

theorem size_insert_of_mem {set : ExtTreeSet κ} {a : κ} (h : a ∈ set) :
    (set.insert a).size = set.size := by
  rw [ExtTreeSet.size_insert, if_pos (ExtTreeSet.contains_iff_mem.2 h)]

theorem size_insert_of_not_mem {set : ExtTreeSet κ} {a : κ} (h : a ∉ set) :
    (set.insert a).size = set.size + 1 := by
  rw [ExtTreeSet.size_insert, if_neg (mt ExtTreeSet.contains_iff_mem.1 h)]

theorem size_erase_add_one {set : ExtTreeSet κ} {a : κ} (h : a ∈ set) :
    (set.erase a).size + 1 = set.size := by
  have hsome : set.size ≠ 0 := fun hzero =>
    ExtTreeSet.ne_empty_of_mem h (ExtTreeSet.eq_empty_iff_size_eq_zero.2 hzero)
  rw [ExtTreeSet.size_erase, if_pos (ExtTreeSet.contains_iff_mem.2 h)]
  omega

/-- The diff counts the members that a set has gained and those that it has lost. -/
structure ReplaceDiff.Counts (diff : ReplaceDiff) (old new : ExtTreeSet κ) : Prop where
  added : diff.added = (new \ old).size
  removed : diff.removed = (old \ new).size

namespace ReplaceDiff.Counts

variable {diff : ReplaceDiff} {old new : ExtTreeSet κ}

/-- A set that is replaced by itself gains and loses nothing. -/
theorem eq_zero (h : diff.Counts old old) : diff.added = 0 ∧ diff.removed = 0 := by
  have hempty : old \ old = ∅ := by
    rw [ExtTreeSet.eq_empty_iff_forall_not_mem]
    intro a
    rw [ExtTreeSet.mem_diff_iff]
    exact fun hboth => hboth.2 hboth.1
  rw [h.added, h.removed, hempty]
  exact ⟨rfl, rfl⟩

variable [LawfulEqOrd κ]

/-- A set that grows to the union of the old and the new one, and then shrinks to the new one,
counts what it gains and what it loses. -/
theorem of_union (hadded : old.size + diff.added = (old ∪ new).size)
    (hremoved : new.size + diff.removed = (old ∪ new).size) : diff.Counts old new where
  added := by
    rw [← size_union_sub_size]
    omega
  removed := by
    have hcomm : old ∪ new = new ∪ old := by
      ext a
      rw [ExtTreeSet.mem_union_iff, ExtTreeSet.mem_union_iff]
      exact or_comm
    rw [← size_union_sub_size, ← hcomm]
    omega

/-- The new size is the old one with what has come and without what has gone, and no more has gone
than there was. -/
theorem size_add_removed (h : diff.Counts old new) :
    new.size + diff.removed = old.size + diff.added ∧ diff.removed ≤ old.size := by
  have hold : (old \ new).size + (old ∩ new).size = old.size :=
    ExtTreeSet.size_diff_add_size_inter_eq_size_left
  have hnew : (new \ old).size + (new ∩ old).size = new.size :=
    ExtTreeSet.size_diff_add_size_inter_eq_size_left
  have hcomm : old ∩ new = new ∩ old := by
    ext a
    rw [ExtTreeSet.mem_inter_iff, ExtTreeSet.mem_inter_iff]
    exact and_comm
  rw [h.added, h.removed]
  rw [hcomm] at hold
  omega

end ReplaceDiff.Counts

end Sets

/-! ### A repository's own list -/

namespace Tx

variable {now : Timestamp} {t : Tables}

section Holders

variable {repo : RepoId} {perm : Permission}

/-- The members grow by one with each user who is counted. -/
theorem size_foldlM_addSynced (now : Timestamp) (repo : RepoId) (perm : Permission)
    (users : List UserId) (members : UserSet) (ht : t.Keyed) :
    let ran := (users.foldlM (addSynced now repo perm) (members, 0)).exec now t
    members.size + ran.1.2 = ran.1.1.size := by
  refine foldlM_keeps (P := fun _ (progress : UserSet × Nat) _ =>
    members.size + progress.2 = progress.1.size) ?_ users ht rfl
  intro done progress t' user _ hdone
  simp only [exec_addSynced]
  by_cases hmem : user ∈ progress.1
  · rw [if_pos hmem, size_insert_of_mem hmem, hdone]
  · rw [if_neg hmem, size_insert_of_not_mem hmem]
    omega

/-- The members shrink by one with each user who is counted. -/
theorem size_foldlM_dismiss (now : Timestamp) (repo : RepoId) (perm : Permission)
    (users : List UserId) (members : UserSet) (ht : t.Keyed) :
    let ran := (users.foldlM (dismiss now repo perm) (members, 0)).exec now t
    ran.1.1.size + ran.1.2 = members.size := by
  refine foldlM_keeps (P := fun _ (progress : UserSet × Nat) _ =>
    progress.1.size + progress.2 = members.size) ?_ users ht rfl
  intro done progress t' user _ hdone
  rw [exec_dismiss]
  by_cases hlost : t'.NoOther ⟨user, perm, repo⟩ .repoSync
  · simp only [hlost, if_true]
    by_cases hmem : user ∈ progress.1
    · have hsize := size_erase_add_one hmem
      rw [if_pos hmem]
      omega
    · rw [if_neg hmem, erase_of_not_mem hmem, hdone]
  · simp only [hlost, if_false]
    exact hdone

theorem usersOf_saveRepo (row : RepoHolders) :
    (t.after now (.saveRepo row)).usersOf row.repo row.perm = row.users := by
  simp [Tables.usersOf, Tables.repoRow_saveRepo]

/-- In between, the row holds whom it held before and who is named. -/
theorem sizes_replaceHolders (ht : t.Keyed) (now : Timestamp) (repo : RepoId) (perm : Permission)
    (named : UserSet) :
    let ran := (replaceHolders now repo perm named).exec now t
    (t.usersOf repo perm).size + ran.1.added = (t.usersOf repo perm ∪ named).size ∧
    (ran.2.usersOf repo perm).size + ran.1.removed = (t.usersOf repo perm ∪ named).size := by
  have hrow : ((t.repoRow repo perm).getD { repo, perm, updatedAt := now }).repo = repo ∧
      ((t.repoRow repo perm).getD { repo, perm, updatedAt := now }).perm = perm ∧
      ((t.repoRow repo perm).getD { repo, perm, updatedAt := now }).users =
        t.usersOf repo perm := by
    rw [Tables.usersOf]
    cases h : t.repoRow repo perm with
    | none => exact ⟨rfl, rfl, rfl⟩
    | some row => exact ⟨(ht.repoRow h).1, (ht.repoRow h).2, rfl⟩
  rw [exec_replaceHolders]
  dsimp only
  generalize (t.repoRow repo perm).getD { repo, perm, updatedAt := now } = row at hrow ⊢
  obtain ⟨rfl, rfl, husers⟩ := hrow
  rw [usersOf_saveRepo, ← husers]
  have hadded := size_foldlM_addSynced now row.repo row.perm named.toList row.users ht
  have hmembers : ∀ user, user ∈ ((named.toList.foldlM (addSynced now row.repo row.perm)
      (row.users, 0)).exec now t).1.1 ↔ user ∈ row.users ∨ user ∈ named.toList :=
    (synced_foldlM now named.toList (row.users, 0) ht).2
  have hkeyed := ht.exec now
    (named.toList.foldlM (addSynced now row.repo row.perm) (row.users, 0))
  generalize (named.toList.foldlM (addSynced now row.repo row.perm) (row.users, 0)).exec now t
    = added at *
  have hunion : added.1.1 = row.users ∪ named := by
    ext user
    rw [hmembers, ExtTreeSet.mem_toList, ExtTreeSet.mem_union_iff]
  rw [← hunion]
  exact ⟨hadded, size_foldlM_dismiss now row.repo row.perm _ added.1.1 hkeyed⟩

/-- A list counts the users whom the repository's row did not hold. -/
theorem added_replaceHolders (named : UserSet) (ht : t.Keyed) :
    ((replaceHolders now repo perm named).exec now t).1.added =
      (named \ t.usersOf repo perm).size := by
  have hsize := (sizes_replaceHolders ht now repo perm named).1
  rw [← size_union_sub_size]
  omega

/-- A list counts the users whom the repository's row has gained and lost. -/
theorem counts_replaceHolders (ht : t.Keyed) (now : Timestamp) (repo : RepoId)
    (perm : Permission) (named : UserSet) :
    let ran := (replaceHolders now repo perm named).exec now t
    ran.1.Counts (t.usersOf repo perm) (ran.2.usersOf repo perm) := by
  intro ran
  have hreplaced : Tables.HoldersReplaced now repo perm named t ran.2 :=
    holdersReplaced_replaceHolders ht named
  have hunion : t.usersOf repo perm ∪ ran.2.usersOf repo perm = t.usersOf repo perm ∪ named := by
    ext user
    rw [ExtTreeSet.mem_union_iff, ExtTreeSet.mem_union_iff, hreplaced.usersOf]
    grind
  obtain ⟨hadded, hremoved⟩ := sizes_replaceHolders ht now repo perm named
  exact .of_union (hunion ▸ hadded) (hunion ▸ hremoved)

/-- A list tells whether the repository had a row. -/
theorem found_replaceHolders (now : Timestamp) (repo : RepoId) (perm : Permission)
    (named : UserSet) :
    ((replaceHolders now repo perm named).exec now t).1.found = (t.repoRow repo perm).isSome := by
  rw [exec_replaceHolders]

end Holders

/-! ### A linked account -/

section Account

variable {user : UserId} {account : AccountId}

theorem size_foldlM_bring (now : Timestamp) (user : UserId) (account : AccountId)
    (repos : List RepoId) (members : RepoSet) (ht : t.Keyed) :
    let ran := (repos.foldlM (bring now user account) (members, 0)).exec now t
    members.size + ran.1.2 = ran.1.1.size := by
  refine foldlM_keeps (P := fun _ (progress : RepoSet × Nat) _ =>
    members.size + progress.2 = progress.1.size) ?_ repos ht rfl
  intro done progress t' repo _ hdone
  rw [exec_bring]
  by_cases hmem : repo ∈ progress.1
  · simp only [hmem, if_true]
    exact hdone
  · simp only [hmem, if_false]
    rw [size_insert_of_not_mem hmem]
    omega

theorem size_foldlM_drop (now : Timestamp) (user : UserId) (account : AccountId)
    (before : ExtTreeMap RepoId SourceSet) (repos : List RepoId) (members : RepoSet)
    (ht : t.Keyed) :
    let ran := (repos.foldlM (drop now user account before) (members, 0)).exec now t
    ran.1.1.size + ran.1.2 = members.size := by
  refine foldlM_keeps (P := fun _ (progress : RepoSet × Nat) _ =>
    progress.1.size + progress.2 = members.size) ?_ repos ht rfl
  intro done progress t' repo _ hdone
  rw [exec_drop]
  by_cases hkeeps : keeps before account repo = true
  · simp only [hkeeps, if_true]
    exact hdone
  · simp only [hkeeps, Bool.false_eq_true, if_false]
    by_cases hmem : repo ∈ progress.1
    · have hsize := size_erase_add_one hmem
      rw [if_pos hmem]
      omega
    · rw [if_neg hmem, erase_of_not_mem hmem, hdone]

theorem reposOf_saveUser (row : UserHoldings) :
    (t.after now (.saveUser row)).reposOf row.user row.perm = row.repos := by
  simp [Tables.reposOf, Tables.userRow_saveUser]

/-- In between, the row holds what it held before and what the account brings. -/
theorem sizes_replaceAccount (ht : t.Keyed) (now : Timestamp) (user : UserId)
    (account : AccountId) (named : RepoSet) :
    let ran := (replaceAccount now user account named).exec now t
    (t.reposOf user .read).size + ran.1.added = (t.reposOf user .read ∪ named).size ∧
    (ran.2.reposOf user .read).size + ran.1.removed = (t.reposOf user .read ∪ named).size := by
  have hrow : ((t.userRow user .read).getD { user, perm := .read, updatedAt := now }).user = user ∧
      ((t.userRow user .read).getD { user, perm := .read, updatedAt := now }).perm = .read ∧
      ((t.userRow user .read).getD { user, perm := .read, updatedAt := now }).repos =
        t.reposOf user .read := by
    rw [Tables.reposOf]
    cases h : t.userRow user .read with
    | none => exact ⟨rfl, rfl, rfl⟩
    | some row => exact ⟨(ht.userRow h).1, (ht.userRow h).2, rfl⟩
  rw [exec_replaceAccount]
  dsimp only
  generalize (t.userRow user .read).getD { user, perm := .read, updatedAt := now } = row
    at hrow ⊢
  obtain ⟨rfl, hperm, hrepos⟩ := hrow
  rw [← hperm, reposOf_saveUser, hperm, ← hrepos]
  have hadded := size_foldlM_bring now row.user account named.toList row.repos ht
  have hmembers := (brought_foldlM now row.user account named.toList (row.repos, 0) ht).2
  have hkeyed := ht.exec now
    (named.toList.foldlM (bring now row.user account) (row.repos, 0))
  generalize (named.toList.foldlM (bring now row.user account) (row.repos, 0)).exec now t
    = added at *
  have hunion : added.1.1 = row.repos ∪ named := by
    ext repo
    rw [hmembers, ExtTreeSet.mem_toList, ExtTreeSet.mem_union_iff]
  rw [← hunion]
  exact ⟨hadded, size_foldlM_drop now row.user account _ _ added.1.1 hkeyed⟩

/-- An account counts the repositories that the user's row has gained and lost. -/
theorem counts_replaceAccount (ht : t.Keyed) (now : Timestamp) (user : UserId)
    (account : AccountId) (named : RepoSet) :
    let ran := (replaceAccount now user account named).exec now t
    ran.1.Counts (t.reposOf user .read) (ran.2.reposOf user .read) := by
  intro ran
  have hreplaced : Tables.AccountReplaced now user account named t ran.2 :=
    accountReplaced_replaceAccount ht now named
  have hunion : t.reposOf user .read ∪ ran.2.reposOf user .read =
      t.reposOf user .read ∪ named := by
    ext repo
    rw [ExtTreeSet.mem_union_iff, ExtTreeSet.mem_union_iff, hreplaced.reposOf]
    grind
  obtain ⟨hadded, hremoved⟩ := sizes_replaceAccount ht now user account named
  exact .of_union (hunion ▸ hadded) (hunion ▸ hremoved)

/-- An account tells whether its user had a row. -/
theorem found_replaceAccount (now : Timestamp) (user : UserId) (account : AccountId)
    (named : RepoSet) :
    ((replaceAccount now user account named).exec now t).1.found =
      (t.userRow user .read).isSome := by
  rw [exec_replaceAccount]

end Account

/-! ### A list of aliases -/

/-- A list of aliases counts the names that come to it and those that leave it, each one once. -/
theorem counts_replaceInvited (ht : t.Keyed) (now : Timestamp) (group : AliasGroup)
    (repo : RepoId) (perm : Permission) :
    let ran := (replaceInvited now group repo perm).exec now t
    ran.1.Counts (t.invitedBy repo perm group.provider)
      (ran.2.invitedBy repo perm group.provider) := by
  intro ran
  have hreplaced : Tables.InvitedReplaced now group repo perm t ran.2 :=
    invitedReplaced_replaceInvited ht now group repo perm
  have hnew : ran.2.invitedBy repo perm group.provider = ExtTreeSet.ofList group.bindIds := by
    rw [Tables.invitedBy, hreplaced.invitedRow, if_pos ⟨rfl, rfl, rfl⟩]
    rfl
  have hran : ran = _ := exec_replaceInvited now group repo perm
  rw [hnew]
  constructor
  · rw [hran]
    exact ExtTreeSet.length_toList
  · rw [hran]
    exact ExtTreeSet.length_toList

/-- A list of aliases tells whether the repository had one of that provider. -/
theorem found_replaceInvited (now : Timestamp) (group : AliasGroup) (repo : RepoId)
    (perm : Permission) :
    ((replaceInvited now group repo perm).exec now t).1.found =
      (t.invitedRow repo perm group.provider).isSome := by
  rw [exec_replaceInvited]

end Tx

end RepoAccess
