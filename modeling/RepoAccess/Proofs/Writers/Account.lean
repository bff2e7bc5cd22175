/-
A linked account's repositories, written.

* `RepoHolders.gain` — what happens to the row of a repository that a user gets;
  `Tables.withoutHolder` is what happens to one that a user loses.
* `Tables.Brought`, `Tables.Withdrawn` — what bringing some repositories, and bringing others no
  longer, does to the tables;
* `Tables.AccountReplaced` — what replacing an account's repositories does to them, and
  `Tx.accountReplaced_replaceAccount` — that it does so.

Rows of repositories change only where the user's own row does: a repository that the user had
already, or keeps for another reason, is left alone.
-/
import RepoAccess.Proofs.Writers.Holders

namespace RepoAccess

open Std

/-! ### Rows of repositories -/

namespace RepoHolders

variable {now : Timestamp} {user user' : UserId} {row : RepoHolders}

/-- The row with one more user; it changes only if the user is new to it. -/
def gain (now : Timestamp) (user : UserId) (row : RepoHolders) : RepoHolders :=
  if user ∈ row.users then row else { row with users := row.users.insert user, updatedAt := now }

theorem mem_users_gain : user' ∈ (row.gain now user).users ↔ user' = user ∨ user' ∈ row.users := by
  unfold gain
  split
  · next h =>
    constructor
    · exact .inr
    · rintro (rfl | hmem)
      · exact h
      · exact hmem
  · exact mem_insert_iff

theorem mem_users_withoutHolder :
    user' ∈ (Tables.withoutHolder now user row).users ↔ user' ≠ user ∧ user' ∈ row.users := by
  unfold Tables.withoutHolder
  split
  · exact mem_erase_iff
  · next h =>
    rw [ExtTreeSet.contains_iff_mem] at h
    constructor
    · intro hmem
      refine ⟨?_, hmem⟩
      rintro rfl
      exact h hmem
    · exact And.right

theorem gain_of_mem (h : user ∈ row.users) : row.gain now user = row := if_pos h

theorem gain_gain : (row.gain now user).gain now user = row.gain now user :=
  gain_of_mem (mem_users_gain.2 (.inl rfl))

theorem withoutHolder_of_not_mem (h : user ∉ row.users) :
    Tables.withoutHolder now user row = row := by
  rw [Tables.withoutHolder, if_neg]
  rwa [ExtTreeSet.contains_iff_mem]

theorem withoutHolder_withoutHolder :
    Tables.withoutHolder now user (Tables.withoutHolder now user row) =
      Tables.withoutHolder now user row :=
  withoutHolder_of_not_mem fun h => (mem_users_withoutHolder.1 h).1 rfl

end RepoHolders

/-! ### One user, one repository -/

namespace Tables

/-- The tables agree on everything but the rows of repositories. -/
structure SameButRepos (t t' : Tables) : Prop where
  users : t'.users = t.users
  sources : t'.sources = t.sources
  promises : SamePromises t t'

theorem SameButRepos.refl (t : Tables) : SameButRepos t t := ⟨rfl, rfl, .refl t⟩

theorem SameButRepos.trans {t t₁ t₂ : Tables} (h₁ : SameButRepos t t₁)
    (h₂ : SameButRepos t₁ t₂) : SameButRepos t t₂ :=
  ⟨h₂.users.trans h₁.users, h₂.sources.trans h₁.sources, h₁.promises.trans h₂.promises⟩

theorem SameButRepos.reasons {t t' : Tables} (h : SameButRepos t t') (key : SourceKey) :
    t'.reasons key = t.reasons key := by
  rw [Tables.reasons, h.sources, Tables.reasons]

end Tables

namespace Tx

variable {now : Timestamp} {repo : RepoId} {perm : Permission} {user : UserId} {t : Tables}

theorem exec_addHolder :
    ((addHolder now repo perm user).exec now t).2 =
      let row := (t.repoRow repo perm).getD { repo, perm, updatedAt := now }
      if user ∈ row.users then t else t.after now (.saveRepo (row.gain now user)) := by
  by_cases h : user ∈ ((t.repoRow repo perm).getD { repo, perm, updatedAt := now }).users
  · have h' := h
    rw [Tables.repoRow] at h'
    simp [addHolder, request, exec, Tables.perform, h, h']
  · have h' := h
    rw [Tables.repoRow] at h'
    simp [addHolder, request, exec, Tables.perform, Tables.after, RepoHolders.gain, h, h']
    rfl

/-- Adding a user to a repository changes the repository's row and nothing else. -/
theorem addHolder_spec (ht : t.Keyed) (now : Timestamp) (repo : RepoId) (perm : Permission)
    (user : UserId) :
    Tables.SameButRepos t ((addHolder now repo perm user).exec now t).2 ∧
    ∀ repo' perm', ((addHolder now repo perm user).exec now t).2.repoRow repo' perm' =
      if repo' = repo ∧ perm' = perm then
        some (((t.repoRow repo perm).getD { repo, perm, updatedAt := now }).gain now user)
      else t.repoRow repo' perm' := by
  have hkey : ((t.repoRow repo perm).getD { repo, perm, updatedAt := now }).repo = repo ∧
      ((t.repoRow repo perm).getD { repo, perm, updatedAt := now }).perm = perm := by
    cases h : t.repoRow repo perm with
    | none => exact ⟨rfl, rfl⟩
    | some row => exact ht.repoRow h
  rw [exec_addHolder]
  by_cases hmem : user ∈ ((t.repoRow repo perm).getD { repo, perm, updatedAt := now }).users
  · -- The user is in a row already, so there is one, and it is not written again.
    have hrow : t.repoRow repo perm =
        some ((t.repoRow repo perm).getD { repo, perm, updatedAt := now }) := by
      cases h : t.repoRow repo perm with
      | none => simp [h] at hmem
      | some row => rfl
    simp only [hmem, if_true]
    refine ⟨.refl t, fun repo' perm' => ?_⟩
    grind [RepoHolders.gain_of_mem]
  · simp only [hmem, if_false]
    refine ⟨⟨rfl, rfl, .refl t⟩, fun repo' perm' => ?_⟩
    have hgain : ((t.repoRow repo perm).getD { repo, perm, updatedAt := now }).gain now user =
        { (t.repoRow repo perm).getD { repo, perm, updatedAt := now } with
          users := ((t.repoRow repo perm).getD { repo, perm, updatedAt := now }).users.insert user,
          updatedAt := now } := if_neg hmem
    rw [Tables.repoRow_saveRepo, hgain]
    simp only [hkey]

theorem exec_removeHolder :
    ((removeHolder now repo perm user).exec now t).2 =
      match t.repoRow repo perm with
      | some row =>
        if user ∈ row.users then t.after now (.saveRepo (Tables.withoutHolder now user row)) else t
      | none => t := by
  cases h : t.repoRow repo perm with
  | none =>
    rw [Tables.repoRow] at h
    simp [removeHolder, request, exec, Tables.perform, h]
  | some row =>
    rw [Tables.repoRow] at h
    by_cases hmem : user ∈ row.users
    · simp [removeHolder, request, exec, Tables.perform, Tables.after, Tables.withoutHolder, h,
        hmem]
    · simp [removeHolder, request, exec, Tables.perform, h, hmem]

/-- Taking a user out of a repository changes the repository's row and nothing else. -/
theorem removeHolder_spec (ht : t.Keyed) (now : Timestamp) (repo : RepoId) (perm : Permission)
    (user : UserId) :
    Tables.SameButRepos t ((removeHolder now repo perm user).exec now t).2 ∧
    ∀ repo' perm', ((removeHolder now repo perm user).exec now t).2.repoRow repo' perm' =
      if repo' = repo ∧ perm' = perm then
        (t.repoRow repo perm).map (Tables.withoutHolder now user)
      else t.repoRow repo' perm' := by
  rw [exec_removeHolder]
  cases hrow : t.repoRow repo perm with
  | none =>
    refine ⟨.refl t, fun repo' perm' => ?_⟩
    grind
  | some row =>
    by_cases hmem : user ∈ row.users
    · simp only [hmem, if_true]
      refine ⟨⟨rfl, rfl, .refl t⟩, fun repo' perm' => ?_⟩
      have hkey := Tables.key_withoutHolder now user row
      simp only [RepoHolders.key, RepoKey.mk.injEq] at hkey
      rw [Tables.repoRow_saveRepo, hkey.1, hkey.2, (ht.repoRow hrow).1, (ht.repoRow hrow).2]
      rfl
    · simp only [hmem, if_false]
      refine ⟨.refl t, fun repo' perm' => ?_⟩
      grind [RepoHolders.withoutHolder_of_not_mem]

end Tx

namespace Tables

variable {now : Timestamp} {user : UserId} {account : AccountId} {t : Tables}

/-! ### Repositories that are brought -/

/-- An account brings these repositories to its user, who holds others already. -/
structure Brought (now : Timestamp) (user : UserId) (account : AccountId) (held : RepoSet)
    (repos : List RepoId) (t t' : Tables) : Prop where
  repoRow : ∀ repo perm, t'.repoRow repo perm =
    if perm = .read ∧ repo ∈ repos ∧ repo ∉ held then
      some (((t.repoRow repo perm).getD { repo, perm, updatedAt := now }).gain now user)
    else t.repoRow repo perm
  reasons : ∀ user' perm repo, t'.reasons ⟨user', perm, repo⟩ =
    if user' = user ∧ perm = .read ∧ repo ∈ repos then
      (t.reasons ⟨user', perm, repo⟩).insert (.account account)
    else t.reasons ⟨user', perm, repo⟩
  users : t'.users = t.users
  promises : SamePromises t t'

theorem Brought.nil {held : RepoSet} : Brought now user account held [] t t :=
  ⟨by simp, by simp, rfl, .refl t⟩

/-! ### Repositories that are brought no longer -/

/-- An account brings these repositories no longer; its user keeps some of them all the same. -/
structure Withdrawn (now : Timestamp) (user : UserId) (account : AccountId)
    (keeps : RepoId → Bool) (repos : List RepoId) (t t' : Tables) : Prop where
  repoRow : ∀ repo perm, t'.repoRow repo perm =
    if perm = .read ∧ repo ∈ repos ∧ keeps repo = false then
      (t.repoRow repo perm).map (withoutHolder now user)
    else t.repoRow repo perm
  reasons : ∀ user' perm repo, t'.reasons ⟨user', perm, repo⟩ =
    if user' = user ∧ perm = .read ∧ repo ∈ repos then
      (t.reasons ⟨user', perm, repo⟩).erase (.account account)
    else t.reasons ⟨user', perm, repo⟩
  users : t'.users = t.users
  promises : SamePromises t t'

theorem Withdrawn.nil {keeps : RepoId → Bool} : Withdrawn now user account keeps [] t t :=
  ⟨by simp, by simp, rfl, .refl t⟩

/-! ### All the repositories of an account -/

/-- An account that no longer brings the repository takes it from the user: it did bring it, and no
other reason is left. -/
def Leaves (t : Tables) (user : UserId) (account : AccountId) (named : RepoSet) (repo : RepoId) :
    Prop :=
  repo ∉ named ∧ .account account ∈ t.reasons ⟨user, .read, repo⟩ ∧
    t.NoOther ⟨user, .read, repo⟩ (.account account)

instance (t : Tables) (user : UserId) (account : AccountId) (named : RepoSet) (repo : RepoId) :
    Decidable (t.Leaves user account named repo) :=
  inferInstanceAs (Decidable (_ ∧ _))

/-- An account's repositories are replaced by these. -/
structure AccountReplaced (now : Timestamp) (user : UserId) (account : AccountId)
    (named : RepoSet) (t t' : Tables) : Prop where
  userRow : ∀ user' perm, t'.userRow user' perm =
    if user' = user ∧ perm = .read then
      some { (t.userRow user .read).getD { user, perm := .read, updatedAt := now } with
        repos := t'.reposOf user .read, updatedAt := now, syncedAt := some now }
    else t.userRow user' perm
  reposOf : ∀ repo, repo ∈ t'.reposOf user .read ↔
    repo ∈ named ∨ repo ∈ t.reposOf user .read ∧ ¬ t.Leaves user account named repo
  repoRow : ∀ repo perm, t'.repoRow repo perm =
    if perm = .read ∧ repo ∈ named ∧ repo ∉ t.reposOf user .read then
      some (((t.repoRow repo perm).getD { repo, perm, updatedAt := now }).gain now user)
    else if perm = .read ∧ t.Leaves user account named repo then
      (t.repoRow repo perm).map (withoutHolder now user)
    else t.repoRow repo perm
  reasons : ∀ user' perm repo, t'.reasons ⟨user', perm, repo⟩ =
    if user' = user ∧ perm = .read then
      if repo ∈ named then (t.reasons ⟨user', perm, repo⟩).insert (.account account)
      else (t.reasons ⟨user', perm, repo⟩).erase (.account account)
    else t.reasons ⟨user', perm, repo⟩
  promises : SamePromises t t'

namespace AccountReplaced

variable {named : RepoSet} {t' : Tables}

/-- What a user may access afterwards. -/
theorem mem_reposOf (h : AccountReplaced now user account named t t') {user' : UserId}
    {perm : Permission} {repo : RepoId} :
    repo ∈ t'.reposOf user' perm ↔
      if user' = user ∧ perm = .read then
        repo ∈ named ∨ repo ∈ t.reposOf user .read ∧ ¬ t.Leaves user account named repo
      else repo ∈ t.reposOf user' perm := by
  split
  · next hslot =>
    rw [hslot.1, hslot.2]
    exact h.reposOf repo
  · next hslot => rw [Tables.reposOf, h.userRow, if_neg hslot, Tables.reposOf]

/-- Who may access a repository afterwards. -/
theorem mem_usersOf (h : AccountReplaced now user account named t t') {repo : RepoId}
    {perm : Permission} {user' : UserId} :
    user' ∈ t'.usersOf repo perm ↔
      user' = user ∧ perm = .read ∧ repo ∈ named ∧ repo ∉ t.reposOf user .read ∨
      user' ∈ t.usersOf repo perm ∧
        ¬ (user' = user ∧ perm = .read ∧ t.Leaves user account named repo) := by
  rw [mem_usersOf_iff, h.repoRow]
  by_cases hperm : perm = .read
  · subst hperm
    by_cases hnew : repo ∈ named ∧ repo ∉ t.reposOf user .read
    · cases hrow : t.repoRow repo .read <;>
        simp [hnew, hrow, RepoHolders.mem_users_gain, mem_usersOf_iff, Leaves]
    · by_cases hlost : t.Leaves user account named repo <;> cases hrow : t.repoRow repo .read <;>
        simp [hnew, hlost, hrow, RepoHolders.mem_users_withoutHolder, mem_usersOf_iff]
      all_goals grind
  · simp [hperm, mem_usersOf_iff]

/-- Which sources there are afterwards. -/
theorem mem_reasons (h : AccountReplaced now user account named t t') {user' : UserId}
    {perm : Permission} {repo : RepoId} {source : Source} :
    source ∈ t'.reasons ⟨user', perm, repo⟩ ↔
      if source = .account account ∧ user' = user ∧ perm = .read then repo ∈ named
      else source ∈ t.reasons ⟨user', perm, repo⟩ := by
  rw [h.reasons]
  by_cases hslot : user' = user ∧ perm = .read
  · rw [if_pos hslot, mem_insert_or_erase_iff]
    simp only [hslot, and_self, and_true]
  · rw [if_neg hslot, if_neg fun hall => hslot hall.2]

end AccountReplaced

end Tables

namespace Tx

variable {user : UserId} {account : AccountId} {t : Tables}

/-- Whether the reasons found before keep the repository when the account no longer brings it. -/
def keeps (before : ExtTreeMap RepoId SourceSet) (account : AccountId) (repo : RepoId) : Bool :=
  (before.getD repo ∅).toList.any (· != .account account)

theorem keeps_userSources {perm : Permission} {repo : RepoId} :
    keeps (t.userSources user perm) account repo = false ↔
      t.NoOther ⟨user, perm, repo⟩ (.account account) := by
  rw [keeps, Tables.getD_userSources, Tables.noOther_iff]
  simp

theorem exec_bring (now : Timestamp) (progress : RepoSet × Nat) (repo : RepoId) :
    (bring now user account progress repo).exec now t =
      let given := t.after now (.addSource user .read repo (.account account))
      if repo ∈ progress.1 then (progress, given)
      else ((progress.1.insert repo, progress.2 + 1),
        ((addHolder now repo .read user).exec now given).2) := by
  by_cases h : repo ∈ progress.1
  · simp [bring, request, exec, Tables.perform, Tables.after, h]
  · simp [bring, request, exec, Tables.perform, Tables.after, h]

theorem exec_drop (now : Timestamp) (before : ExtTreeMap RepoId SourceSet)
    (progress : RepoSet × Nat) (repo : RepoId) :
    (drop now user account before progress repo).exec now t =
      let left := t.after now (.removeSource user .read repo (.account account))
      if keeps before account repo = true then (progress, left)
      else ((progress.1.erase repo, if repo ∈ progress.1 then progress.2 + 1 else progress.2),
        ((removeHolder now repo .read user).exec now left).2) := by
  cases h : keeps before account repo with
  | true =>
    rw [keeps] at h
    simp only [drop, h, if_true]
    rfl
  | false =>
    rw [keeps] at h
    simp only [drop, h, Bool.false_eq_true, if_false, exec_bind, exec_pure,
      ← ExtTreeSet.contains_iff_mem]
    rfl

theorem brought_foldlM (now : Timestamp) (user : UserId) (account : AccountId) (repos : List RepoId)
    (progress : RepoSet × Nat) (ht : t.Keyed) :
    Tables.Brought now user account progress.1 repos t
      ((repos.foldlM (bring now user account) progress).exec now t).2 ∧
    ∀ repo, repo ∈ ((repos.foldlM (bring now user account) progress).exec now t).1.1 ↔
      repo ∈ progress.1 ∨ repo ∈ repos := by
  refine foldlM_keeps (P := fun done (progress' : RepoSet × Nat) t' =>
    Tables.Brought now user account progress.1 done t t' ∧
      ∀ repo, repo ∈ progress'.1 ↔ repo ∈ progress.1 ∨ repo ∈ done) ?_ repos ht ⟨.nil, by simp⟩
  intro done progress' t' repo ht' hdone
  obtain ⟨hbrought, hmem⟩ := hdone
  -- One turn gives a reason, and adds the user to the repository unless it is held already.
  have hkeyed := ht'.after now (.addSource user .read repo (.account account))
  obtain ⟨hsame, hrow⟩ := addHolder_spec hkeyed now repo .read user
  have hreasons : ∀ user' perm' repo',
      (t'.after now (.addSource user .read repo (.account account))).reasons ⟨user', perm', repo'⟩ =
        if user' = user ∧ perm' = .read ∧ repo' ∈ done ++ [repo] then
          (t.reasons ⟨user', perm', repo'⟩).insert (.account account)
        else t.reasons ⟨user', perm', repo'⟩ := by
    intro user' perm' repo'
    rw [Tables.reasons_addSource, hbrought.reasons]
    by_cases hdone : repo' ∈ done
    · grind [insert_insert_self]
    · simp [hdone]
  rw [exec_bring]
  by_cases hheld : repo ∈ progress'.1
  · simp only [hheld, if_true]
    refine ⟨⟨fun repo' perm' => ?_, hreasons, hbrought.users, hbrought.promises⟩, fun repo' => ?_⟩
    · rw [Tables.repoRow_addSource, hbrought.repoRow]
      grind
    · grind
  · simp only [hheld, if_false]
    refine ⟨⟨fun repo' perm' => ?_, fun user' perm' repo' => ?_, hsame.users.trans hbrought.users,
      hbrought.promises.trans hsame.promises⟩, fun repo' => ?_⟩
    · rw [hrow, Tables.repoRow_addSource, Tables.repoRow_addSource, hbrought.repoRow,
        hbrought.repoRow]
      grind
    · rw [hsame.reasons, hreasons]
    · rw [mem_insert_iff, hmem, List.mem_append, List.mem_singleton]
      grind

theorem withdrawn_foldlM (now : Timestamp) (user : UserId) (account : AccountId)
    (before : ExtTreeMap RepoId SourceSet) (repos : List RepoId) (progress : RepoSet × Nat)
    (ht : t.Keyed) :
    Tables.Withdrawn now user account (keeps before account) repos t
      ((repos.foldlM (drop now user account before) progress).exec now t).2 ∧
    ∀ repo, repo ∈ ((repos.foldlM (drop now user account before) progress).exec now t).1.1 ↔
      repo ∈ progress.1 ∧ ¬ (repo ∈ repos ∧ keeps before account repo = false) := by
  refine foldlM_keeps (P := fun done (progress' : RepoSet × Nat) t' =>
    Tables.Withdrawn now user account (keeps before account) done t t' ∧
      ∀ repo, repo ∈ progress'.1 ↔
        repo ∈ progress.1 ∧ ¬ (repo ∈ done ∧ keeps before account repo = false))
    ?_ repos ht ⟨.nil, by simp⟩
  intro done progress' t' repo ht' hdone
  obtain ⟨hwithdrawn, hmem⟩ := hdone
  -- One turn takes a reason, and takes the user out of the repository unless another one keeps it.
  have hkeyed := ht'.after now (.removeSource user .read repo (.account account))
  obtain ⟨hsame, hrow⟩ := removeHolder_spec hkeyed now repo .read user
  have hreasons : ∀ user' perm' repo',
      (t'.after now (.removeSource user .read repo (.account account))).reasons
          ⟨user', perm', repo'⟩ =
        if user' = user ∧ perm' = .read ∧ repo' ∈ done ++ [repo] then
          (t.reasons ⟨user', perm', repo'⟩).erase (.account account)
        else t.reasons ⟨user', perm', repo'⟩ := by
    intro user' perm' repo'
    rw [Tables.reasons_removeSource, hwithdrawn.reasons]
    by_cases hdone : repo' ∈ done
    · grind [erase_erase_self]
    · simp [hdone]
  rw [exec_drop]
  cases hkeeps : keeps before account repo with
  | true =>
    refine ⟨⟨fun repo' perm' => ?_, hreasons, hwithdrawn.users, hwithdrawn.promises⟩,
      fun repo' => ?_⟩
    · rw [if_pos rfl, Tables.repoRow_removeSource, hwithdrawn.repoRow]
      grind
    · rw [if_pos rfl, hmem]
      grind
  | false =>
    simp only [Bool.false_eq_true, if_false]
    refine ⟨⟨fun repo' perm' => ?_, fun user' perm' repo' => ?_,
      hsame.users.trans hwithdrawn.users, hwithdrawn.promises.trans hsame.promises⟩,
      fun repo' => ?_⟩
    · rw [hrow, Tables.repoRow_removeSource, Tables.repoRow_removeSource, hwithdrawn.repoRow,
        hwithdrawn.repoRow]
      cases hold : t.repoRow repo' perm' <;>
        grind [RepoHolders.withoutHolder_withoutHolder]
    · rw [hsame.reasons, hreasons]
    · rw [mem_erase_iff, hmem, List.mem_append, List.mem_singleton]
      grind

/-- The repositories that the account brings no longer. -/
def abandoned (t : Tables) (user : UserId) (account : AccountId) (named : RepoSet) : List RepoId :=
  (t.userSources user .read).toList.filterMap fun (repo, reasons) =>
    if reasons.contains (.account account) && !named.contains repo then some repo else none

theorem mem_abandoned {named : RepoSet} {repo : RepoId} :
    repo ∈ abandoned t user account named ↔
      repo ∉ named ∧ .account account ∈ t.reasons ⟨user, .read, repo⟩ := by
  rw [abandoned, ← Tables.mem_userSources_iff]
  simp
  grind

theorem exec_replaceAccount (now : Timestamp) (named : RepoSet) :
    (replaceAccount now user account named).exec now t =
      let row := (t.userRow user .read).getD { user, perm := .read, updatedAt := now }
      let added := (named.toList.foldlM (bring now user account) (row.repos, 0)).exec now t
      let left := ((abandoned t user account named).foldlM
        (drop now user account (t.userSources user .read)) (added.1.1, 0)).exec now added.2
      ({ added := added.1.2, removed := left.1.2, found := (t.userRow user .read).isSome },
        left.2.after now (.saveUser
          { row with repos := left.1.1, updatedAt := now, syncedAt := some now })) := by
  simp only [replaceAccount, exec_bind, exec_pure, abandoned]
  rfl

/-- Replacing an account's repositories does to the tables exactly this. -/
theorem accountReplaced_replaceAccount (ht : t.Keyed) (now : Timestamp) (named : RepoSet) :
    Tables.AccountReplaced now user account named t
      ((replaceAccount now user account named).exec now t).2 := by
  rw [exec_replaceAccount]
  -- The row that the account starts from, be it stored or fresh.
  have hrow : ((t.userRow user .read).getD { user, perm := .read, updatedAt := now }).user = user ∧
      ((t.userRow user .read).getD { user, perm := .read, updatedAt := now }).perm = .read ∧
      ((t.userRow user .read).getD { user, perm := .read, updatedAt := now }).repos =
        t.reposOf user .read := by
    rw [Tables.reposOf]
    cases h : t.userRow user .read with
    | none => exact ⟨rfl, rfl, rfl⟩
    | some row => exact ⟨(ht.userRow h).1, (ht.userRow h).2, rfl⟩
  dsimp only
  generalize hfresh : (t.userRow user .read).getD { user, perm := .read, updatedAt := now } = row
    at hrow ⊢
  obtain ⟨huser, hperm, hrepos⟩ := hrow
  -- First everything that is brought, then everything that was and is no longer. The second loop
  -- judges by the reasons before the first one.
  obtain ⟨hbrought, hadded⟩ := brought_foldlM now user account named.toList (row.repos, 0) ht
  have hkeyed := ht.exec now (named.toList.foldlM (bring now user account) (row.repos, 0))
  generalize (named.toList.foldlM (bring now user account) (row.repos, 0)).exec now t = added at *
  obtain ⟨hwithdrawn, hleft⟩ := withdrawn_foldlM now user account
    (t.userSources user .read) (abandoned t user account named) (added.1.1, 0) hkeyed
  generalize ((abandoned t user account named).foldlM
    (drop now user account (t.userSources user .read)) (added.1.1, 0)).exec now added.2 = left at *
  have hmember : ∀ repo, repo ∈ left.1.1 ↔
      repo ∈ named ∨ repo ∈ t.reposOf user .read ∧ ¬ t.Leaves user account named repo := by
    intro repo
    rw [hleft, hadded, ExtTreeSet.mem_toList, mem_abandoned, keeps_userSources, hrepos,
      Tables.Leaves]
    grind
  have hslot : (left.2.after now (.saveUser
      { row with repos := left.1.1, updatedAt := now, syncedAt := some now })).reposOf user .read =
        left.1.1 := by
    simp [Tables.reposOf, Tables.userRow_saveUser, huser, hperm]
  refine ⟨fun user' perm => ?_, fun repo => ?_, fun repo perm => ?_,
    fun user' perm repo => ?_, ?_⟩
  · have hother : left.2.userRow user' perm = t.userRow user' perm := by
      rw [Tables.userRow, hwithdrawn.users, hbrought.users, Tables.userRow]
    rw [Tables.userRow_saveUser, hslot, hfresh, hother]
    simp only [huser, hperm]
  · rw [hslot, hmember]
  · show left.2.repoRow repo perm = _
    simp only [hwithdrawn.repoRow, hbrought.repoRow, hrepos, ExtTreeSet.mem_toList, mem_abandoned,
      keeps_userSources, Tables.Leaves]
    grind
  · show left.2.reasons ⟨user', perm, repo⟩ = _
    simp only [hwithdrawn.reasons, hbrought.reasons, ExtTreeSet.mem_toList, mem_abandoned]
    by_cases hslot : user' = user ∧ perm = .read
    · obtain ⟨rfl, rfl⟩ := hslot
      by_cases hnamed : repo ∈ named
      · simp [hnamed]
      · -- What the account did not bring there is nothing to withdraw from.
        by_cases hbring : .account account ∈ t.reasons ⟨user', .read, repo⟩
        · simp [hnamed, hbring]
        · simp [hnamed, hbring, erase_of_not_mem hbring]
    · grind
  · exact hbrought.promises.trans hwithdrawn.promises

end Tx

end RepoAccess
