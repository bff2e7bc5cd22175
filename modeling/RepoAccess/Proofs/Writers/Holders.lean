/-
A repository's own list, written.

* `UserHoldings.gain`, `UserHoldings.lose` — what happens to one user's row;
* `Tables.Synced`, `Tables.Dismissed` — what naming some users, and no longer naming others, does to
  the tables;
* `Tables.HoldersReplaced` — what replacing the list does to them, and
  `Tx.holdersReplaced_replaceHolders` — that it does so.

A user who is named gets the repository with the list as a reason. One who is not named any more
loses that reason, and the repository with it if no other reason is left.
-/
import RepoAccess.Proofs.Rows

namespace RepoAccess

open Std

/-! ### Rows of users -/

namespace UserHoldings

variable {now : Timestamp} {repo repo' : RepoId} {row : UserHoldings}

/-- The row with one more repository; it changes only if the repository is new to it. -/
def gain (now : Timestamp) (repo : RepoId) (row : UserHoldings) : UserHoldings :=
  if repo ∈ row.repos then row else { row with repos := row.repos.insert repo, updatedAt := now }

/-- The row without a repository. -/
def lose (now : Timestamp) (repo : RepoId) (row : UserHoldings) : UserHoldings :=
  { row with repos := row.repos.erase repo, updatedAt := now }

theorem mem_repos_gain : repo' ∈ (row.gain now repo).repos ↔ repo' = repo ∨ repo' ∈ row.repos := by
  unfold gain
  split
  · next h =>
    constructor
    · exact .inr
    · rintro (rfl | hmem)
      · exact h
      · exact hmem
  · exact mem_insert_iff

theorem mem_repos_lose : repo' ∈ (row.lose now repo).repos ↔ repo' ≠ repo ∧ repo' ∈ row.repos :=
  mem_erase_iff

theorem key_gain : (row.gain now repo).user = row.user ∧ (row.gain now repo).perm = row.perm := by
  unfold gain
  split <;> exact ⟨rfl, rfl⟩

theorem gain_of_mem (h : repo ∈ row.repos) : row.gain now repo = row := if_pos h

theorem gain_gain : (row.gain now repo).gain now repo = row.gain now repo :=
  gain_of_mem (mem_repos_gain.2 (.inl rfl))

theorem lose_lose : (row.lose now repo).lose now repo = row.lose now repo := by
  simp only [lose, erase_erase_self]

end UserHoldings

namespace Tables

/-- The tables agree on promises and on overlays. -/
def SamePromises (t t' : Tables) : Prop :=
  t'.pending = t.pending ∧ t'.invited = t.invited ∧ t'.overlays = t.overlays

theorem SamePromises.refl (t : Tables) : SamePromises t t := ⟨rfl, rfl, rfl⟩

theorem SamePromises.trans {t t₁ t₂ : Tables} (h₁ : SamePromises t t₁) (h₂ : SamePromises t₁ t₂) :
    SamePromises t t₂ := by
  obtain ⟨hpending₁, hinvited₁, hoverlays₁⟩ := h₁
  obtain ⟨hpending₂, hinvited₂, hoverlays₂⟩ := h₂
  exact ⟨hpending₂.trans hpending₁, hinvited₂.trans hinvited₁, hoverlays₂.trans hoverlays₁⟩

theorem SamePromises.promisedTo {t t' : Tables} (h : SamePromises t t') (holder : Alias)
    (perm : Permission) : t'.promisedTo holder perm = t.promisedTo holder perm := by
  rw [Tables.promisedTo, pendingRow, h.1, Tables.promisedTo, pendingRow]

theorem SamePromises.invitedBy {t t' : Tables} (h : SamePromises t t') (repo : RepoId)
    (perm : Permission) (provider : Provider) :
    t'.invitedBy repo perm provider = t.invitedBy repo perm provider := by
  rw [Tables.invitedBy, invitedRow, h.2.1, Tables.invitedBy, invitedRow]

variable {now : Timestamp} {repo : RepoId} {perm : Permission} {t t₁ t₂ : Tables}

/-! ### Users who are named -/

/-- A repository's list names these users. -/
structure Synced (now : Timestamp) (repo : RepoId) (perm : Permission) (users : List UserId)
    (t t' : Tables) : Prop where
  userRow : ∀ user perm', t'.userRow user perm' =
    if user ∈ users ∧ perm' = perm then
      some (((t.userRow user perm).getD { user, perm, updatedAt := now }).gain now repo)
    else t.userRow user perm'
  reasons : ∀ user perm' repo', t'.reasons ⟨user, perm', repo'⟩ =
    if user ∈ users ∧ perm' = perm ∧ repo' = repo then
      (t.reasons ⟨user, perm', repo'⟩).insert .repoSync
    else t.reasons ⟨user, perm', repo'⟩
  repos : t'.repos = t.repos
  promises : SamePromises t t'

theorem Synced.nil : Synced now repo perm [] t t :=
  ⟨by simp, by simp, rfl, .refl t⟩

/-- Naming users one after another is naming them all; naming one twice is naming it once. -/
theorem Synced.append {users users' : List UserId} (h₁ : Synced now repo perm users t t₁)
    (h₂ : Synced now repo perm users' t₁ t₂) : Synced now repo perm (users ++ users') t t₂ where
  userRow := by
    intro user perm'
    simp only [h₂.userRow, h₁.userRow, List.mem_append]
    by_cases hperm : perm' = perm
    · subst hperm
      by_cases hmem : user ∈ users
      · by_cases hmem' : user ∈ users' <;> simp [hmem, hmem', UserHoldings.gain_gain]
      · simp [hmem]
    · simp [hperm]
  reasons := by
    intro user perm' repo'
    rw [h₂.reasons, h₁.reasons]
    by_cases hslot : perm' = perm ∧ repo' = repo
    · by_cases hmem : user ∈ users
      · by_cases hmem' : user ∈ users' <;>
          simp [hslot, hmem, hmem', insert_insert_self]
      · simp [hslot, hmem]
    · simp [hslot]
  repos := h₂.repos.trans h₁.repos
  promises := h₁.promises.trans h₂.promises

theorem Synced.noOther_iff {users : List UserId} (h : Synced now repo perm users t t₁)
    (user : UserId) :
    t₁.NoOther ⟨user, perm, repo⟩ .repoSync ↔ t.NoOther ⟨user, perm, repo⟩ .repoSync := by
  apply noOther_congr
  intro other hother
  rw [h.reasons]
  split
  · simp [hother.symm]
  · rfl

/-! ### Users who are named no longer -/

/-- A repository's list names these users no longer. -/
structure Dismissed (now : Timestamp) (repo : RepoId) (perm : Permission) (users : List UserId)
    (t t' : Tables) : Prop where
  userRow : ∀ user perm', t'.userRow user perm' =
    if user ∈ users ∧ perm' = perm ∧ t.NoOther ⟨user, perm, repo⟩ .repoSync then
      (t.userRow user perm').map (·.lose now repo)
    else t.userRow user perm'
  reasons : ∀ user perm' repo', t'.reasons ⟨user, perm', repo'⟩ =
    if user ∈ users ∧ perm' = perm ∧ repo' = repo then
      (t.reasons ⟨user, perm', repo'⟩).erase .repoSync
    else t.reasons ⟨user, perm', repo'⟩
  repos : t'.repos = t.repos
  promises : SamePromises t t'

theorem Dismissed.nil : Dismissed now repo perm [] t t :=
  ⟨by simp, by simp, rfl, .refl t⟩

/-- Taking a user off the list leaves every other reason as it was. -/
theorem Dismissed.noOther_iff {users : List UserId} (h : Dismissed now repo perm users t t₁)
    (user : UserId) :
    t₁.NoOther ⟨user, perm, repo⟩ .repoSync ↔ t.NoOther ⟨user, perm, repo⟩ .repoSync := by
  apply noOther_congr
  intro other hother
  rw [h.reasons]
  split
  · simp [hother.symm]
  · rfl

theorem Dismissed.append {users users' : List UserId} (h₁ : Dismissed now repo perm users t t₁)
    (h₂ : Dismissed now repo perm users' t₁ t₂) :
    Dismissed now repo perm (users ++ users') t t₂ where
  userRow := by
    intro user perm'
    simp only [h₂.userRow, h₁.userRow, h₁.noOther_iff, List.mem_append]
    by_cases hlost : perm' = perm ∧ t.NoOther ⟨user, perm, repo⟩ .repoSync
    · by_cases hmem : user ∈ users
      · by_cases hmem' : user ∈ users' <;> cases t.userRow user perm' <;>
          simp_all [UserHoldings.lose_lose]
      · simp [hmem]
    · simp [hlost]
  reasons := by
    intro user perm' repo'
    rw [h₂.reasons, h₁.reasons]
    by_cases hslot : perm' = perm ∧ repo' = repo
    · by_cases hmem : user ∈ users
      · by_cases hmem' : user ∈ users' <;>
          simp [hslot, hmem, hmem', erase_erase_self]
      · simp [hslot, hmem]
    · simp [hslot]
  repos := h₂.repos.trans h₁.repos
  promises := h₁.promises.trans h₂.promises

/-! ### The whole list -/

/-- A list without the user takes the repository from the user: no other reason is left. A user in
the repository's row without any reason counts as named before. -/
def Loses (t : Tables) (repo : RepoId) (perm : Permission) (named : UserSet) (user : UserId) :
    Prop :=
  user ∉ named ∧ (user ∈ t.usersOf repo perm ∨ .repoSync ∈ t.reasons ⟨user, perm, repo⟩) ∧
    t.NoOther ⟨user, perm, repo⟩ .repoSync

instance (t : Tables) (repo : RepoId) (perm : Permission) (named : UserSet) (user : UserId) :
    Decidable (t.Loses repo perm named user) :=
  inferInstanceAs (Decidable (_ ∧ _))

/-- A repository's list is replaced by these users. -/
structure HoldersReplaced (now : Timestamp) (repo : RepoId) (perm : Permission) (named : UserSet)
    (t t' : Tables) : Prop where
  userRow : ∀ user perm', t'.userRow user perm' =
    if perm' = perm ∧ user ∈ named then
      some (((t.userRow user perm).getD { user, perm, updatedAt := now }).gain now repo)
    else if perm' = perm ∧ t.Loses repo perm named user then
      (t.userRow user perm').map (·.lose now repo)
    else t.userRow user perm'
  repoRow : ∀ repo' perm', t'.repoRow repo' perm' =
    if repo' = repo ∧ perm' = perm then
      some { (t.repoRow repo perm).getD { repo, perm, updatedAt := now } with
        users := t'.usersOf repo perm, updatedAt := now, syncedAt := some now }
    else t.repoRow repo' perm'
  usersOf : ∀ user, user ∈ t'.usersOf repo perm ↔
    user ∈ named ∨ user ∈ t.usersOf repo perm ∧ ¬ t.NoOther ⟨user, perm, repo⟩ .repoSync
  reasons : ∀ user perm' repo', t'.reasons ⟨user, perm', repo'⟩ =
    if perm' = perm ∧ repo' = repo then
      if user ∈ named then (t.reasons ⟨user, perm', repo'⟩).insert .repoSync
      else (t.reasons ⟨user, perm', repo'⟩).erase .repoSync
    else t.reasons ⟨user, perm', repo'⟩
  promises : SamePromises t t'

namespace HoldersReplaced

variable {named : UserSet} {t' : Tables}

/-- What a user may access afterwards. -/
theorem mem_reposOf (h : HoldersReplaced now repo perm named t t') {user : UserId}
    {perm' : Permission} {repo' : RepoId} :
    repo' ∈ t'.reposOf user perm' ↔
      if perm' = perm ∧ repo' = repo then
        user ∈ named ∨ repo ∈ t.reposOf user perm ∧ ¬ t.Loses repo perm named user
      else repo' ∈ t.reposOf user perm' := by
  rw [mem_reposOf_iff, h.userRow]
  by_cases hperm : perm' = perm
  · subst hperm
    by_cases hnamed : user ∈ named
    · cases hrow : t.userRow user perm' <;>
        simp [hnamed, hrow, UserHoldings.mem_repos_gain, mem_reposOf_iff]
      grind
    · by_cases hlost : t.Loses repo perm' named user <;> cases hrow : t.userRow user perm' <;>
        simp [hnamed, hlost, hrow, UserHoldings.mem_repos_lose, mem_reposOf_iff]
      all_goals grind
  · simp [hperm, mem_reposOf_iff]

/-- Who may access a repository afterwards. -/
theorem mem_usersOf (h : HoldersReplaced now repo perm named t t') {repo' : RepoId}
    {perm' : Permission} {user : UserId} :
    user ∈ t'.usersOf repo' perm' ↔
      if perm' = perm ∧ repo' = repo then
        user ∈ named ∨ user ∈ t.usersOf repo perm ∧ ¬ t.NoOther ⟨user, perm, repo⟩ .repoSync
      else user ∈ t.usersOf repo' perm' := by
  split
  · next hslot =>
    rw [hslot.1, hslot.2]
    exact h.usersOf user
  · next hslot =>
    rw [Tables.usersOf, h.repoRow, if_neg fun hboth => hslot ⟨hboth.2, hboth.1⟩, Tables.usersOf]

/-- Which sources there are afterwards. -/
theorem mem_reasons (h : HoldersReplaced now repo perm named t t') {user : UserId}
    {perm' : Permission} {repo' : RepoId} {source : Source} :
    source ∈ t'.reasons ⟨user, perm', repo'⟩ ↔
      if source = .repoSync ∧ perm' = perm ∧ repo' = repo then user ∈ named
      else source ∈ t.reasons ⟨user, perm', repo'⟩ := by
  rw [h.reasons]
  by_cases hslot : perm' = perm ∧ repo' = repo
  · rw [if_pos hslot, mem_insert_or_erase_iff]
    simp only [hslot, and_self, and_true]
  · rw [if_neg hslot, if_neg fun hall => hslot hall.2]

end HoldersReplaced

end Tables

namespace Tx

variable {now : Timestamp} {repo : RepoId} {perm : Permission} {t : Tables}

theorem exec_userRow (user : UserId) :
    (userRow now user perm).exec now t =
      ((t.userRow user perm).getD { user, perm, updatedAt := now }, t) := by
  rw [userRow, exec_bind, exec_pure]
  rfl

theorem exec_addSynced (progress : UserSet × Nat) (user : UserId) :
    (addSynced now repo perm progress user).exec now t =
      let row := (t.userRow user perm).getD { user, perm, updatedAt := now }
      let given := t.after now (.addSource user perm repo .repoSync)
      ((progress.1.insert user, if user ∈ progress.1 then progress.2 else progress.2 + 1),
        if repo ∈ row.repos then given else given.after now (.saveUser (row.gain now repo))) := by
  by_cases h : repo ∈ ((t.userRow user perm).getD { user, perm, updatedAt := now }).repos
  · simp [addSynced, exec_userRow, request, exec, Tables.perform, Tables.after, h]
  · simp [addSynced, exec_userRow, request, exec, Tables.perform, Tables.after, h,
      UserHoldings.gain]

theorem synced_addSynced (ht : t.Keyed) (progress : UserSet × Nat) (user : UserId) :
    Tables.Synced now repo perm [user] t
      ((addSynced now repo perm progress user).exec now t).2 := by
  have hkey : ((t.userRow user perm).getD { user, perm, updatedAt := now }).user = user ∧
      ((t.userRow user perm).getD { user, perm, updatedAt := now }).perm = perm := by
    cases h : t.userRow user perm with
    | none => exact ⟨rfl, rfl⟩
    | some row => exact ht.userRow h
  rw [exec_addSynced]
  by_cases hmem : repo ∈ ((t.userRow user perm).getD { user, perm, updatedAt := now }).repos
  · -- The repository is in a row already, so there is one, and it is not written again.
    have hrow : t.userRow user perm =
        some ((t.userRow user perm).getD { user, perm, updatedAt := now }) := by
      cases h : t.userRow user perm with
      | none => simp [h] at hmem
      | some row => rfl
    simp only [hmem, if_true]
    refine ⟨fun user' perm' => ?_, fun user' perm' repo' => ?_, rfl, .refl t⟩
    · grind [Tables.userRow_addSource, UserHoldings.gain_of_mem]
    · simp [Tables.reasons_addSource]
  · simp only [hmem, if_false]
    refine ⟨fun user' perm' => ?_, fun user' perm' repo' => ?_, rfl, .refl t⟩
    · grind [Tables.userRow_saveUser, Tables.userRow_addSource, UserHoldings.key_gain]
    · simp [Tables.reasons_addSource]

theorem exec_dismiss (progress : UserSet × Nat) (user : UserId) :
    (dismiss now repo perm progress user).exec now t =
      let left := t.after now (.removeSource user perm repo .repoSync)
      if t.NoOther ⟨user, perm, repo⟩ .repoSync then
        ((progress.1.erase user, if user ∈ progress.1 then progress.2 + 1 else progress.2),
          match t.userRow user perm with
          | some row => left.after now (.saveUser (row.lose now repo))
          | none => left)
      else (progress, left) := by
  have hleft : (t.removeReason ⟨user, perm, repo⟩ .repoSync).reasons ⟨user, perm, repo⟩ =
      (t.reasons ⟨user, perm, repo⟩).erase .repoSync := by
    have h : (t.after now (.removeSource user perm repo .repoSync)).reasons ⟨user, perm, repo⟩ =
        _ :=
      t.reasons_removeSource user perm repo .repoSync ⟨user, perm, repo⟩
    rwa [if_pos rfl] at h
  by_cases hother : t.NoOther ⟨user, perm, repo⟩ .repoSync
  · have hempty := hleft.trans hother
    cases h : t.userRow user perm with
    | none =>
      have h' : t.users[(⟨user, perm⟩ : UserKey)]? = none := h
      simp [dismiss, request, exec, Tables.perform, Tables.after, Tables.getD_userSources, h',
        hempty, hother]
    | some row =>
      have h' : t.users[(⟨user, perm⟩ : UserKey)]? = some row := h
      simp [dismiss, request, exec, Tables.perform, Tables.after, Tables.getD_userSources,
        UserHoldings.lose, h', hempty, hother]
  · have hsome :
        ¬ (t.removeReason ⟨user, perm, repo⟩ .repoSync).reasons ⟨user, perm, repo⟩ = ∅ := by
      rwa [hleft]
    simp [dismiss, request, exec, Tables.perform, Tables.after, Tables.getD_userSources, hother,
      hsome]

theorem dismissed_dismiss (ht : t.Keyed) (progress : UserSet × Nat) (user : UserId) :
    Tables.Dismissed now repo perm [user] t
      ((dismiss now repo perm progress user).exec now t).2 := by
  rw [exec_dismiss]
  by_cases hother : t.NoOther ⟨user, perm, repo⟩ .repoSync
  · simp only [hother, if_true]
    cases hrow : t.userRow user perm with
    | none =>
      refine ⟨fun user' perm' => ?_, fun user' perm' repo' => ?_, rfl, .refl t⟩
      · grind [Tables.userRow_removeSource]
      · simp [Tables.reasons_removeSource]
    | some row =>
      have hkey := ht.userRow hrow
      refine ⟨fun user' perm' => ?_, fun user' perm' repo' => ?_, rfl, .refl t⟩
      · grind [Tables.userRow_removeSource, Tables.userRow_saveUser, UserHoldings.lose]
      · simp [Tables.reasons_removeSource]
  · simp only [hother, if_false]
    refine ⟨fun user' perm' => ?_, fun user' perm' repo' => ?_, rfl, .refl t⟩
    · grind [Tables.userRow_removeSource]
    · simp [Tables.reasons_removeSource]

theorem synced_foldlM (now : Timestamp) (users : List UserId) (progress : UserSet × Nat)
    (ht : t.Keyed) :
    Tables.Synced now repo perm users t
      ((users.foldlM (addSynced now repo perm) progress).exec now t).2 ∧
    ∀ user, user ∈ ((users.foldlM (addSynced now repo perm) progress).exec now t).1.1 ↔
      user ∈ progress.1 ∨ user ∈ users := by
  refine foldlM_keeps (P := fun done (progress' : UserSet × Nat) t' =>
    Tables.Synced now repo perm done t t' ∧
    ∀ user, user ∈ progress'.1 ↔ user ∈ progress.1 ∨ user ∈ done) ?_ users ht ⟨.nil, by simp⟩
  intro done progress' t' user ht' hdone
  refine ⟨hdone.1.append (synced_addSynced ht' progress' user), fun user' => ?_⟩
  rw [exec_addSynced, mem_insert_iff, hdone.2, List.mem_append, List.mem_singleton]
  grind

theorem dismissed_foldlM (now : Timestamp) (users : List UserId) (progress : UserSet × Nat)
    (ht : t.Keyed) :
    Tables.Dismissed now repo perm users t
      ((users.foldlM (dismiss now repo perm) progress).exec now t).2 ∧
    ∀ user, user ∈ ((users.foldlM (dismiss now repo perm) progress).exec now t).1.1 ↔
      user ∈ progress.1 ∧ ¬ (user ∈ users ∧ t.NoOther ⟨user, perm, repo⟩ .repoSync) := by
  refine foldlM_keeps (P := fun done (progress' : UserSet × Nat) t' =>
    Tables.Dismissed now repo perm done t t' ∧
    ∀ user, user ∈ progress'.1 ↔
      user ∈ progress.1 ∧ ¬ (user ∈ done ∧ t.NoOther ⟨user, perm, repo⟩ .repoSync))
    ?_ users ht ⟨.nil, by simp⟩
  intro done progress' t' user ht' hdone
  refine ⟨hdone.1.append (dismissed_dismiss ht' progress' user), fun user' => ?_⟩
  -- The turn asks for other reasons as they are now; earlier turns have left them as they were.
  have hother := hdone.1.noOther_iff user
  rw [exec_dismiss]
  by_cases hlost : t.NoOther ⟨user, perm, repo⟩ .repoSync
  · simp only [hother.2 hlost, if_true, mem_erase_iff, hdone.2, List.mem_append,
      List.mem_singleton]
    grind
  · simp only [mt hother.1 hlost, if_false, hdone.2, List.mem_append, List.mem_singleton]
    grind

/-- The users who are no longer named: those in the row and those with the list as a reason. -/
def dropped (t : Tables) (repo : RepoId) (perm : Permission) (named : UserSet) : UserSet :=
  let synced := (t.repoSources repo perm).toList.filterMap fun (user, reasons) =>
    if reasons.contains .repoSync then some user else none
  (t.usersOf repo perm ∪ ExtTreeSet.ofList synced).filter fun user => !named.contains user

theorem mem_dropped {named : UserSet} {user : UserId} :
    user ∈ dropped t repo perm named ↔ user ∉ named ∧
      (user ∈ t.usersOf repo perm ∨ .repoSync ∈ t.reasons ⟨user, perm, repo⟩) := by
  rw [dropped, mem_filter_iff, ExtTreeSet.mem_union_iff, ExtTreeSet.mem_ofList,
    List.contains_iff_mem, ← Tables.mem_repoSources_iff]
  simp
  grind

theorem exec_replaceHolders (named : UserSet) :
    (replaceHolders now repo perm named).exec now t =
      let row := (t.repoRow repo perm).getD { repo, perm, updatedAt := now }
      let added := (named.toList.foldlM (addSynced now repo perm) (row.users, 0)).exec now t
      let left := ((dropped t repo perm named).toList.foldlM (dismiss now repo perm)
        (added.1.1, 0)).exec now added.2
      ({ added := added.1.2, removed := left.1.2, found := (t.repoRow repo perm).isSome },
        left.2.after now (.saveRepo
          { row with users := left.1.1, updatedAt := now, syncedAt := some now })) := by
  have husers : t.usersOf repo perm =
      ((t.repoRow repo perm).getD { repo, perm, updatedAt := now }).users := by
    rw [Tables.usersOf]
    cases t.repoRow repo perm <;> rfl
  simp only [replaceHolders, exec_bind, exec_pure, dropped, husers]
  rfl

/-- Replacing a repository's list does to the tables exactly this. -/
theorem holdersReplaced_replaceHolders (ht : t.Keyed) (named : UserSet) :
    Tables.HoldersReplaced now repo perm named t
      ((replaceHolders now repo perm named).exec now t).2 := by
  rw [exec_replaceHolders]
  -- The row that the list starts from, be it stored or fresh.
  have hrow : ((t.repoRow repo perm).getD { repo, perm, updatedAt := now }).repo = repo ∧
      ((t.repoRow repo perm).getD { repo, perm, updatedAt := now }).perm = perm ∧
      ((t.repoRow repo perm).getD { repo, perm, updatedAt := now }).users =
        t.usersOf repo perm := by
    rw [Tables.usersOf]
    cases h : t.repoRow repo perm with
    | none => exact ⟨rfl, rfl, rfl⟩
    | some row => exact ⟨(ht.repoRow h).1, (ht.repoRow h).2, rfl⟩
  dsimp only
  generalize hfresh : (t.repoRow repo perm).getD { repo, perm, updatedAt := now } = row at hrow ⊢
  obtain ⟨hrepo, hperm, husers⟩ := hrow
  -- First everybody who is named, then everybody who was and is no longer.
  obtain ⟨hsynced, hadded⟩ := synced_foldlM now named.toList (row.users, 0) ht
  have hkeyed := ht.exec now (named.toList.foldlM (addSynced now repo perm) (row.users, 0))
  generalize (named.toList.foldlM (addSynced now repo perm) (row.users, 0)).exec now t = added at *
  obtain ⟨hdismissed, hleft⟩ := dismissed_foldlM now (dropped t repo perm named).toList
    (added.1.1, 0) hkeyed
  generalize ((dropped t repo perm named).toList.foldlM (dismiss now repo perm)
    (added.1.1, 0)).exec now added.2 = left at *
  -- Who is left in the row: the loops carry it along, and only those go who have no other reason.
  have hmember : ∀ user, user ∈ left.1.1 ↔
      user ∈ named ∨ user ∈ t.usersOf repo perm ∧ ¬ t.NoOther ⟨user, perm, repo⟩ .repoSync := by
    intro user
    rw [hleft, hadded, ExtTreeSet.mem_toList, ExtTreeSet.mem_toList, mem_dropped,
      hsynced.noOther_iff, husers]
    grind
  have hslot : ((left.2.after now (.saveRepo
      { row with users := left.1.1, updatedAt := now, syncedAt := some now })).usersOf repo perm) =
        left.1.1 := by
    simp [Tables.usersOf, Tables.repoRow_saveRepo, hrepo, hperm]
  refine ⟨fun user perm' => ?_, fun repo' perm' => ?_, fun user => ?_,
    fun user perm' repo' => ?_, ?_⟩
  · show left.2.userRow user perm' = _
    simp only [hdismissed.userRow, hsynced.userRow, hsynced.noOther_iff, ExtTreeSet.mem_toList,
      mem_dropped, Tables.Loses]
    grind
  · have hother : left.2.repoRow repo' perm' = t.repoRow repo' perm' := by
      rw [Tables.repoRow, hdismissed.repos, hsynced.repos, Tables.repoRow]
    rw [Tables.repoRow_saveRepo, hslot, hfresh, hother, hrepo, hperm]
    simp only [hrepo, hperm]
  · rw [hslot, hmember]
  · show left.2.reasons ⟨user, perm', repo'⟩ = _
    simp only [hdismissed.reasons, hsynced.reasons, ExtTreeSet.mem_toList, mem_dropped]
    by_cases hslot : perm' = perm ∧ repo' = repo
    · obtain ⟨rfl, rfl⟩ := hslot
      by_cases hnamed : user ∈ named
      · simp [hnamed]
      · by_cases hdropped : user ∈ t.usersOf repo' perm' ∨
            .repoSync ∈ t.reasons ⟨user, perm', repo'⟩
        · simp [hnamed, hdropped]
        · have hno : .repoSync ∉ t.reasons ⟨user, perm', repo'⟩ := fun h => hdropped (.inr h)
          -- The list was no reason for this user, so there is nothing to withdraw.
          simp [hnamed, hdropped, erase_of_not_mem hno]
    · simp [hslot]
  · exact hsynced.promises.trans hdismissed.promises

end Tx

end RepoAccess
