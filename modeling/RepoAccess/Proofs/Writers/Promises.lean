/-
A repository's list of aliases, written.

* `PendingHoldings.gain`, `PendingHoldings.lose` — what happens to one alias's row;
* `Tables.Promised`, `Tables.Retracted` — what promising a repository to some aliases, and taking
  the promise back from others, does to the tables;
* `Tables.InvitedReplaced` — what replacing the list does to them, and
  `Tx.invitedReplaced_replaceInvited` — that it does so.

Only aliases that come to the list or leave it have their rows written.
-/
import RepoAccess.Proofs.Rows

namespace RepoAccess

open Std

/-! ### Rows of aliases -/

namespace PendingHoldings

variable {now : Timestamp} {repo repo' : RepoId} {row : PendingHoldings}

/-- The row with a repository. -/
def gain (now : Timestamp) (repo : RepoId) (row : PendingHoldings) : PendingHoldings :=
  { row with repos := row.repos.insert repo, updatedAt := now }

/-- The row without a repository. -/
def lose (now : Timestamp) (repo : RepoId) (row : PendingHoldings) : PendingHoldings :=
  { row with repos := row.repos.erase repo, updatedAt := now }

theorem mem_repos_gain : repo' ∈ (row.gain now repo).repos ↔ repo' = repo ∨ repo' ∈ row.repos :=
  mem_insert_iff

theorem mem_repos_lose : repo' ∈ (row.lose now repo).repos ↔ repo' ≠ repo ∧ repo' ∈ row.repos :=
  mem_erase_iff

theorem gain_gain : (row.gain now repo).gain now repo = row.gain now repo := by
  simp only [gain, insert_insert_self]

theorem lose_lose : (row.lose now repo).lose now repo = row.lose now repo := by
  simp only [lose, erase_erase_self]

end PendingHoldings

namespace Tables

/-- The tables agree on access and on overlays. -/
def SameAccess (t t' : Tables) : Prop :=
  t'.users = t.users ∧ t'.repos = t.repos ∧ t'.sources = t.sources ∧ t'.overlays = t.overlays

theorem SameAccess.refl (t : Tables) : SameAccess t t := ⟨rfl, rfl, rfl, rfl⟩

theorem SameAccess.trans {t t₁ t₂ : Tables} (h₁ : SameAccess t t₁) (h₂ : SameAccess t₁ t₂) :
    SameAccess t t₂ := by
  obtain ⟨husers₁, hrepos₁, hsources₁, hoverlays₁⟩ := h₁
  obtain ⟨husers₂, hrepos₂, hsources₂, hoverlays₂⟩ := h₂
  exact ⟨husers₂.trans husers₁, hrepos₂.trans hrepos₁, hsources₂.trans hsources₁,
    hoverlays₂.trans hoverlays₁⟩

theorem SameAccess.reasons {t t' : Tables} (h : SameAccess t t') (key : SourceKey) :
    t'.reasons key = t.reasons key := by
  rw [Tables.reasons, h.2.2.1, Tables.reasons]

variable {now : Timestamp} {provider : Provider} {repo : RepoId} {perm : Permission}
  {names : List String} {t t' : Tables}

/-! ### Aliases that come and go -/

/-- A repository is promised to these aliases of a provider. -/
structure Promised (now : Timestamp) (provider : Provider) (repo : RepoId) (perm : Permission)
    (names : List String) (t t' : Tables) : Prop where
  pendingRow : ∀ holder perm', t'.pendingRow holder perm' =
    if perm' = perm ∧ holder.provider = provider ∧ holder.bindId ∈ names then
      some (((t.pendingRow holder perm).getD { holder, perm, updatedAt := now }).gain now repo)
    else t.pendingRow holder perm'
  invited : t'.invited = t.invited
  access : SameAccess t t'

/-- A repository is promised to these aliases of a provider no longer. -/
structure Retracted (now : Timestamp) (provider : Provider) (repo : RepoId) (perm : Permission)
    (names : List String) (t t' : Tables) : Prop where
  pendingRow : ∀ holder perm', t'.pendingRow holder perm' =
    if perm' = perm ∧ holder.provider = provider ∧ holder.bindId ∈ names then
      (t.pendingRow holder perm').map (·.lose now repo)
    else t.pendingRow holder perm'
  invited : t'.invited = t.invited
  access : SameAccess t t'

theorem Promised.nil : Promised now provider repo perm [] t t :=
  ⟨by simp, rfl, .refl t⟩

theorem Retracted.nil : Retracted now provider repo perm [] t t :=
  ⟨by simp, rfl, .refl t⟩

/-! ### The whole list -/

/-- A repository's list of aliases of one provider is replaced by these. -/
structure InvitedReplaced (now : Timestamp) (group : AliasGroup) (repo : RepoId)
    (perm : Permission) (t t' : Tables) : Prop where
  pendingRow : ∀ holder perm', t'.pendingRow holder perm' =
    if perm' = perm ∧ holder.provider = group.provider then
      if holder.bindId ∈ group.bindIds ∧ holder.bindId ∉ t.invitedBy repo perm group.provider then
        some (((t.pendingRow holder perm).getD { holder, perm, updatedAt := now }).gain now repo)
      else if holder.bindId ∉ group.bindIds ∧ holder.bindId ∈ t.invitedBy repo perm group.provider
      then (t.pendingRow holder perm).map (·.lose now repo)
      else t.pendingRow holder perm
    else t.pendingRow holder perm'
  invitedRow : ∀ repo' perm' provider, t'.invitedRow repo' perm' provider =
    if repo' = repo ∧ perm' = perm ∧ provider = group.provider then
      some { repo, perm, provider, bindIds := ExtTreeSet.ofList group.bindIds, updatedAt := now }
    else t.invitedRow repo' perm' provider
  access : SameAccess t t'

namespace InvitedReplaced

variable {group : AliasGroup}

/-- What is promised to an alias afterwards. -/
theorem mem_promisedTo (h : InvitedReplaced now group repo perm t t') {holder : Alias}
    {perm' : Permission} {repo' : RepoId} :
    repo' ∈ t'.promisedTo holder perm' ↔
      if perm' = perm ∧ holder.provider = group.provider ∧ repo' = repo then
        if holder.bindId ∈ t.invitedBy repo perm group.provider then
          holder.bindId ∈ group.bindIds ∧ repo ∈ t.promisedTo holder perm
        else holder.bindId ∈ group.bindIds ∨ repo ∈ t.promisedTo holder perm
      else repo' ∈ t.promisedTo holder perm' := by
  rw [mem_promisedTo_iff, h.pendingRow]
  by_cases hslot : perm' = perm ∧ holder.provider = group.provider
  · obtain ⟨rfl, hprovider⟩ := hslot
    by_cases hnew : holder.bindId ∈ group.bindIds <;>
      by_cases hold : holder.bindId ∈ t.invitedBy repo perm' group.provider <;>
      cases hrow : t.pendingRow holder perm' <;>
      simp [hprovider, hnew, hold, hrow, mem_promisedTo_iff, PendingHoldings.mem_repos_gain,
        PendingHoldings.mem_repos_lose]
    all_goals grind
  · rw [if_neg hslot, if_neg fun hall => hslot ⟨hall.1, hall.2.1⟩, mem_promisedTo_iff]

/-- Who is on a repository's list afterwards. -/
theorem mem_invitedBy (h : InvitedReplaced now group repo perm t t') {repo' : RepoId}
    {perm' : Permission} {provider : Provider} {bindId : String} :
    bindId ∈ t'.invitedBy repo' perm' provider ↔
      if repo' = repo ∧ perm' = perm ∧ provider = group.provider then bindId ∈ group.bindIds
      else bindId ∈ t.invitedBy repo' perm' provider := by
  rw [mem_invitedBy_iff, h.invitedRow]
  by_cases hslot : repo' = repo ∧ perm' = perm ∧ provider = group.provider
  · simp [hslot]
  · rw [if_neg hslot, if_neg hslot, mem_invitedBy_iff]

end InvitedReplaced

end Tables

namespace Tx

variable {t : Tables}

theorem exec_promise (now : Timestamp) (repo : RepoId) (perm : Permission) (holder : Alias) :
    ((promise now repo perm holder).exec now t).2 =
      t.after now (.savePending
        (((t.pendingRow holder perm).getD { holder, perm, updatedAt := now }).gain now repo)) :=
  rfl

theorem exec_retract (now : Timestamp) (repo : RepoId) (perm : Permission) (holder : Alias) :
    ((retract now repo perm holder).exec now t).2 =
      match t.pendingRow holder perm with
      | some row => t.after now (.savePending (row.lose now repo))
      | none => t := by
  cases h : t.pendingRow holder perm with
  | none =>
    rw [Tables.pendingRow] at h
    simp [retract, request, exec, Tables.perform, h]
  | some row =>
    rw [Tables.pendingRow] at h
    simp [retract, request, exec, Tables.perform, Tables.after, PendingHoldings.lose, h]

theorem promised_forM (now : Timestamp) (provider : Provider) (repo : RepoId) (perm : Permission)
    (names : List String) (ht : t.Keyed) :
    Tables.Promised now provider repo perm names t
      ((names.forM fun bindId => promise now repo perm ⟨provider, bindId⟩).exec now t).2 := by
  refine forM_keeps (P := fun done t' => Tables.Promised now provider repo perm done t t')
    ?_ names ht .nil
  intro done t' bindId ht' hdone
  rw [exec_promise]
  have hkey : ((t'.pendingRow ⟨provider, bindId⟩ perm).getD
      { holder := ⟨provider, bindId⟩, perm, updatedAt := now }).holder = ⟨provider, bindId⟩ ∧
      ((t'.pendingRow ⟨provider, bindId⟩ perm).getD
        { holder := ⟨provider, bindId⟩, perm, updatedAt := now }).perm = perm := by
    cases h : t'.pendingRow ⟨provider, bindId⟩ perm with
    | none => exact ⟨rfl, rfl⟩
    | some row => exact ht'.pendingRow h
  refine ⟨fun holder perm' => ?_, hdone.invited, hdone.access⟩
  rw [Tables.pendingRow_savePending]
  have hslot : ∀ row : PendingHoldings, (row.gain now repo).holder = row.holder ∧
      (row.gain now repo).perm = row.perm := fun row => ⟨rfl, rfl⟩
  simp only [hslot, hkey]
  obtain ⟨provider', bindId'⟩ := holder
  by_cases hmem : bindId' ∈ done
  · simp only [hdone.pendingRow]
    grind [PendingHoldings.gain_gain]
  · simp only [hdone.pendingRow]
    grind

theorem retracted_forM (now : Timestamp) (provider : Provider) (repo : RepoId)
    (perm : Permission) (names : List String) (ht : t.Keyed) :
    Tables.Retracted now provider repo perm names t
      ((names.forM fun bindId => retract now repo perm ⟨provider, bindId⟩).exec now t).2 := by
  refine forM_keeps (P := fun done t' => Tables.Retracted now provider repo perm done t t')
    ?_ names ht .nil
  intro done t' bindId ht' hdone
  rw [exec_retract]
  cases hrow : t'.pendingRow ⟨provider, bindId⟩ perm with
  | none =>
    refine ⟨fun holder perm' => ?_, hdone.invited, hdone.access⟩
    have hold := hdone.pendingRow holder perm'
    obtain ⟨provider', bindId'⟩ := holder
    grind
  | some row =>
    refine ⟨fun holder perm' => ?_, hdone.invited, hdone.access⟩
    have hold := hdone.pendingRow holder perm'
    have hkey := ht'.pendingRow hrow
    have hslot : (row.lose now repo).holder = row.holder ∧ (row.lose now repo).perm = row.perm :=
      ⟨rfl, rfl⟩
    rw [Tables.pendingRow_savePending]
    obtain ⟨provider', bindId'⟩ := holder
    cases hfirst : t.pendingRow ⟨provider', bindId'⟩ perm' <;> grind [PendingHoldings.lose_lose]

theorem exec_replaceInvited (now : Timestamp) (group : AliasGroup) (repo : RepoId)
    (perm : Permission) :
    ((replaceInvited now group repo perm).exec now t) =
      let old := t.invitedBy repo perm group.provider
      let new := ExtTreeSet.ofList group.bindIds
      let promised := ((new \ old).toList.forM fun bindId =>
        promise now repo perm ⟨group.provider, bindId⟩).exec now t
      let retracted := ((old \ new).toList.forM fun bindId =>
        retract now repo perm ⟨group.provider, bindId⟩).exec now promised.2
      ({ added := (new \ old).toList.length, removed := (old \ new).toList.length,
          found := (t.invitedRow repo perm group.provider).isSome },
        retracted.2.after now (.saveInvited
          { repo, perm, provider := group.provider, bindIds := new, updatedAt := now })) := by
  simp only [replaceInvited, exec_bind, exec_pure]
  rfl

/-- Replacing a repository's list of aliases does to the tables exactly this. -/
theorem invitedReplaced_replaceInvited (ht : t.Keyed) (now : Timestamp) (group : AliasGroup)
    (repo : RepoId) (perm : Permission) :
    Tables.InvitedReplaced now group repo perm t
      ((replaceInvited now group repo perm).exec now t).2 := by
  rw [exec_replaceInvited]
  dsimp only
  -- The aliases that come and those that go are the two differences of the old and the new list.
  generalize hold : t.invitedBy repo perm group.provider = old
  have hnew : ∀ bindId, bindId ∈ (ExtTreeSet.ofList group.bindIds : NameSet) ↔
      bindId ∈ group.bindIds := by
    intro bindId
    rw [ExtTreeSet.mem_ofList, List.contains_iff_mem]
  generalize hset : (ExtTreeSet.ofList group.bindIds : NameSet) = new at hnew
  -- No alias is in both differences, so no row is written by both loops.
  have hpromised := promised_forM now group.provider repo perm (new \ old).toList ht
  have hkeyed := ht.exec now
    ((new \ old).toList.forM fun bindId => promise now repo perm ⟨group.provider, bindId⟩)
  generalize (((new \ old).toList.forM fun bindId =>
    promise now repo perm ⟨group.provider, bindId⟩).exec now t).2 = mid at *
  have hretracted := retracted_forM now group.provider repo perm (old \ new).toList hkeyed
  generalize (((old \ new).toList.forM fun bindId =>
    retract now repo perm ⟨group.provider, bindId⟩).exec now mid).2 = last at *
  refine ⟨fun holder perm' => ?_, fun repo' perm' provider => ?_,
    hpromised.access.trans hretracted.access⟩
  · show last.pendingRow holder perm' = _
    rw [hretracted.pendingRow, hpromised.pendingRow, hold]
    simp only [ExtTreeSet.mem_toList, ExtTreeSet.mem_diff_iff, hnew]
    grind
  · have hother : last.invitedRow repo' perm' provider = t.invitedRow repo' perm' provider := by
      rw [Tables.invitedRow, hretracted.invited, hpromised.invited, Tables.invitedRow]
    rw [Tables.invitedRow_saveInvited, hother, hset]
    grind

end Tx

end RepoAccess
