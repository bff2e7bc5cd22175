/-
Promises, taken back.

* `PendingHolders.without` — what happens to a repository's row of aliases when some of them go;
* `Tables.Cleared` — what clearing the rows of some aliases does to the tables;
* `Tx.cleared_clearPending`, `Tx.cleared_clearAliases` — clearing one row, or every row of every
  alias, does so;
* `Tx.exec_clearAliases_fst` — and counts the rows that there were.

Clearing composes: one clearing after another clears what either clears, and clearing a row that is
not there does nothing. So neither the order nor a repetition among aliases makes a difference.
-/
import RepoAccess.Proofs.Writers.Promises

namespace RepoAccess

open Std

/-! ### Rows of names -/

namespace PendingHolders

variable {now : Timestamp} {gone gone' : String → Bool} {row : PendingHolders} {bindId : String}

/-- The row without the names that are gone; it changes only if there is one. -/
def without (now : Timestamp) (gone : String → Bool) (row : PendingHolders) : PendingHolders :=
  if ∃ bindId ∈ row.bindIds.toList, gone bindId = true then
    { row with bindIds := row.bindIds.filter fun bindId => !gone bindId, updatedAt := now }
  else row

theorem without_of_disjoint (h : ∀ bindId ∈ row.bindIds, gone bindId = false) :
    row.without now gone = row := by
  rw [without, if_neg]
  rintro ⟨bindId, hmem, hgone⟩
  rw [h bindId (ExtTreeSet.mem_toList.1 hmem)] at hgone
  cases hgone

theorem mem_bindIds_without :
    bindId ∈ (row.without now gone).bindIds ↔ bindId ∈ row.bindIds ∧ gone bindId = false := by
  rw [without]
  split
  · rw [mem_filter_iff, Bool.not_eq_true']
  · next hnone =>
    constructor
    · intro h
      refine ⟨h, ?_⟩
      rw [← Bool.not_eq_true]
      exact fun hgone => hnone ⟨bindId, ExtTreeSet.mem_toList.2 h, hgone⟩
    · exact fun h => h.1

theorem without_congr (h : ∀ bindId ∈ row.bindIds, gone bindId = gone' bindId) :
    row.without now gone = row.without now gone' := by
  have hany : (∃ bindId ∈ row.bindIds.toList, gone bindId = true) ↔
      ∃ bindId ∈ row.bindIds.toList, gone' bindId = true := by
    simp only [ExtTreeSet.mem_toList]
    grind
  have hset : (row.bindIds.filter fun bindId => !gone bindId) =
      row.bindIds.filter fun bindId => !gone' bindId := by
    ext bindId
    simp only [mem_filter_iff]
    grind
  rw [without, without, hset]
  simp only [hany]

/-- In a row written at this very moment only the names matter. -/
theorem without_of_updatedAt (h : row.updatedAt = now) :
    row.without now gone =
      { row with bindIds := row.bindIds.filter fun bindId => !gone bindId, updatedAt := now } := by
  rw [without]
  split
  · rfl
  · next hnone =>
    have hset : (row.bindIds.filter fun bindId => !gone bindId) = row.bindIds := by
      ext bindId
      simp only [mem_filter_iff, ExtTreeSet.mem_toList] at hnone ⊢
      grind
    rw [hset, ← h]

theorem without_without : (row.without now gone).without now gone' =
    row.without now fun bindId => gone bindId || gone' bindId := by
  by_cases hany : ∃ bindId ∈ row.bindIds.toList, gone bindId = true
  · have hboth : ∃ bindId ∈ row.bindIds.toList, (gone bindId || gone' bindId) = true := by
      obtain ⟨bindId, hmem, hgone⟩ := hany
      exact ⟨bindId, hmem, by rw [hgone, Bool.true_or]⟩
    have hset : ((row.bindIds.filter fun bindId => !gone bindId).filter fun bindId =>
        !gone' bindId) = row.bindIds.filter fun bindId => !(gone bindId || gone' bindId) := by
      ext bindId
      simp only [mem_filter_iff, Bool.not_or, Bool.and_eq_true, and_assoc]
    have hfirst : row.without now gone = { row with
        bindIds := row.bindIds.filter fun bindId => !gone bindId, updatedAt := now } := if_pos hany
    have hlast : row.without now (fun bindId => gone bindId || gone' bindId) = { row with
        bindIds := row.bindIds.filter fun bindId => !(gone bindId || gone' bindId),
        updatedAt := now } := if_pos hboth
    rw [without_of_updatedAt (by rw [hfirst]), hfirst, hlast]
    simp only [hset]
  · have hnone : ∀ bindId ∈ row.bindIds, gone bindId = false := by
      intro bindId hmem
      rw [← Bool.not_eq_true]
      exact fun hgone => hany ⟨bindId, ExtTreeSet.mem_toList.2 hmem, hgone⟩
    rw [without_of_disjoint hnone]
    exact without_congr fun bindId hmem => by rw [hnone bindId hmem, Bool.false_or]

/-- One name goes. -/
theorem without_one : row.without now (· == bindId) =
    if bindId ∈ row.bindIds then
      { row with bindIds := row.bindIds.erase bindId, updatedAt := now }
    else row := by
  split
  · next hmem =>
    have hset : (row.bindIds.filter fun other => !(other == bindId)) =
        row.bindIds.erase bindId := by
      ext other
      rw [mem_filter_iff, mem_erase_iff]
      simp [and_comm]
    rw [without, if_pos ⟨bindId, ExtTreeSet.mem_toList.2 hmem, beq_self_eq_true bindId⟩, hset]
  · next hmem =>
    refine without_of_disjoint fun other hother => ?_
    rw [beq_eq_false_iff_ne]
    exact fun heq => hmem (heq ▸ hother)

end PendingHolders

namespace Tables

variable {now : Timestamp} {gone gone' : Alias → Permission → Bool} {t t' t₁ t₂ : Tables}

/-- Where a row is gone, so is what was promised in it. -/
theorem mem_promisedTo_of_pendingRow {holder : Alias} {perm : Permission} {repo : RepoId}
    {p : Prop} [Decidable p]
    (h : t'.pendingRow holder perm = if p then none else t.pendingRow holder perm) :
    repo ∈ t'.promisedTo holder perm ↔ ¬ p ∧ repo ∈ t.promisedTo holder perm := by
  rw [mem_promisedTo_iff, h]
  by_cases hp : p
  · simp [hp]
  · simp [hp, mem_promisedTo_iff]

theorem mem_invitedBy_of_invitedRow {repo : RepoId} {perm : Permission} {provider : Provider}
    {names : String → Bool} {bindId : String}
    (h : t'.invitedRow repo perm provider =
      (t.invitedRow repo perm provider).map (·.without now names)) :
    bindId ∈ t'.invitedBy repo perm provider ↔
      bindId ∈ t.invitedBy repo perm provider ∧ names bindId = false := by
  rw [mem_invitedBy_iff, h]
  cases hrow : t.invitedRow repo perm provider with
  | none => simp [mem_invitedBy_iff, hrow]
  | some row => simp [mem_invitedBy_iff, hrow, PendingHolders.mem_bindIds_without]

/-- The rows of these aliases are cleared, and the aliases are off the lists of the repositories in
them. -/
structure Cleared (now : Timestamp) (gone : Alias → Permission → Bool) (t t' : Tables) : Prop where
  pendingRow : ∀ holder perm, t'.pendingRow holder perm =
    if gone holder perm = true then none else t.pendingRow holder perm
  invitedRow : ∀ repo perm provider, t'.invitedRow repo perm provider =
    (t.invitedRow repo perm provider).map (·.without now fun bindId =>
      gone ⟨provider, bindId⟩ perm && (t.promisedTo ⟨provider, bindId⟩ perm).contains repo)
  access : SameAccess t t'

namespace Cleared

theorem mem_promisedTo (h : Cleared now gone t t') {holder : Alias} {perm : Permission}
    {repo : RepoId} :
    repo ∈ t'.promisedTo holder perm ↔
      gone holder perm = false ∧ repo ∈ t.promisedTo holder perm := by
  rw [mem_promisedTo_of_pendingRow (h.pendingRow holder perm), Bool.not_eq_true]

theorem mem_invitedBy (h : Cleared now gone t t') {repo : RepoId} {perm : Permission}
    {provider : Provider} {bindId : String} :
    bindId ∈ t'.invitedBy repo perm provider ↔ bindId ∈ t.invitedBy repo perm provider ∧
      ¬ (gone ⟨provider, bindId⟩ perm = true ∧ repo ∈ t.promisedTo ⟨provider, bindId⟩ perm) := by
  rw [mem_invitedBy_of_invitedRow (h.invitedRow repo perm provider)]
  simp

/-- Clearing rows that are not there does nothing. -/
theorem of_agree (h : Cleared now gone t t')
    (hagree : ∀ holder perm, (t.pendingRow holder perm).isSome →
      gone holder perm = gone' holder perm) : Cleared now gone' t t' where
  pendingRow := by
    intro holder perm
    rw [h.pendingRow]
    cases hrow : t.pendingRow holder perm with
    | none => simp
    | some row => rw [hagree holder perm (by rw [hrow, Option.isSome_some])]
  invitedRow := by
    intro repo perm provider
    rw [h.invitedRow]
    congr 1
    funext row
    refine PendingHolders.without_congr fun bindId _ => ?_
    by_cases hmem : repo ∈ t.promisedTo ⟨provider, bindId⟩ perm
    · obtain ⟨row', hrow', _⟩ := mem_promisedTo_iff.1 hmem
      rw [hagree _ _ (by rw [hrow', Option.isSome_some])]
    · rw [contains_eq_false_iff.2 hmem, Bool.and_false, Bool.and_false]
  access := h.access

theorem refl : Cleared now (fun _ _ => false) t t where
  pendingRow := by simp
  invitedRow := by
    intro repo perm provider
    cases t.invitedRow repo perm provider with
    | none => rfl
    | some row =>
      rw [Option.map_some, PendingHolders.without_of_disjoint fun _ _ => Bool.false_and _]
  access := .refl t

/-- One clearing after another clears what either clears. -/
theorem trans (h₁ : Cleared now gone t t₁) (h₂ : Cleared now gone' t₁ t₂) :
    Cleared now (fun holder perm => gone holder perm || gone' holder perm) t t₂ where
  pendingRow := by
    intro holder perm
    rw [h₂.pendingRow, h₁.pendingRow]
    cases gone holder perm <;> cases gone' holder perm <;> rfl
  invitedRow := by
    intro repo perm provider
    rw [h₂.invitedRow, h₁.invitedRow, Option.map_map]
    congr 1
    funext row
    rw [Function.comp, PendingHolders.without_without]
    refine PendingHolders.without_congr fun bindId _ => ?_
    -- The second clearing is led by what the first one has left.
    have hleft : (t₁.promisedTo ⟨provider, bindId⟩ perm).contains repo =
        (!gone ⟨provider, bindId⟩ perm &&
          (t.promisedTo ⟨provider, bindId⟩ perm).contains repo) := by
      rw [Bool.eq_iff_iff]
      simp [h₁.mem_promisedTo]
    rw [hleft]
    cases gone ⟨provider, bindId⟩ perm <;> simp
  access := h₁.access.trans h₂.access

end Cleared

end Tables

namespace Tx

variable {t : Tables}

theorem exec_uninvite (now : Timestamp) (holder : Alias) (perm : Permission) (repo : RepoId) :
    ((uninvite now holder perm repo).exec now t).2 =
      match t.invitedRow repo perm holder.provider with
      | some row =>
        if holder.bindId ∈ row.bindIds then
          t.after now (.saveInvited (row.without now (· == holder.bindId)))
        else t
      | none => t := by
  cases h : t.invitedRow repo perm holder.provider with
  | none =>
    rw [Tables.invitedRow] at h
    simp [uninvite, request, exec, Tables.perform, h]
  | some row =>
    rw [Tables.invitedRow] at h
    by_cases hmem : holder.bindId ∈ row.bindIds
    · simp [uninvite, request, exec, Tables.perform, Tables.after, PendingHolders.without_one, h,
        hmem]
    · simp [uninvite, request, exec, Tables.perform, h, hmem]

/-- Taking an alias off one repository's list changes the row of the list and nothing else. -/
theorem uninvite_spec (ht : t.Keyed) (now : Timestamp) (holder : Alias) (perm : Permission)
    (repo : RepoId) :
    Tables.SameAccess t ((uninvite now holder perm repo).exec now t).2 ∧
    ((uninvite now holder perm repo).exec now t).2.pending = t.pending ∧
    ∀ repo' perm' provider,
      ((uninvite now holder perm repo).exec now t).2.invitedRow repo' perm' provider =
        if repo' = repo ∧ perm' = perm ∧ provider = holder.provider then
          (t.invitedRow repo perm holder.provider).map (·.without now (· == holder.bindId))
        else t.invitedRow repo' perm' provider := by
  rw [exec_uninvite]
  cases hrow : t.invitedRow repo perm holder.provider with
  | none =>
    refine ⟨.refl t, rfl, fun repo' perm' provider => ?_⟩
    grind
  | some row =>
    by_cases hmem : holder.bindId ∈ row.bindIds
    · simp only [hmem, if_true]
      refine ⟨.refl t, rfl, fun repo' perm' provider => ?_⟩
      have hkey := ht.invitedRow hrow
      have hwithout : row.without now (· == holder.bindId) =
          { row with bindIds := row.bindIds.erase holder.bindId, updatedAt := now } := by
        rw [PendingHolders.without_one, if_pos hmem]
      rw [Tables.invitedRow_saveInvited, Option.map_some, hwithout]
      simp only [hkey]
    · simp only [hmem, if_false]
      refine ⟨.refl t, trivial, fun repo' perm' provider => ?_⟩
      have hwithout : row.without now (· == holder.bindId) = row := by
        rw [PendingHolders.without_one, if_neg hmem]
      rw [Option.map_some, hwithout]
      grind

/-- Taking an alias off the lists of some repositories changes the rows of these lists and nothing
else. -/
theorem uninvite_forM (now : Timestamp) (holder : Alias) (perm : Permission) (repos : List RepoId)
    (ht : t.Keyed) :
    Tables.SameAccess t ((repos.forM (uninvite now holder perm)).exec now t).2 ∧
    ((repos.forM (uninvite now holder perm)).exec now t).2.pending = t.pending ∧
    ∀ repo perm' provider,
      ((repos.forM (uninvite now holder perm)).exec now t).2.invitedRow repo perm' provider =
        if repo ∈ repos ∧ perm' = perm ∧ provider = holder.provider then
          (t.invitedRow repo perm' provider).map (·.without now (· == holder.bindId))
        else t.invitedRow repo perm' provider := by
  refine forM_keeps (P := fun done t' => Tables.SameAccess t t' ∧ t'.pending = t.pending ∧
    ∀ repo perm' provider, t'.invitedRow repo perm' provider =
      if repo ∈ done ∧ perm' = perm ∧ provider = holder.provider then
        (t.invitedRow repo perm' provider).map (·.without now (· == holder.bindId))
      else t.invitedRow repo perm' provider) ?_ repos ht ⟨.refl t, rfl, by simp⟩
  intro done t' repo ht' hdone
  obtain ⟨haccess, hpending, hrows⟩ := hdone
  obtain ⟨haccess', hpending', hrows'⟩ := uninvite_spec ht' now holder perm repo
  refine ⟨haccess.trans haccess', hpending'.trans hpending, fun repo' perm' provider => ?_⟩
  -- Taking a name off a list twice is taking it off once, should a repository come up again.
  have htwice : ∀ row : PendingHolders,
      (row.without now (· == holder.bindId)).without now (· == holder.bindId) =
        row.without now (· == holder.bindId) := by
    intro row
    rw [PendingHolders.without_without]
    exact PendingHolders.without_congr fun _ _ => Bool.or_self _
  rw [hrows']
  by_cases hslot : repo' = repo ∧ perm' = perm ∧ provider = holder.provider
  · obtain ⟨rfl, rfl, rfl⟩ := hslot
    rw [hrows]
    cases hrow : t.invitedRow repo' perm' holder.provider <;> grind
  · rw [if_neg hslot, hrows]
    grind

/-- An alias that goes off the lists of what it is promised goes as in a clearing of its row. -/
theorem invitedRow_of_promisedTo (now : Timestamp) (holder : Alias) (perm : Permission)
    (repo : RepoId) (perm' : Permission) (provider : Provider) :
    (if repo ∈ t.promisedTo holder perm ∧ perm' = perm ∧ provider = holder.provider then
        (t.invitedRow repo perm' provider).map (·.without now (· == holder.bindId))
      else t.invitedRow repo perm' provider) =
      (t.invitedRow repo perm' provider).map (·.without now fun bindId =>
        decide ((⟨provider, bindId⟩ : Alias) = holder ∧ perm' = perm) &&
          (t.promisedTo ⟨provider, bindId⟩ perm').contains repo) := by
  obtain ⟨provider', bindId'⟩ := holder
  by_cases hslot : repo ∈ t.promisedTo ⟨provider', bindId'⟩ perm ∧ perm' = perm ∧
      provider = provider'
  · obtain ⟨hmem, rfl, rfl⟩ := hslot
    rw [if_pos ⟨hmem, rfl, rfl⟩]
    congr 1
    funext list
    refine PendingHolders.without_congr fun bindId _ => ?_
    by_cases hname : bindId = bindId'
    · subst hname
      simp [hmem]
    · simp [hname]
  · rw [if_neg hslot]
    -- On every other list there is nobody who goes.
    cases t.invitedRow repo perm' provider with
    | none => rfl
    | some list =>
      rw [Option.map_some, PendingHolders.without_of_disjoint]
      intro bindId _
      rw [Bool.and_eq_false_iff, decide_eq_false_iff_not, contains_eq_false_iff]
      by_cases hholder : (⟨provider, bindId⟩ : Alias) = ⟨provider', bindId'⟩ ∧ perm' = perm
      · obtain ⟨hsame, rfl⟩ := hholder
        cases hsame
        exact .inr fun hmem => hslot ⟨hmem, rfl, rfl⟩
      · exact .inl hholder

theorem exec_clearPending (now : Timestamp) (holder : Alias) (perm : Permission) :
    (clearPending now holder perm).exec now t =
      match t.pendingRow holder perm with
      | some row =>
        (true, ((row.repos.toList.forM (uninvite now holder perm)).exec now t).2.after now
          (.deletePending holder perm))
      | none => (false, t) := by
  cases h : t.pendingRow holder perm with
  | none =>
    rw [Tables.pendingRow] at h
    simp [clearPending, request, exec, Tables.perform, h]
  | some row =>
    rw [Tables.pendingRow] at h
    simp [clearPending, request, exec, Tables.perform, Tables.after, h]

theorem cleared_clearPending (ht : t.Keyed) (now : Timestamp) (holder : Alias)
    (perm : Permission) :
    Tables.Cleared now (fun holder' perm' => decide (holder' = holder ∧ perm' = perm)) t
      ((clearPending now holder perm).exec now t).2 := by
  rw [exec_clearPending]
  cases hrow : t.pendingRow holder perm with
  | none =>
    -- An alias without a row is not looked for on any list.
    refine Tables.Cleared.refl.of_agree fun holder' perm' hsome => ?_
    by_cases hslot : holder' = holder ∧ perm' = perm
    · rw [hslot.1, hslot.2, hrow] at hsome
      cases hsome
    · simp [hslot]
  | some row =>
    have hrepos : ∀ repo, repo ∈ row.repos.toList ↔ repo ∈ t.promisedTo holder perm := by
      intro repo
      rw [Tables.mem_promisedTo_iff, hrow, ExtTreeSet.mem_toList]
      simp
    obtain ⟨haccess, hpending, hrows⟩ := uninvite_forM now holder perm row.repos.toList ht
    refine ⟨fun holder' perm' => ?_, fun repo perm' provider => ?_, haccess⟩
    · rw [Tables.pendingRow_deletePending, Tables.pendingRow, hpending]
      simp only [decide_eq_true_eq]
      rfl
    · refine (hrows repo perm' provider).trans ?_
      simp only [hrepos]
      exact invitedRow_of_promisedTo now holder perm repo perm' provider

/-- Clearing the rows of some aliases for one permission. -/
theorem cleared_forM (ht : t.Keyed) (now : Timestamp) (holders : List Alias) (perm : Permission) :
    Tables.Cleared now (fun holder perm' => decide (holder ∈ holders ∧ perm' = perm)) t
      ((holders.forM fun holder => do
        let _ ← clearPending now holder perm).exec now t).2 := by
  refine forM_keeps (P := fun done t' => Tables.Cleared now
    (fun holder perm' => decide (holder ∈ done ∧ perm' = perm)) t t') ?_ holders ht ?_
  · intro done t' holder ht' hdone
    rw [exec_bind]
    refine (hdone.trans (cleared_clearPending ht' now holder perm)).of_agree fun _ _ _ => ?_
    rw [Bool.eq_iff_iff]
    simp
    grind
  · exact Tables.Cleared.refl.of_agree fun _ _ _ => by simp

theorem exec_listPending (now : Timestamp) (holder : Alias) :
    (request (.listPending holder)).exec now t =
      ((Named.all : List Permission).filterMap (t.pendingRow holder), t) :=
  rfl

/-- An alias has no row but the listed ones. -/
theorem mem_listPending (ht : t.Keyed) {holder : Alias} {perm : Permission}
    (h : (t.pendingRow holder perm).isSome) :
    perm ∈ ((Named.all : List Permission).filterMap (t.pendingRow holder)).map (·.perm) := by
  obtain ⟨row, hrow⟩ := Option.isSome_iff_exists.1 h
  rw [List.mem_map]
  refine ⟨row, List.mem_filterMap.2 ⟨perm, ?_, hrow⟩, (ht.pendingRow hrow).2⟩
  cases perm <;> decide

/-- Clearing some of an alias's rows, one by one. -/
theorem cleared_rows (ht : t.Keyed) (now : Timestamp) (holder : Alias)
    (rows : List PendingHoldings) (cleared : Nat) :
    Tables.Cleared now (fun holder' perm => decide (holder' = holder ∧ perm ∈ rows.map (·.perm))) t
      ((rows.foldlM (fun (cleared : Nat) (row : PendingHoldings) => do
        return if ← clearPending now holder row.perm then cleared + 1 else cleared)
        cleared).exec now t).2 := by
  refine foldlM_keeps (P := fun (done : List PendingHoldings) (_ : Nat) t' => Tables.Cleared now
    (fun holder' perm => decide (holder' = holder ∧ perm ∈ done.map (·.perm))) t t') ?_ rows ht ?_
  · intro done cleared t' row ht' hdone
    rw [exec_bind, exec_pure]
    refine (hdone.trans (cleared_clearPending ht' now holder row.perm)).of_agree fun _ _ _ => ?_
    rw [Bool.eq_iff_iff]
    simp
    grind
  · exact Tables.Cleared.refl.of_agree fun _ _ _ => by simp

/-- Clearing all of an alias's rows. -/
theorem cleared_listed (ht : t.Keyed) (now : Timestamp) (holder : Alias) (cleared : Nat) :
    Tables.Cleared now (fun holder' _ => decide (holder' = holder)) t
      ((((Named.all : List Permission).filterMap (t.pendingRow holder)).foldlM
        (fun (cleared : Nat) (row : PendingHoldings) => do
          return if ← clearPending now holder row.perm then cleared + 1 else cleared)
        cleared).exec now t).2 := by
  refine (cleared_rows ht now holder _ cleared).of_agree fun holder' perm hsome => ?_
  by_cases hholder : holder' = holder
  · subst hholder
    simp only [mem_listPending ht hsome, and_true]
  · simp [hholder]

/-- Clearing every row of every alias. -/
theorem cleared_clearAliases (ht : t.Keyed) (now : Timestamp) (holders : List Alias) :
    Tables.Cleared now (fun holder _ => decide (holder ∈ holders)) t
      ((clearAliases now holders).exec now t).2 := by
  rw [clearAliases]
  refine foldlM_keeps (P := fun done (_ : Nat) t' => Tables.Cleared now
    (fun holder _ => decide (holder ∈ done)) t t') ?_ holders ht ?_
  · intro done cleared t' holder ht' hdone
    rw [exec_bind, exec_listPending]
    refine (hdone.trans (cleared_listed ht' now holder cleared)).of_agree fun _ _ _ => ?_
    rw [Bool.eq_iff_iff]
    simp
  · exact Tables.Cleared.refl.of_agree fun _ _ _ => by simp

/-! ### How many rows go -/

/-- A row that is cleared is one row less, and it is counted. -/
theorem size_clearPending (ht : t.Keyed) (now : Timestamp) (holder : Alias) (perm : Permission) :
    ((clearPending now holder perm).exec now t).1.toNat +
      ((clearPending now holder perm).exec now t).2.pending.size = t.pending.size := by
  rw [exec_clearPending]
  cases hrow : t.pendingRow holder perm with
  | none => exact Nat.zero_add _
  | some row =>
    obtain ⟨-, hpending, -⟩ := uninvite_forM now holder perm row.repos.toList ht
    have hmem : (⟨holder, perm⟩ : PendingKey) ∈ t.pending :=
      ExtTreeMap.mem_iff_isSome_getElem?.2 (Option.isSome_of_eq_some hrow)
    show 1 + (ExtTreeMap.erase _ _).size = _
    rw [hpending]
    exact size_erase_of_mem hmem

theorem size_clearRows (ht : t.Keyed) (now : Timestamp) (holder : Alias)
    (rows : List PendingHoldings) (cleared : Nat) :
    let program := rows.foldlM (fun (cleared : Nat) (row : PendingHoldings) => do
      return if ← clearPending now holder row.perm then cleared + 1 else cleared) cleared
    let ran := program.exec now t
    ran.1 + ran.2.pending.size = cleared + t.pending.size := by
  refine foldlM_keeps (P := fun (_ : List PendingHoldings) (cleared' : Nat) t' =>
    cleared' + t'.pending.size = cleared + t.pending.size) ?_ rows ht rfl
  intro _ cleared' t' row ht' hdone
  rw [exec_bind, exec_pure, ← hdone, ← size_clearPending ht' now holder row.perm]
  cases ((clearPending now holder row.perm).exec now t').1 with
  | true => simp [Nat.add_assoc]
  | false => simp

/-- The rows that are counted and the rows that are left are the rows there were. -/
theorem size_clearAliases (ht : t.Keyed) (now : Timestamp) (holders : List Alias) :
    ((clearAliases now holders).exec now t).1 +
      ((clearAliases now holders).exec now t).2.pending.size = t.pending.size := by
  rw [clearAliases, ← Nat.zero_add t.pending.size]
  refine foldlM_keeps (P := fun (_ : List Alias) (cleared : Nat) t' =>
    cleared + t'.pending.size = 0 + t.pending.size) ?_ holders ht rfl
  intro _ cleared t' holder ht' hdone
  rw [exec_bind, exec_listPending, ← hdone]
  exact size_clearRows ht' now holder _ cleared

/-- Clearing some aliases counts the rows that they had, each row once. -/
theorem exec_clearAliases_fst (ht : t.Keyed) (now : Timestamp) (holders : List Alias) :
    ((clearAliases now holders).exec now t).1 =
      (t.pending.filter fun key _ => decide (key.holder ∈ holders)).size := by
  have hcleared := cleared_clearAliases ht now holders
  have hsize := size_clearAliases ht now holders
  have hleft : ((clearAliases now holders).exec now t).2.pending =
      t.pending.filter fun key _ => !decide (key.holder ∈ holders) := by
    refine ExtTreeMap.ext_getElem? fun key => ?_
    rw [getElem?_filter_key]
    refine (hcleared.pendingRow key.holder key.perm).trans ?_
    by_cases hmem : key.holder ∈ holders
    · simp [hmem]
    · simp [hmem, Tables.pendingRow]
  rw [hleft, ← size_filter_add_size_filter_not t.pending fun key _ =>
    decide (key.holder ∈ holders)] at hsize
  exact Nat.add_right_cancel hsize

end Tx

end RepoAccess
