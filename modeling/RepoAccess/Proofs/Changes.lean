/-
What a writer reports is what has changed.

* `ReplaceDiff.Reports` — a diff counts the members that appear in a set and those that disappear
  from it, which are the same seen from the other side;
* `diffs_count_changes` — the diffs of the three writers report so, from every reachable store.

That the two sides change alike is the agreement of the two kinds of rows, before the write and
after it. Where a client has deleted a user's rows, those of users and of repositories need not
agree; the two places of a promise always do.
-/
import RepoAccess.Proofs.Agreement
import RepoAccess.Proofs.PendingHistory
import RepoAccess.Proofs.Writers.Counts

namespace RepoAccess

open Std

/-- The diff counts the members that appear in a set and those that disappear from it; seen from the
other side, the same members appear and disappear. So the size follows from the counts. The diff
tells whether there was a row. -/
structure ReplaceDiff.Reports {κ : Type} [Ord κ] [TransOrd κ] (diff : ReplaceDiff)
    (old new : ExtTreeSet κ) (before after : κ → Prop) (existed : Bool) : Prop where
  counts : diff.Counts old new
  appears : ∀ a, a ∈ new \ old ↔ ¬ before a ∧ after a
  disappears : ∀ a, a ∈ old \ new ↔ before a ∧ ¬ after a
  size : new.size + diff.removed = old.size + diff.added
  removed_le : diff.removed ≤ old.size
  found : diff.found = existed

theorem ReplaceDiff.Counts.reports {κ : Type} [Ord κ] [TransOrd κ] [LawfulEqOrd κ]
    {diff : ReplaceDiff} {old new : ExtTreeSet κ} {before after : κ → Prop} {existed : Bool}
    (h : diff.Counts old new) (hold : ∀ a, a ∈ old ↔ before a) (hnew : ∀ a, a ∈ new ↔ after a)
    (hfound : diff.found = existed) : diff.Reports old new before after existed where
  counts := h
  appears := by
    intro a
    rw [ExtTreeSet.mem_diff_iff, hold, hnew]
    exact and_comm
  disappears := by
    intro a
    rw [ExtTreeSet.mem_diff_iff, hold, hnew]
  size := h.size_add_removed.1
  removed_le := h.size_add_removed.2
  found := hfound

namespace Tables

variable {now : Timestamp} {group : AliasGroup} {repo : RepoId} {perm : Permission}
  {t t' : Tables}

/-- The rows of aliases change with a repository's list: those of the names that come and those of
the names that go, and no others. -/
structure InStep (group : AliasGroup) (repo : RepoId) (perm : Permission) (t t' : Tables) :
    Prop where
  comes : ∀ bindId,
    bindId ∈ t'.invitedBy repo perm group.provider \ t.invitedBy repo perm group.provider →
      t'.promisedTo ⟨group.provider, bindId⟩ perm =
        (t.promisedTo ⟨group.provider, bindId⟩ perm).insert repo
  goes : ∀ bindId,
    bindId ∈ t.invitedBy repo perm group.provider \ t'.invitedBy repo perm group.provider →
      t'.promisedTo ⟨group.provider, bindId⟩ perm =
        (t.promisedTo ⟨group.provider, bindId⟩ perm).erase repo
  otherRow : ∀ holder perm',
    ¬ (perm' = perm ∧ holder.provider = group.provider ∧
      (holder.bindId ∈ t'.invitedBy repo perm group.provider ↔
        holder.bindId ∉ t.invitedBy repo perm group.provider)) →
      t'.pendingRow holder perm' = t.pendingRow holder perm'

theorem InvitedReplaced.inStep (h : InvitedReplaced now group repo perm t t') :
    InStep group repo perm t t' := by
  have hlist : ∀ bindId, bindId ∈ t'.invitedBy repo perm group.provider ↔
      bindId ∈ group.bindIds := by
    intro bindId
    rw [h.mem_invitedBy, if_pos ⟨rfl, rfl, rfl⟩]
  refine ⟨fun bindId hmem => ?_, fun bindId hmem => ?_, fun holder perm' hother => ?_⟩
  · rw [ExtTreeSet.mem_diff_iff, hlist] at hmem
    rw [promisedTo, h.pendingRow, if_pos ⟨rfl, rfl⟩, if_pos hmem, promisedTo]
    cases t.pendingRow ⟨group.provider, bindId⟩ perm <;> rfl
  · rw [ExtTreeSet.mem_diff_iff, hlist] at hmem
    rw [promisedTo, h.pendingRow, if_pos ⟨rfl, rfl⟩, if_neg fun hboth => hmem.2 hboth.1,
      if_pos hmem.symm, promisedTo]
    cases t.pendingRow ⟨group.provider, bindId⟩ perm with
    | none => exact (erase_of_not_mem ExtTreeSet.not_mem_empty).symm
    | some row => rfl
  · rw [hlist] at hother
    rw [h.pendingRow]
    by_cases hslot : perm' = perm ∧ holder.provider = group.provider
    · obtain ⟨rfl, hprovider⟩ := hslot
      have hsame : ¬ (holder.bindId ∈ group.bindIds ↔
          holder.bindId ∉ t.invitedBy repo perm' group.provider) :=
        fun hstep => hother ⟨rfl, hprovider, hstep⟩
      rw [if_pos ⟨rfl, hprovider⟩, if_neg fun hgoes => hsame (by simp [hgoes]),
        if_neg fun hcomes => hsame (by simp [hcomes])]
    · rw [if_neg hslot]

end Tables

/-- From every reachable store the three writers succeed exactly if the store is free, and report
what has changed. A repository's list reports the users whose access to the repository appears and
disappears, in the repository's row and in those of users, and a linked account the repositories
that its user may read, if no client has deleted a user's rows before. A list of aliases reports the
names that come to it and go from it, each one once, and the rows of these aliases change in step. -/
theorem diffs_count_changes (events : List Event) :
    let s := (Chronicle.of events).store
    ((∀ now user, Event.write now (.deleteUser user) ∉ events) →
      (∀ now repo perm named,
        s.Yields now (Tx.replaceHolders now repo perm named) fun diff t' =>
          diff.Reports (s.shared.usersOf repo perm) (t'.usersOf repo perm)
            (fun user => repo ∈ s.shared.reposOf user perm) (fun user => repo ∈ t'.reposOf user perm)
            (s.shared.repoRow repo perm).isSome) ∧
      ∀ now user account named,
        s.Yields now (Tx.replaceAccount now user account named) fun diff t' =>
          diff.Reports (s.shared.reposOf user .read) (t'.reposOf user .read)
            (fun repo => user ∈ s.shared.usersOf repo .read) (fun repo => user ∈ t'.usersOf repo .read)
            (s.shared.userRow user .read).isSome) ∧
    ∀ now group repo perm,
      s.Yields now (Tx.replaceInvited now group repo perm) fun diff t' =>
        diff.Reports (s.shared.invitedBy repo perm group.provider)
          (t'.invitedBy repo perm group.provider)
          (fun bindId => repo ∈ s.shared.promisedTo ⟨group.provider, bindId⟩ perm)
          (fun bindId => repo ∈ t'.promisedTo ⟨group.provider, bindId⟩ perm)
          (s.shared.invitedRow repo perm group.provider).isSome ∧
        (∀ bindId, bindId ∈ t'.invitedBy repo perm group.provider ↔ bindId ∈ group.bindIds) ∧
        Tables.InStep group repo perm s.shared t' := by
  intro s
  have hkeyed : s.shared.Keyed := Chronicle.keyed_of events
  refine ⟨fun hnone => ⟨fun now repo perm named => ?_, fun now user account named => ?_⟩,
    fun now group repo perm => ?_⟩
  · have hmutual : s.shared.Mutual := Chronicle.mutual_of hnone
    have hreplaced : Tables.HoldersReplaced now repo perm named s.shared
        ((Tx.replaceHolders now repo perm named).exec now s.shared).2 :=
      Tx.holdersReplaced_replaceHolders hkeyed named
    exact MemoryStore.yields_of_exec <|
      (Tx.counts_replaceHolders hkeyed now repo perm named).reports
        (fun user => hmutual user perm repo)
        (fun user => hmutual.holdersReplaced hreplaced user perm repo)
        (Tx.found_replaceHolders now repo perm named)
  · have hmutual : s.shared.Mutual := Chronicle.mutual_of hnone
    have hreplaced : Tables.AccountReplaced now user account named s.shared
        ((Tx.replaceAccount now user account named).exec now s.shared).2 :=
      Tx.accountReplaced_replaceAccount hkeyed now named
    exact MemoryStore.yields_of_exec <|
      (Tx.counts_replaceAccount hkeyed now user account named).reports
        (fun repo => (hmutual user .read repo).symm)
        (fun repo => (hmutual.accountReplaced hreplaced user .read repo).symm)
        (Tx.found_replaceAccount now user account named)
  · have hmirror : s.shared.Mirrored := Chronicle.mirrored_of events
    have hreplaced : Tables.InvitedReplaced now group repo perm s.shared
        ((Tx.replaceInvited now group repo perm).exec now s.shared).2 :=
      Tx.invitedReplaced_replaceInvited hkeyed now group repo perm
    refine MemoryStore.yields_of_exec ⟨?_, fun bindId => ?_, hreplaced.inStep⟩
    · exact (Tx.counts_replaceInvited hkeyed now group repo perm).reports
        (fun bindId => (hmirror ⟨group.provider, bindId⟩ perm repo).symm)
        (fun bindId => (hmirror.invitedReplaced hreplaced ⟨group.provider, bindId⟩ perm repo).symm)
        (Tx.found_replaceInvited now group repo perm)
    · rw [hreplaced.mem_invitedBy, if_pos ⟨rfl, rfl, rfl⟩]

/-- Of two users who are named no longer, one keeps the repository for the sake of an account, so one
disappears and one appears; and of the aliases one name is given twice. -/
theorem diffs_count_changes_of_overlap :
    let events : List Event := [.write ⟨0, 0⟩ (.replaceHolders ⟨1⟩ .read {⟨7⟩, ⟨8⟩}),
      .write ⟨0, 0⟩ (.replaceAccount ⟨7⟩ ⟨3⟩ {⟨1⟩}),
      .write ⟨0, 0⟩ (.replaceInvited ⟨.internal, ["a", "b"]⟩ ⟨1⟩ .read)]
    let s := (Chronicle.of events).store
    (∀ now user, Event.write now (.deleteUser user) ∉ events) ∧
    (∃ diff, (memoryStore.once ⟨1, 0⟩ (Tx.replaceHolders ⟨1, 0⟩ ⟨1⟩ .read {⟨9⟩}) s).1 = .ok diff ∧
      diff.added = 1 ∧ diff.removed = 1 ∧ diff.found = true) ∧
    ∃ diff, (memoryStore.once ⟨1, 0⟩
        (Tx.replaceInvited ⟨1, 0⟩ ⟨.internal, ["c", "b", "c"]⟩ ⟨1⟩ .read) s).1 = .ok diff ∧
      diff.added = 1 ∧ diff.removed = 1 ∧ diff.found = true := by
  intro events s
  have hnone : ∀ now user, Event.write now (.deleteUser user) ∉ events := by
    simp [events]
  have hfree : s.Free := by
    decide +kernel
  obtain ⟨heffective, hpending⟩ := diffs_count_changes events
  obtain ⟨hlisted, hreports⟩ := (heffective hnone).1 ⟨1, 0⟩ ⟨1⟩ .read {⟨9⟩}
  obtain ⟨hinvited, hreports'⟩ := hpending ⟨1, 0⟩ ⟨.internal, ["c", "b", "c"]⟩ ⟨1⟩ .read
  obtain ⟨diff, hok⟩ := hlisted.2 hfree
  obtain ⟨diff', hok'⟩ := hinvited.2 hfree
  have hdiff := hreports diff hok
  have hdiff' := (hreports' diff' hok').1
  refine ⟨hnone, ⟨diff, hok, ?_, ?_, ?_⟩, diff', hok', ?_, ?_, ?_⟩
  · rw [hdiff.counts.added]
    decide +kernel
  · rw [hdiff.counts.removed]
    decide +kernel
  · rw [hdiff.found]
    decide +kernel
  · rw [hdiff'.counts.added]
    decide +kernel
  · rw [hdiff'.counts.removed]
    decide +kernel
  · rw [hdiff'.found]
    decide +kernel

end RepoAccess
