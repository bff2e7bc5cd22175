/-
What a linked account's lists take away, one after the other.

* `MemoryStore.afterLists` — the store after an account's repositories have been replaced by one
  list after another;
* `MemoryStore.afterLists_induction` — what every replacement keeps, the whole run keeps;
* `account_lists_keep_exactly` — which of the repositories that the account did not bring are left.

Whether a repository stays is decided from its recorded sources, and a list that names one adds
itself to them. So a repository that was held without any source stays as long as no list names it,
and goes with the first list that does not name it any more.
-/
import RepoAccess.Proofs.Listing

namespace RepoAccess

open Std

/-! ### Runs of one account's lists -/

namespace MemoryStore

/-- The store after the account's repositories have been replaced by each of the lists. -/
def afterLists (user : UserId) (account : AccountId) (lists : List (Timestamp × RepoSet))
    (s : MemoryStore) : MemoryStore :=
  lists.foldl (fun s list =>
    (memoryStore.once list.1 (Tx.replaceAccount list.1 user account list.2) s).2) s

/-- What every list keeps, the lists keep. -/
theorem afterLists_induction (user : UserId) (account : AccountId) {s : MemoryStore}
    (hfree : s.Free) (hkeyed : s.shared.Keyed)
    {P : List (Timestamp × RepoSet) → Tables → Prop} (start : P [] s.shared)
    (step : ∀ done t now named t', P done t → Tables.AccountReplaced now user account named t t' →
      P (done ++ [(now, named)]) t')
    (lists : List (Timestamp × RepoSet)) :
    ∃ t, s.afterLists user account lists = { s with shared := t } ∧ t.Keyed ∧ P lists t := by
  -- From the front, with the lists so far in the statement.
  suffices h : ∀ (lists done : List (Timestamp × RepoSet)) (s : MemoryStore), s.Free →
      s.shared.Keyed → P done s.shared →
      ∃ t, s.afterLists user account lists = { s with shared := t } ∧ t.Keyed ∧
        P (done ++ lists) t by
    exact h lists [] s hfree hkeyed start
  intro lists
  induction lists with
  | nil =>
    intro done s _ hkeyed hdone
    exact ⟨s.shared, rfl, hkeyed, by rwa [List.append_nil]⟩
  | cons list lists ih =>
    obtain ⟨now, named⟩ := list
    intro done s hfree hkeyed hdone
    obtain ⟨t, hrun, hkeyed', hlists⟩ := ih (done ++ [(now, named)])
      { s with shared := ((Tx.replaceAccount now user account named).exec now s.shared).2 } hfree
      (hkeyed.exec now _)
      (step done _ now named _ hdone (Tx.accountReplaced_replaceAccount hkeyed now named))
    refine ⟨t, ?_, hkeyed', by simpa using hlists⟩
    rw [afterLists, List.foldl_cons, once_of_free hfree]
    exact hrun

end MemoryStore

/-! ### What is left -/

/-- Some list names the repository. -/
def SomeNames (lists : List (Timestamp × RepoSet)) (repo : RepoId) : Prop :=
  ∃ list ∈ lists, repo ∈ list.2

/-- The last list names the repository. -/
def LastNames (lists : List (Timestamp × RepoSet)) (repo : RepoId) : Prop :=
  ∃ list, lists.getLast? = some list ∧ repo ∈ list.2

section Lists

variable {lists : List (Timestamp × RepoSet)} {now : Timestamp} {named : RepoSet} {repo : RepoId}

theorem not_someNames_nil : ¬ SomeNames [] repo := by simp [SomeNames]

theorem not_lastNames_nil : ¬ LastNames [] repo := by simp [LastNames]

theorem someNames_concat :
    SomeNames (lists ++ [(now, named)]) repo ↔ SomeNames lists repo ∨ repo ∈ named := by
  simp only [SomeNames, List.mem_append, List.mem_singleton, or_and_right, exists_or,
    exists_eq_left]

theorem lastNames_concat : LastNames (lists ++ [(now, named)]) repo ↔ repo ∈ named := by
  simp [LastNames]

theorem LastNames.someNames (h : LastNames lists repo) : SomeNames lists repo := by
  obtain ⟨list, hlast, hmem⟩ := h
  exact ⟨list, List.mem_of_getLast? hlast, hmem⟩

end Lists

namespace Tables

/-- What has become, after the account's lists, of a repository that the user held and that the
account did not bring. The user still holds it unless there was no source for it, some list names
it, and the last one does not. -/
structure Outlasted (user : UserId) (account : AccountId) (repo : RepoId)
    (lists : List (Timestamp × RepoSet)) (t t' : Tables) : Prop where
  held : repo ∈ t'.reposOf user .read ↔
    t.reasons ⟨user, .read, repo⟩ ≠ ∅ ∨ ¬ SomeNames lists repo ∨ LastNames lists repo
  brought : .account account ∈ t'.reasons ⟨user, .read, repo⟩ ↔ LastNames lists repo
  otherReasons : ∀ source, source ≠ .account account →
    (source ∈ t'.reasons ⟨user, .read, repo⟩ ↔ source ∈ t.reasons ⟨user, .read, repo⟩)

namespace Outlasted

variable {user : UserId} {account : AccountId} {repo : RepoId} {t : Tables}

theorem nil (hheld : repo ∈ t.reposOf user .read)
    (hnot : .account account ∉ t.reasons ⟨user, .read, repo⟩) :
    Outlasted user account repo [] t t where
  held := by simp [hheld, not_someNames_nil]
  brought := by simp [hnot, not_lastNames_nil]
  otherReasons := fun _ _ => Iff.rfl

/-- One list more. -/
theorem concat {lists : List (Timestamp × RepoSet)} {now : Timestamp} {named : RepoSet}
    {t₁ t' : Tables} (hnot : .account account ∉ t.reasons ⟨user, .read, repo⟩)
    (h : Outlasted user account repo lists t t₁)
    (hlist : AccountReplaced now user account named t₁ t') :
    Outlasted user account repo (lists ++ [(now, named)]) t t' where
  held := by
    have hno : t₁.NoOther ⟨user, .read, repo⟩ (.account account) ↔
        t.reasons ⟨user, .read, repo⟩ = ∅ := by
      rw [noOther_congr h.otherReasons, NoOther, erase_of_not_mem hnot]
    rw [hlist.reposOf, Leaves, h.brought, h.held, hno, someNames_concat, lastNames_concat]
    by_cases hnamed : repo ∈ named
    · simp [hnamed]
    · by_cases hreasons : t.reasons ⟨user, .read, repo⟩ = ∅
      · -- Without another source, the last list that named it was the only one.
        have hsome : LastNames lists repo → SomeNames lists repo := LastNames.someNames
        simp only [hnamed, hreasons]
        grind
      · simp [hnamed, hreasons]
  brought := by rw [hlist.mem_reasons, if_pos ⟨rfl, rfl, rfl⟩, lastNames_concat]
  otherReasons := by
    intro source hother
    rw [hlist.mem_reasons, if_neg fun hall => hother hall.1]
    exact h.otherReasons source hother

end Outlasted

end Tables

/-- An account's lists, one after the other, keep both kinds of rows in agreement. A repository that
the user held before, and that the account did not bring, is held afterwards, and its row holds the
user, exactly if there was a source for it, or no list names it, or the last one does. -/
theorem account_lists_keep_exactly {s : MemoryStore} (hfree : s.Free) (hkeyed : s.shared.Keyed)
    (hmutual : s.shared.Mutual) (user : UserId) (account : AccountId)
    (lists : List (Timestamp × RepoSet)) :
    ∃ t, s.afterLists user account lists = { s with shared := t } ∧ t.Keyed ∧ t.Mutual ∧
      ∀ repo ∈ s.shared.reposOf user .read,
        .account account ∉ s.shared.reasons ⟨user, .read, repo⟩ →
        Tables.Outlasted user account repo lists s.shared t ∧
        (user ∈ t.usersOf repo .read ↔
          s.shared.reasons ⟨user, .read, repo⟩ ≠ ∅ ∨
            ¬ SomeNames lists repo ∨ LastNames lists repo) := by
  obtain ⟨t, hleft, hkeyed', hmutual', hkept⟩ := MemoryStore.afterLists_induction user account
    hfree hkeyed
    (P := fun done t => t.Mutual ∧ ∀ repo ∈ s.shared.reposOf user .read,
      .account account ∉ s.shared.reasons ⟨user, .read, repo⟩ →
      Tables.Outlasted user account repo done s.shared t)
    ⟨hmutual, fun _ hheld hnot => .nil hheld hnot⟩
    (fun _ _ _ _ _ hdone hlist => ⟨hdone.1.accountReplaced hlist,
      fun repo hheld hnot => (hdone.2 repo hheld hnot).concat hnot hlist⟩)
    lists
  refine ⟨t, hleft, hkeyed', hmutual', fun repo hheld hnot => ⟨hkept repo hheld hnot, ?_⟩⟩
  rw [hmutual' user .read repo, (hkept repo hheld hnot).held]

/-- A repository that is held for no recorded reason stays when no list names it, and another one
stays that is there by its own list. -/
theorem account_lists_keep_exactly_of_unnamed :
    let t := ((Tx.replaceHolders ⟨0, 0⟩ ⟨2⟩ .read {⟨7⟩}).exec ⟨0, 0⟩
      (Tables.unexplained ⟨0, 0⟩ ⟨7⟩ .read ⟨1⟩)).2
    let s : MemoryStore := { shared := t }
    let left := s.afterLists ⟨7⟩ ⟨3⟩ [(⟨1, 0⟩, {⟨2⟩, ⟨4⟩}), (⟨2, 0⟩, ∅)]
    s.Free ∧ t.Keyed ∧ t.Mutual ∧ (t.reposOf ⟨7⟩ .read).toList = [⟨1⟩, ⟨2⟩] ∧
    t.reasons ⟨⟨7⟩, .read, ⟨1⟩⟩ = ∅ ∧ (t.reasons ⟨⟨7⟩, .read, ⟨2⟩⟩).toList = [.repoSync] ∧
    (⟨1⟩ : RepoId) ∈ left.shared.reposOf ⟨7⟩ .read ∧
    (⟨7⟩ : UserId) ∈ left.shared.usersOf ⟨1⟩ .read ∧
    (⟨2⟩ : RepoId) ∈ left.shared.reposOf ⟨7⟩ .read ∧
    (⟨7⟩ : UserId) ∈ left.shared.usersOf ⟨2⟩ .read := by
  intro t s left
  have hkeyed₀ := Tables.keyed_unexplained ⟨0, 0⟩ ⟨7⟩ .read ⟨1⟩
  have hkeyed : t.Keyed := hkeyed₀.exec ⟨0, 0⟩ _
  have hlisted : Tables.HoldersReplaced ⟨0, 0⟩ ⟨2⟩ .read {⟨7⟩}
      (Tables.unexplained ⟨0, 0⟩ ⟨7⟩ .read ⟨1⟩) t :=
    Tx.holdersReplaced_replaceHolders hkeyed₀ {⟨7⟩}
  have hmutual : t.Mutual :=
    (Tables.mutual_unexplained ⟨0, 0⟩ ⟨7⟩ .read ⟨1⟩).holdersReplaced hlisted
  have hfree : s.Free := by decide +kernel
  obtain ⟨t', hleft, -, -, hkept⟩ := account_lists_keep_exactly hfree hkeyed hmutual ⟨7⟩ ⟨3⟩
    [(⟨1, 0⟩, {⟨2⟩, ⟨4⟩}), (⟨2, 0⟩, ∅)]
  have hshared : left.shared = t' := congrArg MemoryStore.shared hleft
  obtain ⟨hfirst, hfirst'⟩ := hkept ⟨1⟩ (by decide +kernel) (by decide +kernel)
  obtain ⟨hsecond, hsecond'⟩ := hkept ⟨2⟩ (by decide +kernel) (by decide +kernel)
  have hunnamed : ¬ SomeNames [(⟨1, 0⟩, {⟨2⟩, ⟨4⟩}), (⟨2, 0⟩, ∅)] ⟨1⟩ := by
    simp [SomeNames]
  have hsource : s.shared.reasons ⟨⟨7⟩, .read, ⟨2⟩⟩ ≠ ∅ := by decide +kernel
  rw [hshared]
  exact ⟨hfree, hkeyed, hmutual, by decide +kernel, by decide +kernel, by decide +kernel,
    hfirst.held.2 (.inr (.inl hunnamed)), hfirst'.2 (.inr (.inl hunnamed)),
    hsecond.held.2 (.inl hsource), hsecond'.2 (.inl hsource)⟩

/-- A repository that is held for no recorded reason is named by an account's first list and not by
the second one. It is gone from both sides. -/
theorem account_lists_take_unexplained :
    let s : MemoryStore := { shared := Tables.unexplained ⟨0, 0⟩ ⟨7⟩ .read ⟨1⟩ }
    let left := s.afterLists ⟨7⟩ ⟨3⟩ [(⟨1, 0⟩, {⟨1⟩}), (⟨2, 0⟩, ∅)]
    s.Free ∧ s.shared.Keyed ∧ s.shared.Mutual ∧
    (⟨1⟩ : RepoId) ∈ s.shared.reposOf ⟨7⟩ .read ∧
    (.account ⟨3⟩) ∉ s.shared.reasons ⟨⟨7⟩, .read, ⟨1⟩⟩ ∧
    (⟨1⟩ : RepoId) ∉ left.shared.reposOf ⟨7⟩ .read ∧
    (⟨7⟩ : UserId) ∉ left.shared.usersOf ⟨1⟩ .read :=
  ⟨by decide +kernel, Tables.keyed_unexplained _ _ _ _, Tables.mutual_unexplained _ _ _ _,
    by decide +kernel, by decide +kernel, by decide +kernel, by decide +kernel⟩

end RepoAccess
