/-
A repository's list is replaced exactly, and spares every other source.

* `Tables.Relisted` — what is different after a list has been replaced, and that the rest is not;
* `Tables.Restamped` — what is different after the same list has been replaced once more: the
  moments in the repository's row, and nothing else;
* `Tables.unexplained` — tables in which a user holds a repository for no recorded reason;
* `listing_replaces_exactly` — replacing a list does the one, and doing it again the other.

Nothing is asked of the sources beforehand. There may be users in the repository's row without any,
who count as named by the former list, and sources without a row.
-/
import RepoAccess.Proofs.Agreement
import RepoAccess.Proofs.Writers.Counts

namespace RepoAccess

open Std

namespace Tables

variable {now : Timestamp} {repo : RepoId} {perm : Permission} {named : UserSet} {t t' : Tables}

/-! ### The first time -/

/-- A repository's list names these users. They are in the repository's row together with the former
members who have another source, the rows of users agree with it, and the list is the source of
those whom it names and of nobody else. The rest is as it was. -/
structure Relisted (now : Timestamp) (repo : RepoId) (perm : Permission) (named : UserSet)
    (t t' : Tables) : Prop where
  usersOf : ∀ user, user ∈ t'.usersOf repo perm ↔
    user ∈ named ∨
      user ∈ t.usersOf repo perm ∧ ∃ source ∈ t.reasons ⟨user, perm, repo⟩, source ≠ .repoSync
  agree : t'.AgreeOn repo perm
  otherReposOf : ∀ user perm' repo', ¬ (perm' = perm ∧ repo' = repo) →
    (repo' ∈ t'.reposOf user perm' ↔ repo' ∈ t.reposOf user perm')
  repoRow : t'.repoRow repo perm =
    some { (t.repoRow repo perm).getD { repo, perm, updatedAt := now } with
      users := t'.usersOf repo perm, updatedAt := now, syncedAt := some now }
  otherRepoRow : ∀ repo' perm', ¬ (repo' = repo ∧ perm' = perm) →
    t'.repoRow repo' perm' = t.repoRow repo' perm'
  listed : ∀ user, .repoSync ∈ t'.reasons ⟨user, perm, repo⟩ ↔ user ∈ named
  otherReasons : ∀ user perm' repo' source,
    ¬ (source = .repoSync ∧ perm' = perm ∧ repo' = repo) →
      (source ∈ t'.reasons ⟨user, perm', repo'⟩ ↔ source ∈ t.reasons ⟨user, perm', repo'⟩)
  promises : SamePromises t t'

theorem not_noOther_iff {key : SourceKey} {source : Source} :
    ¬ t.NoOther key source ↔ ∃ other ∈ t.reasons key, other ≠ source := by
  rw [noOther_iff]
  simp

/-- Where the rows agree on the repository, replacing its list is exact. -/
theorem HoldersReplaced.relisted (h : HoldersReplaced now repo perm named t t')
    (ht : t.AgreeOn repo perm) : Relisted now repo perm named t t' where
  usersOf := by
    intro user
    rw [h.usersOf, not_noOther_iff]
  agree := ht.holdersReplaced h
  otherReposOf := by
    intro user perm' repo' hother
    rw [h.mem_reposOf, if_neg hother]
  repoRow := by rw [h.repoRow, if_pos ⟨rfl, rfl⟩]
  otherRepoRow := by
    intro repo' perm' hother
    rw [h.repoRow, if_neg hother]
  listed := by
    intro user
    rw [h.mem_reasons, if_pos ⟨rfl, rfl, rfl⟩]
  otherReasons := by
    intro user perm' repo' source hother
    rw [h.mem_reasons, if_neg hother]
  promises := h.promises

/-! ### The second time -/

/-- The repository's row has new moments. The rest is as it was. -/
structure Restamped (now : Timestamp) (repo : RepoId) (perm : Permission) (t t' : Tables) :
    Prop where
  userRow : ∀ user perm', t'.userRow user perm' = t.userRow user perm'
  repoRow : ∀ repo' perm', t'.repoRow repo' perm' =
    if repo' = repo ∧ perm' = perm then
      (t.repoRow repo perm).map fun row => { row with updatedAt := now, syncedAt := some now }
    else t.repoRow repo' perm'
  reasons : ∀ key, t'.reasons key = t.reasons key
  promises : SamePromises t t'

theorem Restamped.usersOf (h : Restamped now repo perm t t') :
    t'.usersOf repo perm = t.usersOf repo perm := by
  rw [Tables.usersOf, h.repoRow, if_pos ⟨rfl, rfl⟩, Tables.usersOf]
  cases t.repoRow repo perm <;> rfl

/-- After a list has been replaced, nobody loses the repository to the same list: who is not named
has another source. -/
theorem Relisted.not_loses {first : Tables} (h : Relisted now repo perm named first t)
    (user : UserId) : ¬ t.Loses repo perm named user := by
  rintro ⟨hnamed, hbefore, hno⟩
  rcases hbefore with hmember | hsynced
  · rcases (h.usersOf user).1 hmember with hnamed' | ⟨-, other, hother, hne⟩
    · exact hnamed hnamed'
    · refine not_noOther_iff.2 ⟨other, ?_, hne⟩ hno
      exact (h.otherReasons user perm repo other fun hall => hne hall.1).2 hother
  · exact hnamed ((h.listed user).1 hsynced)

/-- Replacing a list by itself is writing the moments anew. -/
theorem HoldersReplaced.restamped {now' : Timestamp} {first : Tables}
    (h : HoldersReplaced now' repo perm named t t') (ht : Relisted now repo perm named first t) :
    Restamped now' repo perm t t' := by
  have husers : t'.usersOf repo perm = t.usersOf repo perm := by
    ext user
    rw [h.usersOf]
    constructor
    · rintro (hnamed | ⟨hmember, -⟩)
      · exact (ht.usersOf user).2 (.inl hnamed)
      · exact hmember
    · intro hmember
      by_cases hnamed : user ∈ named
      · exact .inl hnamed
      · exact .inr ⟨hmember, fun hno => ht.not_loses user ⟨hnamed, .inl hmember, hno⟩⟩
  refine ⟨fun user perm' => ?_, fun repo' perm' => ?_, fun key => ?_, h.promises⟩
  · rw [h.userRow]
    split
    · -- Who is named has a row already, with the repository in it.
      next hslot =>
      obtain ⟨rfl, hnamed⟩ := hslot
      have hheld : repo ∈ t.reposOf user perm' :=
        (ht.agree user).1 ((ht.usersOf user).2 (.inl hnamed))
      obtain ⟨row, hrow, hmem⟩ := mem_reposOf_iff.1 hheld
      rw [hrow, Option.getD_some, UserHoldings.gain_of_mem hmem]
    · rw [if_neg fun hslot => ht.not_loses user hslot.2]
  · rw [h.repoRow, husers]
    by_cases hslot : repo' = repo ∧ perm' = perm
    · rw [if_pos hslot, if_pos hslot, ht.repoRow]
      rfl
    · rw [if_neg hslot, if_neg hslot]
  · obtain ⟨user, perm', repo'⟩ := key
    ext source
    rw [h.mem_reasons]
    split
    · next hslot =>
      obtain ⟨rfl, rfl, rfl⟩ := hslot
      exact (ht.listed user).symm
    · rfl

/-! ### Access for no recorded reason -/

/-- A user holds a repository, and there is no source for it. -/
def unexplained (now : Timestamp) (user : UserId) (perm : Permission) (repo : RepoId) : Tables where
  users := (∅ : ExtTreeMap UserKey UserHoldings).insert ⟨user, perm⟩
    { user, perm, repos := {repo}, updatedAt := now }
  repos := (∅ : ExtTreeMap RepoKey RepoHolders).insert ⟨repo, perm⟩
    { repo, perm, users := {user}, updatedAt := now }

theorem keyed_unexplained (now : Timestamp) (user : UserId) (perm : Permission) (repo : RepoId) :
    (unexplained now user perm repo).Keyed where
  users := keyed_empty.users.insert { user, perm, repos := {repo}, updatedAt := now }
  repos := keyed_empty.repos.insert { repo, perm, users := {user}, updatedAt := now }
  pending := keyed_empty.pending
  invited := keyed_empty.invited

theorem mem_usersOf_unexplained (now : Timestamp) {user user' : UserId} {perm perm' : Permission}
    {repo repo' : RepoId} :
    user' ∈ (unexplained now user perm repo).usersOf repo' perm' ↔
      user' = user ∧ perm' = perm ∧ repo' = repo := by
  rw [Tables.usersOf, Tables.repoRow, unexplained, ExtTreeMap.getElem?_insert]
  by_cases hslot : repo = repo' ∧ perm = perm'
  · obtain ⟨rfl, rfl⟩ := hslot
    simp [@eq_comm _ user']
  · simp [hslot]
    grind

theorem mem_reposOf_unexplained (now : Timestamp) {user user' : UserId} {perm perm' : Permission}
    {repo repo' : RepoId} :
    repo' ∈ (unexplained now user perm repo).reposOf user' perm' ↔
      user' = user ∧ perm' = perm ∧ repo' = repo := by
  rw [Tables.reposOf, Tables.userRow, unexplained, ExtTreeMap.getElem?_insert]
  by_cases hslot : user = user' ∧ perm = perm'
  · obtain ⟨rfl, rfl⟩ := hslot
    simp [@eq_comm _ repo']
  · simp [hslot]
    grind

theorem mutual_unexplained (now : Timestamp) (user : UserId) (perm : Permission) (repo : RepoId) :
    (unexplained now user perm repo).Mutual := fun _ _ _ =>
  (mem_usersOf_unexplained now).trans (mem_reposOf_unexplained now).symm

end Tables

/-! ### The call -/

/-- Replacing a repository's list succeeds exactly if the store is free, and otherwise leaves it as
it is. Where the rows agree on the repository, whatever the sources are, it is exact. Doing it again
then reports that nobody has come or gone, and writes nothing but the moments in the repository's
row. -/
theorem listing_replaces_exactly {s : MemoryStore} (hkeyed : s.shared.Keyed) {repo : RepoId}
    {perm : Permission} (hagree : s.shared.AgreeOn repo perm) (now : Timestamp)
    (named : UserSet) :
    let ran := memoryStore.once now (Tx.replaceHolders now repo perm named) s
    ((∃ diff, ran.1 = .ok diff) ↔ s.Free) ∧
    (∀ stop, ran.1 = .error stop → ran.2 = s) ∧
    ∀ diff, ran.1 = .ok diff →
      ∃ t', ran.2 = { s with shared := t' } ∧
        Tables.Relisted now repo perm named s.shared t' ∧
        ∀ now', ∃ t'', memoryStore.once now' (Tx.replaceHolders now' repo perm named) ran.2 =
            (.ok { added := 0, removed := 0, found := true }, { s with shared := t'' }) ∧
          Tables.Restamped now' repo perm t' t'' := by
  intro ran
  by_cases hfree : s.Free
  · have hran : ran = _ := MemoryStore.once_of_free hfree now _
    have hreplaced : Tables.HoldersReplaced now repo perm named s.shared
        ((Tx.replaceHolders now repo perm named).exec now s.shared).2 :=
      Tx.holdersReplaced_replaceHolders hkeyed named
    have hkeyed' := hkeyed.exec now (Tx.replaceHolders now repo perm named)
    generalize (Tx.replaceHolders now repo perm named).exec now s.shared = first at *
    clear_value ran
    subst hran
    have hlisted := hreplaced.relisted hagree
    refine ⟨⟨fun _ => hfree, fun _ => ⟨_, rfl⟩⟩, nofun,
      fun _ _ => ⟨first.2, rfl, hlisted, fun now' => ?_⟩⟩
    have hfree' : MemoryStore.Free { s with shared := first.2 } := hfree
    have hrestamped : Tables.Restamped now' repo perm first.2
        ((Tx.replaceHolders now' repo perm named).exec now' first.2).2 :=
      (Tx.holdersReplaced_replaceHolders hkeyed' named).restamped hlisted
    refine ⟨_, ?_, hrestamped⟩
    rw [MemoryStore.once_of_free hfree']
    have hcounts := Tx.counts_replaceHolders hkeyed' now' repo perm named
    dsimp only at hcounts
    rw [hrestamped.usersOf] at hcounts
    have hfound := Tx.found_replaceHolders (t := first.2) now' repo perm named
    rw [hlisted.repoRow] at hfound
    obtain ⟨hadded, hremoved⟩ := hcounts.eq_zero
    generalize (Tx.replaceHolders now' repo perm named).exec now' first.2 = again at *
    obtain ⟨⟨added, removed, found⟩, t''⟩ := again
    obtain rfl : added = 0 := hadded
    obtain rfl : removed = 0 := hremoved
    obtain rfl : found = true := hfound
    rfl
  · obtain ⟨stop, hran⟩ : ∃ stop, ran = (.error stop, s) :=
      MemoryStore.once_of_not_free hfree now _
    clear_value ran
    subst hran
    exact ⟨⟨nofun, fun hfree' => absurd hfree' hfree⟩, fun _ _ => rfl, nofun⟩

/-- One user is in the row for no recorded reason, and another one because an account brings the
repository. A list that names a third one keeps the second one only. -/
theorem listing_replaces_exactly_amid_unexplained :
    let t := ((Tx.replaceAccount ⟨0, 0⟩ ⟨8⟩ ⟨3⟩ {⟨1⟩}).exec ⟨0, 0⟩
      (Tables.unexplained ⟨0, 0⟩ ⟨7⟩ .read ⟨1⟩)).2
    let s : MemoryStore := { shared := t }
    t.Keyed ∧ t.AgreeOn ⟨1⟩ .read ∧
    (t.usersOf ⟨1⟩ .read).toList = [⟨7⟩, ⟨8⟩] ∧ t.reasons ⟨⟨7⟩, .read, ⟨1⟩⟩ = ∅ ∧
    ∃ diff t', memoryStore.once ⟨1, 0⟩ (Tx.replaceHolders ⟨1, 0⟩ ⟨1⟩ .read {⟨9⟩}) s =
        (.ok diff, { s with shared := t' }) ∧
      Tables.Relisted ⟨1, 0⟩ ⟨1⟩ .read {⟨9⟩} t t' ∧
      (⟨7⟩ : UserId) ∉ t'.usersOf ⟨1⟩ .read ∧ (⟨1⟩ : RepoId) ∉ t'.reposOf ⟨7⟩ .read ∧
      (⟨8⟩ : UserId) ∈ t'.usersOf ⟨1⟩ .read ∧ (⟨1⟩ : RepoId) ∈ t'.reposOf ⟨8⟩ .read ∧
      ∃ t'', memoryStore.once ⟨2, 0⟩ (Tx.replaceHolders ⟨2, 0⟩ ⟨1⟩ .read {⟨9⟩})
          { s with shared := t' } =
        (.ok { added := 0, removed := 0, found := true }, { s with shared := t'' }) := by
  intro t s
  have hkeyed₀ := Tables.keyed_unexplained ⟨0, 0⟩ ⟨7⟩ .read ⟨1⟩
  have hkeyed : t.Keyed := hkeyed₀.exec ⟨0, 0⟩ _
  have hbrought : Tables.AccountReplaced ⟨0, 0⟩ ⟨8⟩ ⟨3⟩ {⟨1⟩}
      (Tables.unexplained ⟨0, 0⟩ ⟨7⟩ .read ⟨1⟩) t :=
    Tx.accountReplaced_replaceAccount hkeyed₀ ⟨0, 0⟩ {⟨1⟩}
  have hmutual : t.Mutual :=
    (Tables.mutual_unexplained ⟨0, 0⟩ ⟨7⟩ .read ⟨1⟩).accountReplaced hbrought
  have hagree : t.AgreeOn ⟨1⟩ .read := fun user => hmutual user .read ⟨1⟩
  obtain ⟨hsucceeds, -, hexact⟩ :=
    listing_replaces_exactly (s := s) hkeyed hagree ⟨1, 0⟩ {⟨9⟩}
  obtain ⟨diff, hok⟩ := hsucceeds.2 (by decide +kernel)
  obtain ⟨t', hleft, hlisted, hagain⟩ := hexact diff hok
  have hgone : (⟨7⟩ : UserId) ∉ t'.usersOf ⟨1⟩ .read := by
    rw [hlisted.usersOf, ← Tables.not_noOther_iff]
    decide +kernel
  have hkept : (⟨8⟩ : UserId) ∈ t'.usersOf ⟨1⟩ .read := by
    rw [hlisted.usersOf, ← Tables.not_noOther_iff]
    decide +kernel
  obtain ⟨t'', hran, -⟩ := hagain ⟨2, 0⟩
  rw [hleft] at hran
  exact ⟨hkeyed, hagree, by decide +kernel, by decide +kernel, diff, t', Prod.ext hok hleft, hlisted,
    hgone, mt (hlisted.agree ⟨7⟩).2 hgone, hkept, (hlisted.agree ⟨8⟩).1 hkept, t'', hran⟩

end RepoAccess
