/-
Deleting a user's rows takes the user out of one of two places.

* `Tables.UserDeleted.mutual_iff` — afterwards the rows of users and of repositories agree only if
  the user held nothing;
* `deletion_keeps_memberships` — what a deletion leaves, and what the next list says that names the
  user again.

The rows of repositories are as they were: each of them that held the user still does. A list that
names the user again brings both places together, but does not count the user as new.
-/
import RepoAccess.Proofs.Agreement
import RepoAccess.Proofs.Writers.Counts

namespace RepoAccess

open Std

/-! ### What a deletion leaves -/

namespace Tables.UserDeleted

variable {user : UserId} {t t' : Tables}

theorem usersOf (h : UserDeleted user t t') (repo : RepoId) (perm : Permission) :
    t'.usersOf repo perm = t.usersOf repo perm := by
  rw [Tables.usersOf, repoRow, h.repos, Tables.usersOf, repoRow]

/-- The rows of users and of repositories agree afterwards only if the user held nothing. -/
theorem mutual_iff (h : UserDeleted user t t') (ht : t.Mutual) :
    t'.Mutual ↔ ∀ perm repo, repo ∉ t.reposOf user perm := by
  constructor
  · intro hmutual perm repo hheld
    have hmember : user ∈ t'.usersOf repo perm := by
      rw [h.usersOf]
      exact (ht user perm repo).2 hheld
    exact (h.mem_reposOf.1 ((hmutual user perm repo).1 hmember)).1 rfl
  · intro hnone user' perm repo
    rw [h.usersOf, ht, h.mem_reposOf]
    constructor
    · intro hheld
      refine ⟨?_, hheld⟩
      rintro rfl
      exact hnone perm repo hheld
    · exact And.right

end Tables.UserDeleted

/-- Where the two places agree, the deletion of a user's rows takes the user's access away and
leaves the rows of all others and those of the repositories as they were. So a repository's row
holds the user afterwards exactly if the user held the repository, and the places agree only if the
user held nothing. A list that names the user again is written, and gives the user the repository
from both sides; among those it counts as new are the users whom the row did not hold, the deleted
one only if the repository was not held before the deletion. -/
theorem deletion_keeps_memberships (events : List Event)
    (hmutual : (Chronicle.of events).store.shared.Mutual) {now : Timestamp} {user : UserId}
    {count : Nat} {left : MemoryStore}
    (hdelete : memoryStore.once now (Tx.deleteUser user) (Chronicle.of events).store =
      (.ok count, left)) :
    let s := (Chronicle.of events).store
    (∀ user' perm, left.shared.userRow user' perm =
      if user' = user then none else s.shared.userRow user' perm) ∧
    left.shared.repos = s.shared.repos ∧
    (∀ perm repo, user ∈ left.shared.usersOf repo perm ↔ repo ∈ s.shared.reposOf user perm) ∧
    (left.shared.Mutual ↔ ∀ perm repo, repo ∉ s.shared.reposOf user perm) ∧
    ∀ now' repo perm named, user ∈ named → ∃ diff again,
      memoryStore.once now' (Tx.replaceHolders now' repo perm named) left = (.ok diff, again) ∧
      diff.added = (named \ left.shared.usersOf repo perm).size ∧
      (user ∈ named \ left.shared.usersOf repo perm ↔ repo ∉ s.shared.reposOf user perm) ∧
      user ∈ again.shared.usersOf repo perm ∧ repo ∈ again.shared.reposOf user perm := by
  intro s
  have hfree : s.Free := MemoryStore.free_of_once hdelete
  have hran := MemoryStore.once_of_free hfree now (Tx.deleteUser user)
  have hdeleted : Tables.UserDeleted user s.shared ((Tx.deleteUser user).exec now s.shared).2 :=
    Tx.userDeleted_deleteUser now user
  have hkeyed : ((Tx.deleteUser user).exec now s.shared).2.Keyed :=
    (Chronicle.keyed_of events).exec now _
  rw [hdelete] at hran
  obtain rfl : left = _ := congrArg Prod.snd hran
  generalize ((Tx.deleteUser user).exec now s.shared).2 = t at hdeleted hkeyed
  have hmember : ∀ perm repo, user ∈ t.usersOf repo perm ↔ repo ∈ s.shared.reposOf user perm := by
    intro perm repo
    rw [hdeleted.usersOf]
    exact hmutual user perm repo
  refine ⟨hdeleted.userRow, hdeleted.repos, hmember, hdeleted.mutual_iff hmutual, ?_⟩
  intro now' repo perm named hnamed
  have hfree' : MemoryStore.Free { s with shared := t } := hfree
  have hreplaced : Tables.HoldersReplaced now' repo perm named t
      ((Tx.replaceHolders now' repo perm named).exec now' t).2 :=
    Tx.holdersReplaced_replaceHolders hkeyed named
  refine ⟨_, _, MemoryStore.once_of_free hfree' now' _, Tx.added_replaceHolders named hkeyed,
    ?_, ?_, ?_⟩
  · rw [ExtTreeSet.mem_diff_iff, hmember]
    exact and_iff_right hnamed
  · exact (hreplaced.usersOf user).2 (.inl hnamed)
  · rw [hreplaced.mem_reposOf, if_pos ⟨rfl, rfl⟩]
    exact .inl hnamed

/-- A user holds a repository, is deleted, and is named again together with somebody else, who alone
counts as new. -/
theorem deletion_keeps_memberships_of_holder :
    let s := (Chronicle.of [.write ⟨0, 0⟩ (.replaceHolders ⟨1⟩ .read {⟨7⟩})]).store
    let left := (memoryStore.once ⟨1, 0⟩ (Tx.deleteUser ⟨7⟩) s).2
    s.shared.Mutual ∧ memoryStore.once ⟨1, 0⟩ (Tx.deleteUser ⟨7⟩) s = (.ok 1, left) ∧
    (⟨7⟩ : UserId) ∈ left.shared.usersOf ⟨1⟩ .read ∧ ¬ left.shared.Mutual ∧
    ∃ diff again, memoryStore.once ⟨2, 0⟩ (Tx.replaceHolders ⟨2, 0⟩ ⟨1⟩ .read {⟨7⟩, ⟨8⟩}) left =
        (.ok diff, again) ∧ diff.added = 1 ∧ (⟨1⟩ : RepoId) ∈ again.shared.reposOf ⟨7⟩ .read := by
  intro s left
  have hmutual : s.shared.Mutual := Chronicle.mutual_of (by simp)
  have hcount : ((Tx.deleteUser ⟨7⟩).exec ⟨1, 0⟩ s.shared).1 = 1 := by decide +kernel
  have hanswer := (s.answers_once ⟨1, 0⟩ (Tx.deleteUser ⟨7⟩)).1 (by decide +kernel)
    (by decide +kernel)
  have hdelete : memoryStore.once ⟨1, 0⟩ (Tx.deleteUser ⟨7⟩) s = (.ok 1, left) :=
    Prod.ext (hanswer.trans (congrArg Except.ok hcount)) rfl
  obtain ⟨-, -, hmember, hagree, hnamed⟩ := deletion_keeps_memberships _ hmutual hdelete
  have hheld : (⟨1⟩ : RepoId) ∈ s.shared.reposOf ⟨7⟩ .read := by decide +kernel
  obtain ⟨diff, again, hran, hadded, -, -, hrepo⟩ :=
    hnamed ⟨2, 0⟩ ⟨1⟩ .read {⟨7⟩, ⟨8⟩} (by decide +kernel)
  refine ⟨hmutual, hdelete, (hmember .read ⟨1⟩).2 hheld, fun h => hagree.1 h .read ⟨1⟩ hheld,
    diff, again, hran, ?_, hrepo⟩
  rw [hadded]
  decide +kernel

/-- Not every deletion keeps the two places in agreement, and not every list that names a deleted
user again reports an addition. -/
theorem deletion_breaks_agreement :
    let s := (Chronicle.of [.write ⟨0, 0⟩ (.replaceHolders ⟨1⟩ .read {⟨7⟩})]).store
    let left := (memoryStore.once ⟨1, 0⟩ (Tx.deleteUser ⟨7⟩) s).2
    s.shared.Mutual ∧ (memoryStore.once ⟨1, 0⟩ (Tx.deleteUser ⟨7⟩) s).1 = .ok 1 ∧
    ¬ left.shared.Mutual ∧ (⟨7⟩ : UserId) ∈ left.shared.usersOf ⟨1⟩ .read ∧
    (memoryStore.once ⟨2, 0⟩ (Tx.replaceHolders ⟨2, 0⟩ ⟨1⟩ .read {⟨7⟩}) left).1 =
      .ok { added := 0, removed := 0, found := true } := by
  intro s left
  have hmember : (⟨7⟩ : UserId) ∈ left.shared.usersOf ⟨1⟩ .read := by decide +kernel
  have hgone : (⟨1⟩ : RepoId) ∉ left.shared.reposOf ⟨7⟩ .read := by decide +kernel
  have hcount : ((Tx.deleteUser ⟨7⟩).exec ⟨1, 0⟩ s.shared).1 = 1 := by decide +kernel
  have hdiff : ((Tx.replaceHolders ⟨2, 0⟩ ⟨1⟩ .read {⟨7⟩}).exec ⟨2, 0⟩ left.shared).1 =
      { added := 0, removed := 0, found := true } := by
    decide +kernel
  have hdelete := (s.answers_once ⟨1, 0⟩ (Tx.deleteUser ⟨7⟩)).1 (by decide +kernel)
    (by decide +kernel)
  have hreplace := (left.answers_once ⟨2, 0⟩ (Tx.replaceHolders ⟨2, 0⟩ ⟨1⟩ .read {⟨7⟩})).1
    (by decide +kernel) (by decide +kernel)
  exact ⟨Chronicle.mutual_of (by simp), hdelete.trans (congrArg Except.ok hcount),
    fun hmutual => hgone ((hmutual ⟨7⟩ .read ⟨1⟩).1 hmember), hmember,
    hreplace.trans (congrArg Except.ok hdiff)⟩

end RepoAccess
