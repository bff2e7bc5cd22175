/-
Effective access is one fact, kept in three places.

* `Tables.Grounded` — a user's row holds the repositories for which there is a reason;
* `Tables.AgreeOn`, `Tables.Mutual` — a repository's row holds the users whose rows hold the
  repository, for one repository and for all of them;
* `Deed.keeps_grounded` — every deed keeps the first;
* `Deed.keeps_mutual` — every deed but the deletion of a user's rows keeps the second;
* `access_agrees` — after a run without such deletions the three places agree, and a check of access
  answers from the repositories' side as well.

The deletion of a user's rows leaves the user in the rows of repositories. A revocation does not.
-/
import RepoAccess.Proofs.Course.Effect

namespace RepoAccess

open Std

namespace Tables

variable {t t' : Tables} {now : Timestamp}

/-! ### The invariants -/

/-- A user's row holds the repositories for which there is a reason. -/
def Grounded (t : Tables) : Prop :=
  ∀ user perm repo, repo ∈ t.reposOf user perm ↔ t.reasons ⟨user, perm, repo⟩ ≠ ∅

/-- The repository's row holds the users whose rows hold the repository. -/
def AgreeOn (t : Tables) (repo : RepoId) (perm : Permission) : Prop :=
  ∀ user, user ∈ t.usersOf repo perm ↔ repo ∈ t.reposOf user perm

/-- A repository's row holds the users whose rows hold the repository. -/
def Mutual (t : Tables) : Prop :=
  ∀ user perm repo, user ∈ t.usersOf repo perm ↔ repo ∈ t.reposOf user perm

theorem grounded_empty : Grounded {} := by
  intro user perm repo
  simp [reposOf, userRow, reasons]

theorem mutual_empty : Mutual {} := by
  intro user perm repo
  simp [usersOf, repoRow, reposOf, userRow]

theorem SameAccess.keeps_grounded (h : SameAccess t t') (ht : t.Grounded) : t'.Grounded := by
  intro user perm repo
  rw [reposOf, userRow, h.1, h.reasons]
  exact ht user perm repo

theorem SameAccess.keeps_mutual (h : SameAccess t t') (ht : t.Mutual) : t'.Mutual := by
  obtain ⟨husers, hrepos, hsources, -⟩ := h
  intro user perm repo
  rw [reposOf, userRow, husers, usersOf, repoRow, hrepos]
  exact ht user perm repo

/-! ### A repository's own list -/

theorem Grounded.holdersReplaced {repo : RepoId} {perm : Permission} {named : UserSet}
    (ht : t.Grounded) (h : HoldersReplaced now repo perm named t t') : t'.Grounded := by
  intro user perm' repo'
  rw [h.mem_reposOf, h.reasons]
  by_cases hslot : perm' = perm ∧ repo' = repo
  · obtain ⟨rfl, rfl⟩ := hslot
    by_cases hnamed : user ∈ named
    · simp [hnamed, ExtTreeSet.insert_ne_empty]
    · -- A user who loses the last reason loses the repository: the row agreed with the reasons.
      have hleft : (t.reasons ⟨user, perm', repo'⟩).erase .repoSync ≠ ∅ ↔
          ¬ t.NoOther ⟨user, perm', repo'⟩ .repoSync := Iff.rfl
      simp only [hnamed, false_or, if_false, and_self, if_true]
      rw [hleft, ht, reasons_ne_empty_iff .repoSync, Loses]
      constructor
      · rintro ⟨hsync | hother, hstays⟩ hno
        · exact hstays ⟨hnamed, .inr hsync, hno⟩
        · exact hother hno
      · intro hother
        exact ⟨.inr hother, fun hloses => hother hloses.2.2⟩
  · rw [if_neg hslot, if_neg hslot, ht]

theorem AgreeOn.holdersReplaced {repo : RepoId} {perm : Permission} {named : UserSet}
    (ht : t.AgreeOn repo perm) (h : HoldersReplaced now repo perm named t t') :
    t'.AgreeOn repo perm := by
  intro user
  rw [h.mem_reposOf, if_pos ⟨rfl, rfl⟩, h.usersOf, Loses, ht]
  constructor
  · rintro (hnamed | ⟨hheld, hother⟩)
    · exact .inl hnamed
    · exact .inr ⟨hheld, fun hloses => hother hloses.2.2⟩
  · rintro (hnamed | ⟨hheld, hstays⟩)
    · exact .inl hnamed
    · by_cases hnamed : user ∈ named
      · exact .inl hnamed
      · -- Who holds the repository is in its row, so counts as named before.
        exact .inr ⟨hheld, fun hother => hstays ⟨hnamed, .inl hheld, hother⟩⟩

theorem Mutual.holdersReplaced {repo : RepoId} {perm : Permission} {named : UserSet}
    (ht : t.Mutual) (h : HoldersReplaced now repo perm named t t') : t'.Mutual := by
  intro user perm' repo'
  by_cases hslot : perm' = perm ∧ repo' = repo
  · obtain ⟨rfl, rfl⟩ := hslot
    exact AgreeOn.holdersReplaced (fun user => ht user perm' repo') h user
  · rw [h.mem_reposOf, h.mem_usersOf, if_neg hslot, if_neg hslot, ht]

/-! ### A linked account -/

theorem Grounded.accountReplaced {user : UserId} {account : AccountId} {named : RepoSet}
    (ht : t.Grounded) (h : AccountReplaced now user account named t t') : t'.Grounded := by
  intro user' perm repo
  rw [h.mem_reposOf, h.reasons]
  by_cases hslot : user' = user ∧ perm = .read
  · obtain ⟨rfl, rfl⟩ := hslot
    by_cases hnamed : repo ∈ named
    · simp [hnamed, ExtTreeSet.insert_ne_empty]
    · have hleft : (t.reasons ⟨user', .read, repo⟩).erase (.account account) ≠ ∅ ↔
          ¬ t.NoOther ⟨user', .read, repo⟩ (.account account) := Iff.rfl
      simp only [hnamed, false_or, if_false, and_self, if_true]
      rw [hleft, ht, reasons_ne_empty_iff (.account account), Leaves]
      constructor
      · rintro ⟨hbrought | hother, hstays⟩ hno
        · exact hstays ⟨hnamed, hbrought, hno⟩
        · exact hother hno
      · intro hother
        exact ⟨.inr hother, fun hleaves => hother hleaves.2.2⟩
  · rw [if_neg hslot, if_neg hslot, ht]

theorem Mutual.accountReplaced {user : UserId} {account : AccountId} {named : RepoSet}
    (ht : t.Mutual) (h : AccountReplaced now user account named t t') : t'.Mutual := by
  intro user' perm repo
  rw [h.mem_usersOf, h.mem_reposOf, ht]
  by_cases hslot : user' = user ∧ perm = .read
  · obtain ⟨rfl, rfl⟩ := hslot
    rw [if_pos ⟨rfl, rfl⟩]
    constructor
    · rintro (⟨-, -, hnamed, -⟩ | ⟨hheld, hstays⟩)
      · exact .inl hnamed
      · exact .inr ⟨hheld, fun hleaves => hstays ⟨rfl, rfl, hleaves⟩⟩
    · rintro (hnamed | ⟨hheld, hstays⟩)
      · by_cases hheld : repo ∈ t.reposOf user' .read
        · -- What the account still brings does not leave.
          exact .inr ⟨hheld, fun hall => hall.2.2.1 hnamed⟩
        · exact .inl ⟨rfl, rfl, hnamed, hheld⟩
      · exact .inr ⟨hheld, fun hall => hstays hall.2.2⟩
  · rw [if_neg hslot]
    constructor
    · rintro (⟨huser, hread, -⟩ | ⟨hheld, -⟩)
      · exact absurd ⟨huser, hread⟩ hslot
      · exact hheld
    · exact fun hheld => .inr ⟨hheld, fun hall => hslot ⟨hall.1, hall.2.1⟩⟩

/-! ### Claiming and forgetting -/

theorem Grounded.claimed {user : UserId} {perm : Permission} {matched : List Alias}
    {repos : RepoSet} (ht : t.Grounded) (h : Claimed now user perm matched repos t t') :
    t'.Grounded := by
  intro user' perm' repo
  rw [h.mem_reposOf, h.reasons, ht]
  split
  · next hslot => simp [hslot, ExtTreeSet.insert_ne_empty]
  · next hslot => simp [hslot]

theorem Mutual.claimed {user : UserId} {perm : Permission} {matched : List Alias}
    {repos : RepoSet} (ht : t.Mutual) (h : Claimed now user perm matched repos t t') :
    t'.Mutual := by
  intro user' perm' repo
  rw [h.mem_usersOf, h.mem_reposOf, ht]

theorem Grounded.forgotten {user : UserId} {holders : List Alias} (ht : t.Grounded)
    (h : Forgotten now user holders t t') : t'.Grounded := by
  intro user' perm repo
  rw [h.mem_reposOf, h.reasons, ht]
  split
  · next huser => simp [huser]
  · next huser => simp [huser]

theorem Mutual.forgotten {user : UserId} {holders : List Alias} (ht : t.Mutual)
    (h : Forgotten now user holders t t') : t'.Mutual := by
  intro user' perm repo
  rw [h.mem_usersOf, h.mem_reposOf, ht]

theorem Grounded.userDeleted {user : UserId} (ht : t.Grounded) (h : UserDeleted user t t') :
    t'.Grounded := by
  intro user' perm repo
  rw [h.mem_reposOf, h.reasons, ht]
  split
  · next huser => simp [huser]
  · next huser => simp [huser]

end Tables

/-! ### Every deed -/

variable {now : Timestamp} {t t' : Tables}

/-- Every deed keeps rows of users and reasons in agreement. -/
theorem Deed.keeps_grounded {d : Deed} (h : d.Effect now t t') (ht : t.Grounded) : t'.Grounded := by
  cases d with
  | wrote w =>
    cases w with
    | replaceHolders repo perm users => exact ht.holdersReplaced h
    | replaceInvited group repo perm => exact h.access.keeps_grounded ht
    | replaceAccount user account repos => exact ht.accountReplaced h
    | clearAliases holders => exact h.access.keeps_grounded ht
    | saveOverlay user repo overlay =>
      obtain rfl : t' = _ := h
      exact ht
    | deleteOverlays user =>
      obtain rfl : t' = _ := h
      exact ht
    | deleteUser user => exact ht.userDeleted h
  | granted user perm candidates repos => exact ht.claimed h.2
  | revoked user holders => exact ht.forgotten h

/-- Every deed but one keeps the two kinds of rows in agreement. -/
theorem Deed.keeps_mutual {d : Deed} (hd : ∀ user, d ≠ .wrote (.deleteUser user))
    (h : d.Effect now t t') (ht : t.Mutual) : t'.Mutual := by
  cases d with
  | wrote w =>
    cases w with
    | replaceHolders repo perm users => exact ht.holdersReplaced h
    | replaceInvited group repo perm => exact h.access.keeps_mutual ht
    | replaceAccount user account repos => exact ht.accountReplaced h
    | clearAliases holders => exact h.access.keeps_mutual ht
    | saveOverlay user repo overlay =>
      obtain rfl : t' = _ := h
      exact ht
    | deleteOverlays user =>
      obtain rfl : t' = _ := h
      exact ht
    | deleteUser user => exact absurd rfl (hd user)
  | granted user perm candidates repos => exact ht.claimed h.2
  | revoked user holders => exact ht.forgotten h

/-! ### Runs -/

namespace Chronicle

theorem grounded_of (events : List Event) : (of events).store.shared.Grounded :=
  (deeds_induction (P := fun _ t => t.Grounded) Tables.grounded_empty
    (fun _ _ _ _ _ _ _ hd ht => Deed.keeps_grounded hd ht) events).2.2

/-- Where no client deletes a user's rows, the two kinds of rows agree. -/
theorem mutual_of {events : List Event}
    (h : ∀ now user, Event.write now (.deleteUser user) ∉ events) :
    (of events).store.shared.Mutual := by
  refine (deeds_induction
    (P := fun deeds t => (∀ user, Deed.wrote (.deleteUser user) ∉ deeds) → t.Mutual)
    (fun _ => Tables.mutual_empty) ?_ events).2.2 (deleteUser_not_mem h)
  rintro now d deeds t t' - - hd hmutual hnone
  refine Deed.keeps_mutual (fun user hdelete => ?_) hd (hmutual fun user hmem => ?_)
  · exact hnone user (hdelete ▸ List.mem_cons_self)
  · exact hnone user (List.mem_cons_of_mem _ hmem)

end Chronicle

/-- What a check of access answers. -/
theorem answers_authorizedRepos {α : Type} (s : MemoryStore) (setup : Setup) (now : Timestamp)
    (request : AccessRequest) (repoOf : α → RepoId) (repos : List α) :
    s.Answers ((setup.engine.authorizedRepos now request repoOf repos).start s).1
      (repos.filter fun repo =>
        (s.shared.reposOf request.user request.perm).contains (repoOf repo)) := by
  show s.Answers ((setup.engine.authorizedRepos now request repoOf repos).effect s).1 _
  rw [Engine.effect_authorizedRepos]
  cases repos with
  | nil => exact ⟨fun _ _ => rfl, fun other hother => (Except.ok.inj hother).symm⟩
  | cons first rest =>
    obtain ⟨hfree, hany⟩ := answers_request now s (.loadUser request.user request.perm)
    have hstore : setup.engine.store.once now (Tx.request (.loadUser request.user request.perm)) s =
      memoryStore.once now (Tx.request (.loadUser request.user request.perm)) s := rfl
    simp only [hstore, List.isEmpty_cons, Bool.false_eq_true, if_false]
    constructor
    · intro hstaged hrefuses
      rw [hfree hstaged hrefuses]
      rfl
    · intro other hother
      cases hload : (memoryStore.once now
          (Tx.request (.loadUser request.user request.perm)) s).1 with
      | error stop =>
        obtain ⟨stop', hstop⟩ := setup.engine.inTime_error (α := List α) "authorized_repos" stop
        rw [hload, Except.map, hstop] at hother
        cases hother
      | ok row =>
        rw [hload] at hother
        rw [← Except.ok.inj hother, hany row hload]
        rfl

/-- After a run without deletions of users' rows, a user's row holds a repository exactly if the
repository's row holds the user, and exactly if there is a source for it; no stored set of sources
is empty. A check of access answers, in the given order, the repositories whose rows hold the
user. -/
theorem access_agrees (events : List Event)
    (h : ∀ now user, Event.write now (.deleteUser user) ∉ events) :
    let s := (Chronicle.of events).store
    (∀ user perm repo,
      (repo ∈ s.shared.reposOf user perm ↔ user ∈ s.shared.usersOf repo perm) ∧
      (repo ∈ s.shared.reposOf user perm ↔ (⟨user, perm, repo⟩ : SourceKey) ∈ s.shared.sources)) ∧
    (∀ (key : SourceKey) (set : SourceSet), s.shared.sources[key]? = some set → set ≠ ∅) ∧
    ∀ (α : Type) (setup : Setup) (now : Timestamp) (request : AccessRequest) (repoOf : α → RepoId)
      (repos : List α),
      s.Answers ((setup.engine.authorizedRepos now request repoOf repos).start s).1
        (repos.filter fun repo =>
          (s.shared.usersOf (repoOf repo) request.perm).contains request.user) := by
  intro s
  have hground : s.shared.Grounded := Chronicle.grounded_of events
  have hmutual : s.shared.Mutual := Chronicle.mutual_of h
  have hsolid : s.shared.Solid := Chronicle.solid_of events
  refine ⟨fun user perm repo => ⟨(hmutual user perm repo).symm, ?_⟩, hsolid, ?_⟩
  · rw [hground user perm repo, hsolid.mem_sources_iff]
  · intro α setup now request repoOf repos
    have hsame : (repos.filter fun repo =>
        (s.shared.usersOf (repoOf repo) request.perm).contains request.user) =
        repos.filter fun repo =>
          (s.shared.reposOf request.user request.perm).contains (repoOf repo) := by
      congr 1
      funext repo
      rw [Bool.eq_iff_iff, ExtTreeSet.contains_iff_mem, ExtTreeSet.contains_iff_mem]
      exact hmutual request.user request.perm (repoOf repo)
    rw [hsame]
    exact answers_authorizedRepos s setup now request repoOf repos

/-- One of two repositories is accessible, and it is asked for twice. -/
theorem access_agrees_after_listing :
    let events : List Event := [.write ⟨0, 0⟩ (.replaceHolders ⟨1⟩ .read {⟨7⟩})]
    let setup : Setup := { identityOf := fun user => .ok (.unknown user) }
    (∀ now user, Event.write now (.deleteUser user) ∉ events) ∧
    (⟨7⟩ : UserId) ∈ (Chronicle.of events).store.shared.usersOf ⟨1⟩ .read ∧
    ((setup.engine.authorizedRepos ⟨1, 0⟩ { user := ⟨7⟩, perm := .read } id [⟨1⟩, ⟨2⟩, ⟨1⟩]).start
      (Chronicle.of events).store).1 = .ok [⟨1⟩, ⟨1⟩] := by
  intro events setup
  have hnone : ∀ now user, Event.write now (.deleteUser user) ∉ events := by simp [events]
  obtain ⟨hagree, -, hanswers⟩ := access_agrees events hnone
  have hfilter : ([⟨1⟩, ⟨2⟩, ⟨1⟩] : List RepoId).filter (fun repo =>
      ((Chronicle.of events).store.shared.usersOf (id repo) .read).contains ⟨7⟩) =
        [⟨1⟩, ⟨1⟩] := by
    decide +kernel
  have hfree := (hanswers RepoId setup ⟨1, 0⟩ { user := ⟨7⟩, perm := .read } id
    [⟨1⟩, ⟨2⟩, ⟨1⟩]).1 (by decide +kernel) (by decide +kernel)
  rw [hfilter] at hfree
  exact ⟨hnone, (hagree ⟨7⟩ .read ⟨1⟩).1.1 (by decide +kernel), hfree⟩

end RepoAccess
