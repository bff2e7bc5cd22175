/-
A grant moves what is promised, all of it and nothing else, and only once.

* `Tables.Migrated` — what is different after a grant that finds something, and that the rest is
  not;
* `grant_migrates_exactly` — from every reachable store, a grant either changes nothing or migrates,
  with exact counts, and a second one finds nothing.

That a name is off every list, and not only off those that its own row leads to, is the mirror of
the two places of a promise.
-/
import RepoAccess.Proofs.AliasGroups
import RepoAccess.Proofs.PendingHistory

namespace RepoAccess

open Std

/-! ### What is different afterwards -/

namespace Tables

variable {now : Timestamp} {user : UserId} {perm : Permission} {t t' : Tables}

/-- A user has been given these repositories, which had been promised to these aliases: the user's
row holds them, their rows hold the user, there is a source for each of them, and the aliases are
gone from both places of a promise. The rest is as it was. -/
structure Migrated (now : Timestamp) (user : UserId) (perm : Permission) (matched : List Alias)
    (repos : RepoSet) (t t' : Tables) : Prop where
  userRow : t'.userRow user perm =
    some { (t.userRow user perm).getD { user, perm, updatedAt := now } with
      repos := t.reposOf user perm ∪ repos, updatedAt := now }
  otherUserRow : ∀ user' perm', ¬ (user' = user ∧ perm' = perm) →
    t'.userRow user' perm' = t.userRow user' perm'
  usersOf : ∀ repo perm' user', user' ∈ t'.usersOf repo perm' ↔
    user' ∈ t.usersOf repo perm' ∨ user' = user ∧ perm' = perm ∧ repo ∈ repos
  otherRepoRow : ∀ repo perm', ¬ (perm' = perm ∧ repo ∈ repos) →
    t'.repoRow repo perm' = t.repoRow repo perm'
  reasons : ∀ user' perm' repo source, source ∈ t'.reasons ⟨user', perm', repo⟩ ↔
    source = .grant ∧ user' = user ∧ perm' = perm ∧ repo ∈ repos ∨
      source ∈ t.reasons ⟨user', perm', repo⟩
  pendingRow : ∀ holder ∈ matched, t'.pendingRow holder perm = none
  otherPendingRow : ∀ holder perm', ¬ (holder ∈ matched ∧ perm' = perm) →
    t'.pendingRow holder perm' = t.pendingRow holder perm'
  invitedBy : ∀ repo perm' provider bindId, bindId ∈ t'.invitedBy repo perm' provider ↔
    bindId ∈ t.invitedBy repo perm' provider ∧ ¬ (⟨provider, bindId⟩ ∈ matched ∧ perm' = perm)
  otherInvitedRow : ∀ repo perm' provider,
    (∀ bindId ∈ t.invitedBy repo perm' provider,
      ¬ (⟨provider, bindId⟩ ∈ matched ∧ perm' = perm)) →
      t'.invitedRow repo perm' provider = t.invitedRow repo perm' provider
  overlays : t'.overlays = t.overlays

namespace Claimed

variable {matched : List Alias} {repos : RepoSet}

/-- Where the two places of a promise agree, a claim is a migration. -/
theorem migrated (h : Claimed now user perm matched repos t t') (ht : t.Mirrored) :
    Migrated now user perm matched repos t t' where
  userRow := by rw [h.userRow, if_pos ⟨rfl, rfl⟩]
  otherUserRow := by
    intro user' perm' hother
    rw [h.userRow, if_neg hother]
  usersOf := fun repo perm' user' => h.mem_usersOf
  otherRepoRow := by
    intro repo perm' hother
    rw [h.repoRow, if_neg hother]
  reasons := fun user' perm' repo source => h.mem_reasons
  pendingRow := by
    intro holder hmatched
    rw [h.pendingRow, if_pos ⟨hmatched, rfl⟩]
  otherPendingRow := by
    intro holder perm' hother
    rw [h.pendingRow, if_neg hother]
  invitedBy := by
    intro repo perm' provider bindId
    rw [h.mem_invitedBy, ht ⟨provider, bindId⟩ perm' repo]
    constructor
    · rintro ⟨hmem, hstays⟩
      exact ⟨hmem, fun hgone => hstays ⟨hgone, hmem⟩⟩
    · rintro ⟨hmem, hstays⟩
      exact ⟨hmem, fun hboth => hstays hboth.1⟩
  otherInvitedRow := by
    intro repo perm' provider hother
    rw [h.invitedRow]
    cases hrow : t.invitedRow repo perm' provider with
    | none => rfl
    | some row =>
      rw [Option.map_some, PendingHolders.without_of_disjoint]
      intro bindId hmem
      rw [decide_eq_false (hother bindId (mem_invitedBy_iff.2 ⟨row, hrow, hmem⟩)), Bool.false_and]
  overlays := h.overlays

end Claimed

end Tables

/-! ### Grants -/

/-- Where nothing is promised to the candidates, a grant finds nothing and leaves the store as it
is. -/
theorem grant_of_nothing {s : MemoryStore} {asked : GrantRequest} {mode : BindingMode}
    {identity : Identity} (hs : s.shared.Keyed) (hstaged : s.staged = none)
    (hnothing : s.shared.claimants asked.perm (identity.candidates mode) = []) (now : Timestamp)
    (setup : Setup) (hid : setup.identityOf asked.user = .ok identity) :
    ((setup.engine.grantUnder now asked mode).start s).1 =
        .ok (unmatched mode (identity.candidates mode)) ∧
      ((setup.engine.grantUnder now asked mode).start s).2.1 = s := by
  rcases effect_grant_cases hs now setup asked mode hid with
    ⟨-, hstops, -⟩ | ⟨-, -, hgrant⟩ | ⟨-, hmatched, -⟩
  · exact absurd hnothing (hstops hstaged).1
  · exact Prod.ext_iff.1 hgrant
  · exact absurd hnothing hmatched

/-- A grant succeeds unless it has to wait or its commit is refused. If nothing is promised to the
candidates, it answers so and leaves the store as it is; otherwise it answers with exact counts and
migrates what is promised, and the same grant then finds nothing and leaves the store as it is. A
grant that fails leaves the store as it is, too. -/
theorem grant_migrates_exactly (events : List Event) (now : Timestamp) (setup : Setup)
    (asked : GrantRequest) (mode : BindingMode) {identity : Identity}
    (hid : setup.identityOf asked.user = .ok identity) :
    let s := (Chronicle.of events).store
    let candidates := identity.candidates mode
    let matched := s.shared.claimants asked.perm candidates
    let repos := s.shared.claimable asked.perm candidates
    let ran := (setup.engine.grantUnder now asked mode).start s
    candidates.Nodup ∧
    (∀ holder, holder ∈ matched ↔
      holder ∈ candidates ∧ s.shared.promisedTo holder asked.perm ≠ ∅) ∧
    (∀ repo, repo ∈ repos ↔ ∃ holder ∈ matched, repo ∈ s.shared.promisedTo holder asked.perm) ∧
    ((∃ outcome, ran.1 = .ok outcome) ↔
      candidates = [] ∨ s.staged = none ∧ (matched = [] ∨ s.refusesCommits = false)) ∧
    (∀ stop, ran.1 = .error stop → ran.2.1 = s) ∧
    (matched = [] → ∀ outcome, ran.1 = .ok outcome →
      outcome = { mode, candidates := candidates.length, matched := 0, granted := 0, added := 0 } ∧
      ran.2.1 = s) ∧
    (matched ≠ [] → ∀ outcome, ran.1 = .ok outcome →
      outcome =
        { mode, candidates := candidates.length, matched := matched.length, granted := repos.size,
          added := (repos \ s.shared.reposOf asked.user asked.perm).size } ∧
      (∃ t', ran.2.1 = { s with shared := t' } ∧
        Tables.Migrated now asked.user asked.perm matched repos s.shared t') ∧
      ∀ (now' : Timestamp) (setup' : Setup), setup'.identityOf asked.user = .ok identity →
        let again := (setup'.engine.grantUnder now' asked mode).start ran.2.1
        again.1 = .ok
          { mode, candidates := candidates.length, matched := 0, granted := 0, added := 0 } ∧
        again.2.1 = ran.2.1) := by
  intro s candidates matched repos ran
  have hkeyed : s.shared.Keyed := Chronicle.keyed_of events
  have hmirror : s.shared.Mirrored := Chronicle.mirrored_of events
  have hran : (ran.1, ran.2.1) = (setup.engine.grantUnder now asked mode).effect s := rfl
  refine ⟨identity.nodup_candidates mode, fun holder => Tables.mem_claimants,
    fun repo => Tables.mem_claimable, ?_⟩
  rcases effect_grant_cases hkeyed now setup asked mode hid with
    ⟨hsome, hstops, stop, hgrant⟩ | ⟨hfree, hnothing, hgrant⟩ |
    ⟨hstaged, hmatched, hrefuses, t', hexec, hclaimed, hgrant⟩
  -- The grant waits, or its commit is refused.
  · obtain ⟨hanswer, hstore⟩ : ran.1 = .error stop ∧ ran.2.1 = s :=
      Prod.ext_iff.1 (hran.trans hgrant)
    refine ⟨⟨?_, ?_⟩, fun _ _ => hstore, ?_, ?_⟩
    · rintro ⟨outcome, hok⟩
      rw [hanswer] at hok
      cases hok
    · rintro (hnone | ⟨hstaged, hok⟩)
      · exact absurd hnone hsome
      · obtain ⟨hmatched, hrefuses⟩ := hstops hstaged
        rcases hok with hnothing | hcommits
        · exact absurd hnothing hmatched
        · rw [hcommits] at hrefuses
          cases hrefuses
    · intro _ outcome hok
      rw [hanswer] at hok
      cases hok
    · intro _ outcome hok
      rw [hanswer] at hok
      cases hok
  -- Nothing is promised to the candidates.
  · obtain ⟨hanswer, hstore⟩ : ran.1 = .ok (unmatched mode candidates) ∧ ran.2.1 = s :=
      Prod.ext_iff.1 (hran.trans hgrant)
    refine ⟨⟨fun _ => hfree.imp_right fun hstaged => ⟨hstaged, .inl hnothing⟩,
      fun _ => ⟨_, hanswer⟩⟩, fun _ _ => hstore, ?_, fun hmatched => absurd hnothing hmatched⟩
    intro _ outcome hok
    rw [hanswer] at hok
    cases hok
    exact ⟨rfl, hstore⟩
  -- Something is.
  · obtain ⟨hanswer, hstore⟩ : ran.1 = .ok (matchedOutcome s.shared asked mode candidates) ∧
      ran.2.1 = { s with shared := t' } := Prod.ext_iff.1 (hran.trans hgrant)
    refine ⟨⟨fun _ => .inr ⟨hstaged, .inr hrefuses⟩, fun _ => ⟨_, hanswer⟩⟩, ?_,
      fun hnothing => absurd hnothing hmatched, ?_⟩
    · intro stop hstop
      rw [hanswer] at hstop
      cases hstop
    · intro _ outcome hok
      rw [hanswer] at hok
      cases hok
      refine ⟨?_, ⟨t', hstore, hclaimed.migrated hmirror⟩, fun now' setup' hid' => ?_⟩
      · rw [matchedOutcome, size_union_sub_size]
      · -- The second grant starts from tables in which the candidates have nothing left.
        have hkeyed' : t'.Keyed := by
          rw [hexec]
          exact hkeyed.exec now _
        rw [hstore]
        exact grant_of_nothing (s := { s with shared := t' }) hkeyed' hstaged
          hclaimed.claimants_eq_nil now' setup' hid'

/-- Two repositories are promised to an alias, and its user has one of them already. -/
theorem grant_migrates_exactly_twice :
    let identity : Identity := ⟨⟨7⟩, some "a", [], []⟩
    let setup : Setup := { identityOf := fun _ => .ok identity }
    let asked : GrantRequest := { user := ⟨7⟩, perm := .read }
    let events : List Event := [.write ⟨0, 0⟩ (.replaceHolders ⟨1⟩ .read {⟨7⟩}),
      .write ⟨0, 0⟩ (.replaceInvited ⟨.internal, ["a", "b"]⟩ ⟨1⟩ .read),
      .write ⟨0, 0⟩ (.replaceInvited ⟨.internal, ["a"]⟩ ⟨2⟩ .read)]
    setup.identityOf asked.user = .ok identity ∧
    (Chronicle.of events).store.shared.claimants .read (identity.candidates .username) ≠ [] ∧
    ∃ outcome s',
      ((setup.engine.grantUnder ⟨1, 0⟩ asked .username).start (Chronicle.of events).store).1 =
        .ok outcome ∧
      outcome = { mode := .username, candidates := 1, matched := 1, granted := 2, added := 1 } ∧
      ((setup.engine.grantUnder ⟨1, 0⟩ asked .username).start (Chronicle.of events).store).2.1 =
        s' ∧
      ((setup.engine.grantUnder ⟨2, 0⟩ asked .username).start s').2.1 = s' := by
  intro identity setup asked events
  have hmatched : (Chronicle.of events).store.shared.claimants .read
      (identity.candidates .username) ≠ [] := by
    decide +kernel
  have hfree : (Chronicle.of events).store.staged = none ∧
      (Chronicle.of events).store.refusesCommits = false := by
    decide +kernel
  have hid : setup.identityOf asked.user = .ok identity := rfl
  have hlaws := grant_migrates_exactly events ⟨1, 0⟩ setup asked .username hid
  obtain ⟨outcome, hok⟩ := hlaws.2.2.2.1.2 (.inr ⟨hfree.1, .inr hfree.2⟩)
  obtain ⟨hexact, -, hagain⟩ := hlaws.2.2.2.2.2.2 hmatched outcome hok
  refine ⟨hid, hmatched, outcome, _, hok, ?_, rfl, (hagain ⟨2, 0⟩ setup hid).2⟩
  rw [hexact]
  decide +kernel

end RepoAccess
