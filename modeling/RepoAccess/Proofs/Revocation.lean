/-
A revocation leaves nothing of a user, and touches nothing else.

* `Tables.tracesOf` — how many rows there are of a user and of some aliases, and
  `Tx.exec_forget_fst` — forgetting the user counts them;
* `Tables.Forgotten.unique` — what is left does not depend on the order of the aliases or on a
  repetition among them, and `Tables.Forgotten.again` — forgetting once more changes nothing;
* `Tables.Expunged` — what is different after a revocation, and that the rest is not;
* `revocation_leaves_no_trace` — from every reachable store, a revocation that succeeds leaves the
  tables so, reports the rows there were, and succeeds again without changing a thing.

The alias's own row leads to the lists that the alias has to be taken off. That no list is missed is
the mirror of the two places of a promise.
-/
import RepoAccess.Proofs.PendingHistory

namespace RepoAccess

open Std

/-! ### What is counted -/

/-- The rows of a user and of some aliases: the user's own rows, the rows of repositories that hold
the user, the rows of the aliases, and the user's overlays. -/
def Tables.tracesOf (t : Tables) (user : UserId) (holders : List Alias) : RevokeCounts where
  users := (t.users.filter fun key _ => key.user == user).size
  repos := (t.repos.filter fun _ row => row.users.contains user).size
  pending := (t.pending.filter fun key _ => decide (key.holder ∈ holders)).size
  overlays := (t.overlays.filter fun key _ => key.user == user).size

/-- Forgetting a user counts the rows there are of the user and of the aliases. -/
theorem Tx.exec_forget_fst {t : Tables} (ht : t.Keyed) (now : Timestamp) (asked : RevokeRequest) :
    ((forget now asked).exec now t).1 = t.tracesOf asked.user asked.aliases := by
  have hkeyed := (ht.exec now (deleteUser asked.user)).after now (.removeFromRepos asked.user)
  have hcount := exec_clearAliases_fst hkeyed now asked.aliases
  obtain ⟨-, -, -, hoverlays⟩ := (cleared_clearAliases hkeyed now asked.aliases).access
  simp only [forget, exec_bind, exec_pure]
  -- Neither the user's rows nor those of repositories are looked at by the clearing, and the
  -- overlays are still there when they are counted.
  refine congr (congrArg (RevokeCounts.mk _ _) hcount) ?_
  show (ExtTreeMap.filter _ _).size = _
  exact congrArg (fun overlays => (ExtTreeMap.filter _ overlays).size) hoverlays

/-- What a revocation leaves for the operator. -/
def RevokeCounts.report (counts : RevokeCounts) (metrics : Bool) : Journal where
  measurements :=
    if metrics then [.revoked (counts.users + counts.pending + counts.overlays), .took "revoke"]
    else []
  notices := [.revoked counts.users counts.repos counts.pending counts.overlays]

/-! ### What is different afterwards -/

namespace Tables

variable {now : Timestamp} {user : UserId} {holders : List Alias} {t t' t'' : Tables}

/-- Nothing is left of a user and of the promises to these aliases: the user has no row, no source
and no overlay, no repository's row holds the user, the aliases have no row, and no list of their
provider names them. The rest is as it was. -/
structure Expunged (user : UserId) (holders : List Alias) (t t' : Tables) : Prop where
  userRow : ∀ perm, t'.userRow user perm = none
  otherUserRow : ∀ user' perm, user' ≠ user → t'.userRow user' perm = t.userRow user' perm
  source : ∀ perm repo, (⟨user, perm, repo⟩ : SourceKey) ∉ t'.sources
  otherSource : ∀ key : SourceKey, key.user ≠ user → t'.sources[key]? = t.sources[key]?
  overlay : ∀ repo, (⟨user, repo⟩ : OverlayKey) ∉ t'.overlays
  otherOverlay : ∀ key : OverlayKey, key.user ≠ user → t'.overlays[key]? = t.overlays[key]?
  usersOf : ∀ repo perm user', user' ∈ t'.usersOf repo perm ↔
    user' ∈ t.usersOf repo perm ∧ user' ≠ user
  repoRow : ∀ repo perm, (t'.repoRow repo perm).isSome = (t.repoRow repo perm).isSome
  otherRepoRow : ∀ repo perm, user ∉ t.usersOf repo perm →
    t'.repoRow repo perm = t.repoRow repo perm
  pendingRow : ∀ holder ∈ holders, ∀ perm, t'.pendingRow holder perm = none
  otherPendingRow : ∀ holder perm, holder ∉ holders →
    t'.pendingRow holder perm = t.pendingRow holder perm
  invitedBy : ∀ repo perm provider bindId, bindId ∈ t'.invitedBy repo perm provider ↔
    bindId ∈ t.invitedBy repo perm provider ∧ ⟨provider, bindId⟩ ∉ holders
  invitedRow : ∀ repo perm provider,
    (t'.invitedRow repo perm provider).isSome = (t.invitedRow repo perm provider).isSome
  otherInvitedRow : ∀ repo perm provider,
    (∀ bindId ∈ t.invitedBy repo perm provider, ⟨provider, bindId⟩ ∉ holders) →
      t'.invitedRow repo perm provider = t.invitedRow repo perm provider

namespace Forgotten

/-- A row of a repository is touched only if the user was in it. -/
theorem repoRow_of_not_mem (h : Forgotten now user holders t t') {repo : RepoId}
    {perm : Permission} (hout : user ∉ t.usersOf repo perm) :
    t'.repoRow repo perm = t.repoRow repo perm := by
  rw [h.repoRow]
  cases hrow : t.repoRow repo perm with
  | none => rfl
  | some row =>
    rw [Option.map_some, RepoHolders.withoutHolder_of_not_mem]
    exact fun hmem => hout (mem_usersOf_iff.2 ⟨row, hrow, hmem⟩)

/-- A list of aliases is touched only if it names one of them to whom the repository is promised. -/
theorem invitedRow_of_disjoint (h : Forgotten now user holders t t') {repo : RepoId}
    {perm : Permission} {provider : Provider}
    (hout : ∀ bindId ∈ t.invitedBy repo perm provider,
      ¬ (⟨provider, bindId⟩ ∈ holders ∧ repo ∈ t.promisedTo ⟨provider, bindId⟩ perm)) :
    t'.invitedRow repo perm provider = t.invitedRow repo perm provider := by
  rw [h.invitedRow]
  cases hrow : t.invitedRow repo perm provider with
  | none => rfl
  | some row =>
    rw [Option.map_some, PendingHolders.without_of_disjoint]
    intro bindId hmem
    rw [← Bool.not_eq_true, Bool.and_eq_true, decide_eq_true_iff, ExtTreeSet.contains_iff_mem]
    exact hout bindId (mem_invitedBy_iff.2 ⟨row, hrow, hmem⟩)

/-- Where the two places of a promise agree, forgetting leaves nothing. -/
theorem expunged (h : Forgotten now user holders t t') (ht : t.Mirrored) (hs : t.Solid)
    (hs' : t'.Solid) : Expunged user holders t t' where
  userRow := fun perm => by rw [h.userRow, if_pos rfl]
  otherUserRow := fun user' perm hother => by rw [h.userRow, if_neg hother]
  source := fun perm repo => by
    rw [hs'.mem_sources_iff, h.reasons, if_pos rfl]
    exact not_not_intro rfl
  otherSource := fun key hother => by
    rw [hs'.getElem?_sources, hs.getElem?_sources, h.reasons key.user key.perm key.repo,
      if_neg hother]
  overlay := fun repo => by
    rw [ExtTreeMap.mem_iff_isSome_getElem?, h.overlays, getElem?_filter_key]
    simp
  otherOverlay := fun key hother => by
    rw [h.overlays, getElem?_filter_key, if_pos (bne_iff_ne.2 hother)]
  usersOf := fun repo perm user' => h.mem_usersOf.trans and_comm
  repoRow := fun repo perm => by rw [h.repoRow, Option.isSome_map]
  otherRepoRow := fun repo perm hout => h.repoRow_of_not_mem hout
  pendingRow := fun holder hmem perm => by rw [h.pendingRow, if_pos hmem]
  otherPendingRow := fun holder perm hmem => by rw [h.pendingRow, if_neg hmem]
  invitedBy := by
    intro repo perm provider bindId
    -- Whoever is on the list has the repository, so the alias's row leads to the list.
    rw [h.mem_invitedBy, ht ⟨provider, bindId⟩ perm repo]
    constructor
    · rintro ⟨hmem, hstays⟩
      exact ⟨hmem, fun hgone => hstays ⟨hgone, hmem⟩⟩
    · rintro ⟨hmem, hstays⟩
      exact ⟨hmem, fun hboth => hstays hboth.1⟩
  invitedRow := fun repo perm provider => by rw [h.invitedRow, Option.isSome_map]
  otherInvitedRow := fun repo perm provider hout =>
    h.invitedRow_of_disjoint fun bindId hmem hboth => hout bindId hmem hboth.1

/-- What is left depends on the set of the aliases alone. -/
theorem unique {holders' : List Alias} (h : Forgotten now user holders t t')
    (h' : Forgotten now user holders' t t'')
    (hsame : ∀ holder, holder ∈ holders' ↔ holder ∈ holders) (hs : t'.Solid) (hs' : t''.Solid) :
    t'' = t' := by
  refine eq_of_rows hs hs' (fun user' perm => ?_) (fun repo perm => ?_) (fun holder perm => ?_)
    (fun repo perm provider => ?_) (fun key => ?_) ?_
  · rw [h.userRow, h'.userRow]
  · rw [h.repoRow, h'.repoRow]
  · rw [h.pendingRow, h'.pendingRow]
    simp only [hsame]
  · rw [h.invitedRow, h'.invitedRow]
    simp only [hsame]
  · exact (h'.reasons key.user key.perm key.repo).trans (h.reasons key.user key.perm key.repo).symm
  · rw [h.overlays, h'.overlays]

/-- Forgetting once more, at whatever moment, changes nothing. -/
theorem again {now' : Timestamp} (h : Forgotten now user holders t t')
    (h' : Forgotten now' user holders t' t'') (hs : t'.Solid) (hs' : t''.Solid) : t'' = t' := by
  refine eq_of_rows hs hs' (fun user' perm => ?_) (fun repo perm => ?_) (fun holder perm => ?_)
    (fun repo perm provider => ?_) (fun key => ?_) ?_
  · rw [h'.userRow]
    split
    · next huser => rw [h.userRow, if_pos huser]
    · rfl
  · exact h'.repoRow_of_not_mem fun hmem => (h.mem_usersOf.1 hmem).1 rfl
  · rw [h'.pendingRow]
    split
    · next hmem => rw [h.pendingRow, if_pos hmem]
    · rfl
  · refine h'.invitedRow_of_disjoint ?_
    rintro bindId - ⟨hgone, hmem⟩
    exact (h.mem_promisedTo.1 hmem).1 hgone
  · refine (h'.reasons key.user key.perm key.repo).trans ?_
    split
    · next huser => exact ((h.reasons key.user key.perm key.repo).trans (if_pos huser)).symm
    · rfl
  · rw [h'.overlays, h.overlays]
    refine ExtTreeMap.ext_getElem? fun key => ?_
    rw [getElem?_filter_key, getElem?_filter_key]
    split <;> rfl

end Forgotten

end Tables

/-! ### Revocations -/

theorem Engine.start_revoke {σ : Type} {e : Engine σ} {now : Timestamp} {asked : RevokeRequest}
    {s s' : σ} {counts : RevokeCounts}
    (h : e.store.once now (forget now asked) s = (.ok counts, s')) :
    (e.revoke now asked).start s = (.ok (), s', counts.report e.metrics) := by
  have hact : ∀ f : RevokeCounts → Action σ Unit,
      ExceptT.run (e.once now (forget now asked) >>= f) (s, {}) =
        ExceptT.run (f counts) (s', {}) := by
    intro f
    have honce : ExceptT.run (e.once now (forget now asked)) (s, {}) = (.ok counts, s', {}) := by
      show ((e.store.once now (forget now asked) s).1, (e.store.once now (forget now asked) s).2,
        ({} : Journal)) = _
      rw [h]
    rw [Action.run_bind, honce]
  unfold Action.start revoke observe
  simp only [ExceptT.run_mk, bind, StateT.bind] at hact ⊢
  rw [hact, measure, RevokeCounts.report]
  cases e.metrics <;> rfl

/-- In a free store a revocation does what forgetting does, and reports it. -/
theorem start_revoke_of_free {s : MemoryStore} (hs : s.shared.Keyed) (hfree : s.Free)
    (now : Timestamp) (setup : Setup) (asked : RevokeRequest) :
    (setup.engine.revoke now asked).start s =
      (.ok (), { s with shared := ((forget now asked).exec now s.shared).2 },
        (s.shared.tracesOf asked.user asked.aliases).report setup.metrics) := by
  rw [← Tx.exec_forget_fst hs now asked]
  exact Engine.start_revoke (MemoryStore.once_of_free hfree now (forget now asked))

theorem start_revoke_of_not_free {s : MemoryStore} (hfree : ¬ s.Free) (now : Timestamp)
    (setup : Setup) (asked : RevokeRequest) :
    ∃ stop journal, (setup.engine.revoke now asked).start s = (.error stop, s, journal) := by
  obtain ⟨stop, hstore⟩ : ∃ stop,
      setup.engine.store.once now (forget now asked) s = (.error stop, s) :=
    MemoryStore.once_of_not_free hfree now (forget now asked)
  obtain ⟨stop', hstop⟩ := setup.engine.inTime_error (α := Unit) "revoke" stop
  have heffect : (setup.engine.revoke now asked).effect s = (.error stop', s) := by
    rw [Engine.effect_revoke]
    simp only [hstore, Except.map, hstop]
  obtain ⟨hanswer, hleft⟩ := Prod.ext_iff.1 heffect
  exact ⟨stop', _, Prod.ext hanswer (Prod.ext hleft rfl)⟩

/-- A revocation that succeeds forgets the user and the aliases, and leaves the store free. -/
theorem forgotten_of_revoke {s : MemoryStore} (hs : s.shared.Keyed) {now : Timestamp}
    {setup : Setup} {asked : RevokeRequest}
    (hok : ((setup.engine.revoke now asked).start s).1 = .ok ()) :
    let left := ((setup.engine.revoke now asked).start s).2.1
    Tables.Forgotten now asked.user asked.aliases s.shared left.shared ∧ left.shared.Keyed ∧
      left.Free := by
  by_cases hfree : s.Free
  · rw [start_revoke_of_free hs hfree]
    exact ⟨Tx.forgotten_forget hs now asked, hs.exec now _, hfree⟩
  · obtain ⟨stop, journal, hran⟩ := start_revoke_of_not_free hfree now setup asked
    rw [hran] at hok
    cases hok

/-- A revocation succeeds exactly if the store is free, and otherwise leaves it as it is. If it
succeeds, nothing is left of the user and of the promises to the aliases, and the rest is as it was;
a client is told that the user has no row. It reports the rows that there were, each one once; the
order of the aliases and repetitions among them make no difference at all. The same revocation then
succeeds again, and leaves the store as it is. -/
theorem revocation_leaves_no_trace (events : List Event) (now : Timestamp) (setup : Setup)
    (asked : RevokeRequest) :
    let s := (Chronicle.of events).store
    let ran := (setup.engine.revoke now asked).start s
    (ran.1 = .ok () ↔ s.Free) ∧
    (∀ stop, ran.1 = .error stop → ran.2.1 = s) ∧
    (ran.1 = .ok () →
      (∃ t', ran.2.1 = { s with shared := t' } ∧
        Tables.Expunged asked.user asked.aliases s.shared t') ∧
      ran.2.2 = (s.shared.tracesOf asked.user asked.aliases).report setup.metrics ∧
      (∀ now' perm,
        (memoryStore.once now' (Tx.request (.loadUser asked.user perm)) ran.2.1).1 = .ok none) ∧
      (∀ asked' : RevokeRequest, asked'.user = asked.user →
        (∀ holder, holder ∈ asked'.aliases ↔ holder ∈ asked.aliases) →
          (setup.engine.revoke now asked').start s = ran) ∧
      ∀ (now' : Timestamp) (setup' : Setup),
        ((setup'.engine.revoke now' asked).start ran.2.1).1 = .ok () ∧
          ((setup'.engine.revoke now' asked).start ran.2.1).2.1 = ran.2.1) := by
  intro s ran
  have hkeyed : s.shared.Keyed := Chronicle.keyed_of events
  have hsolid : s.shared.Solid := Chronicle.solid_of events
  by_cases hfree : s.Free
  · -- What the revocation leaves is what forgetting leaves.
    have hran : ran = _ := start_revoke_of_free hkeyed hfree now setup asked
    have hforgotten := Tx.forgotten_forget hkeyed now asked
    have hkeyed' := hkeyed.exec now (forget now asked)
    have hsolid' := hsolid.exec now (forget now asked)
    clear_value ran
    subst hran
    refine ⟨⟨fun _ => hfree, fun _ => rfl⟩, nofun, fun _ => ⟨⟨_, rfl,
      hforgotten.expunged (Chronicle.mirrored_of events) hsolid hsolid'⟩, rfl,
      fun now' perm => ?_, fun asked' huser hsame => ?_, fun now' setup' => ?_⟩⟩
    · have honce := MemoryStore.once_of_free
        (s := { s with shared := ((forget now asked).exec now s.shared).2 }) hfree now'
        (Tx.request (.loadUser asked.user perm))
      refine (congrArg Prod.fst honce).trans ?_
      show Except.ok (Tables.userRow _ _ _) = _
      rw [hforgotten.userRow, if_pos rfl]
    · -- The counts and the tables depend on the set of the aliases.
      have hforgotten' := Tx.forgotten_forget hkeyed now asked'
      rw [huser] at hforgotten'
      have htables := hforgotten.unique hforgotten' hsame hsolid' (hsolid.exec now _)
      have hcounts : s.shared.tracesOf asked'.user asked'.aliases =
          s.shared.tracesOf asked.user asked.aliases := by
        simp only [Tables.tracesOf, huser, hsame]
      rw [start_revoke_of_free hkeyed hfree, htables, hcounts]
    · have hagain := hforgotten.again (Tx.forgotten_forget hkeyed' now' asked) hsolid'
        (hsolid'.exec now' _)
      have hrevoke := start_revoke_of_free
        (s := { s with shared := ((forget now asked).exec now s.shared).2 }) hkeyed' hfree now'
        setup' asked
      rw [hagain] at hrevoke
      rw [hrevoke]
      exact ⟨rfl, rfl⟩
  · -- The store is waited for, or refuses the commit.
    obtain ⟨stop, journal, hran⟩ : ∃ stop journal, ran = (.error stop, s, journal) :=
      start_revoke_of_not_free hfree now setup asked
    clear_value ran
    subst hran
    exact ⟨⟨nofun, fun hfree' => absurd hfree' hfree⟩, fun _ _ => rfl, nofun⟩

/-- A user holds a repository and has rules for it, and the user's two aliases are promised it. One
of them is named twice, and once is enough. -/
theorem revocation_leaves_no_trace_of_repeated_alias :
    let setup : Setup := { identityOf := fun user => .ok (.unknown user) }
    let events : List Event := [.write ⟨0, 0⟩ (.replaceHolders ⟨1⟩ .read {⟨7⟩, ⟨8⟩}),
      .write ⟨0, 0⟩ (.saveOverlay ⟨7⟩ ⟨1⟩ ⟨["/docs/**"]⟩),
      .write ⟨0, 0⟩ (.replaceInvited ⟨.internal, ["a", "b", "c"]⟩ ⟨1⟩ .read)]
    let asked : RevokeRequest := ⟨⟨7⟩, [⟨.internal, ["a", "b"]⟩, ⟨.internal, ["a"]⟩]⟩
    let plain : RevokeRequest := ⟨⟨7⟩, [⟨.internal, ["b", "a"]⟩]⟩
    let s := (Chronicle.of events).store
    ∃ s' journal, (setup.engine.revoke ⟨1, 0⟩ asked).start s = (.ok (), s', journal) ∧
      (∃ t', s' = { s with shared := t' } ∧
        Tables.Expunged asked.user asked.aliases s.shared t') ∧
      journal.notices = [.revoked 1 1 2 1] ∧
      (setup.engine.revoke ⟨1, 0⟩ plain).start s = (.ok (), s', journal) ∧
      ((setup.engine.revoke ⟨2, 0⟩ asked).start s').2.1 = s' := by
  intro setup events asked plain s
  have hfree : s.Free := by
    decide +kernel
  have hcounts : s.shared.tracesOf asked.user asked.aliases = ⟨1, 1, 2, 1⟩ := by
    decide +kernel
  have hsame : ∀ holder, holder ∈ plain.aliases ↔ holder ∈ asked.aliases := by
    simp [plain, asked, RevokeRequest.aliases, AliasGroup.aliases, or_comm]
  obtain ⟨hsucceeds, -, hlaws⟩ := revocation_leaves_no_trace events ⟨1, 0⟩ setup asked
  have hok := hsucceeds.2 hfree
  have hafter := hlaws hok
  generalize (setup.engine.revoke ⟨1, 0⟩ asked).start s = ran at hok hafter ⊢
  obtain ⟨answer, s', journal⟩ := ran
  obtain rfl : answer = .ok () := hok
  obtain ⟨hleft, rfl, -, horder, hagain⟩ := hafter
  refine ⟨s', _, rfl, hleft, ?_, horder plain rfl hsame, (hagain ⟨2, 0⟩ setup).2⟩
  rw [hcounts]
  rfl

end RepoAccess
