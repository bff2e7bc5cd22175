/-
Sources are exactly what history says.

* `Source.RecordedBy` — what a history says of one source: each writer speaks for its own sources
  only, and a user who is forgotten starts anew;
* `Deed.mem_reasons_iff` — a deed changes the sources as it changes what the history says;
* `sources_follow_history` — after every run a source is recorded exactly if the history says so,
  and access is having a source.
-/
import RepoAccess.Proofs.Agreement
import RepoAccess.Proofs.Course.History

namespace RepoAccess

open Std

/-- What a history says of one source of a user's access to a repository. -/
def Source.RecordedBy (deeds : List Deed) (user : UserId) (perm : Permission) (repo : RepoId) :
    Source → Prop
  | .repoSync => ∃ users,
    latest (Deed.listing repo perm) (since (Deed.forgets user) deeds) = some users ∧ user ∈ users
  | .grant => ∃ d ∈ since (Deed.forgets user) deeds, d.grants user perm repo = true
  | .account id => perm = .read ∧ ∃ repos,
    latest (Deed.bringing user id) (since (Deed.forgets user) deeds) = some repos ∧
      repo ∈ repos

/-! ### What deeds do to a history -/

namespace Source

variable {d : Deed} {deeds : List Deed} {user user' : UserId} {perm perm' : Permission}
  {repo repo' : RepoId} {source : Source}

/-- Nothing is recorded of a user who has just been forgotten. -/
theorem not_recordedBy_of_forgets (h : d.forgets user = true) :
    ¬ source.RecordedBy (d :: deeds) user perm repo := by
  have hnone : since (Deed.forgets user) (d :: deeds) = [] := by
    rw [since_cons, if_pos h]
  cases source <;> simp [RecordedBy, hnone, latest]

theorem recordedBy_cons (h : d.forgets user = false) :
    source.RecordedBy (d :: deeds) user perm repo ↔
      match source with
      | .repoSync =>
        match d.listing repo perm with
        | some users => user ∈ users
        | none => Source.repoSync.RecordedBy deeds user perm repo
      | .grant => d.grants user perm repo = true ∨ Source.grant.RecordedBy deeds user perm repo
      | .account id =>
        match d.bringing user id with
        | some repos => perm = .read ∧ repo ∈ repos
        | none => (Source.account id).RecordedBy deeds user perm repo := by
  have hlater : since (Deed.forgets user) (d :: deeds) = d :: since (Deed.forgets user) deeds := by
    rw [since_cons, h]
    rfl
  cases source with
  | repoSync => cases hd : d.listing repo perm <;> simp [RecordedBy, hlater, latest_cons, hd]
  | grant => simp [RecordedBy, hlater]
  | account id => cases hd : d.bringing user id <;> simp [RecordedBy, hlater, latest_cons, hd]

/-- A deed that is about promises or overlays records nothing. -/
theorem recordedBy_of_silent (hforgets : d.forgets user = false)
    (hlisting : d.listing repo perm = none) (hgrants : d.grants user perm repo = false)
    (hbringing : ∀ id, d.bringing user id = none) :
    source.RecordedBy (d :: deeds) user perm repo ↔ source.RecordedBy deeds user perm repo := by
  rw [recordedBy_cons hforgets]
  cases source with
  | repoSync => rw [hlisting]
  | grant => simp [hgrants]
  | account id => simp only [hbringing id]

end Source

/-! ### Every deed -/

/-- A deed changes the sources as it changes what the history says. -/
theorem Deed.mem_reasons_iff {now : Timestamp} {t t' : Tables} {d : Deed} {deeds : List Deed}
    (hd : d.Effect now t t')
    (h : ∀ user perm repo source,
      source ∈ t.reasons ⟨user, perm, repo⟩ ↔ source.RecordedBy deeds user perm repo)
    (user : UserId) (perm : Permission) (repo : RepoId) (source : Source) :
    source ∈ t'.reasons ⟨user, perm, repo⟩ ↔ source.RecordedBy (d :: deeds) user perm repo := by
  cases d with
  | wrote w =>
    cases w with
    | replaceHolders repo' perm' named =>
      rw [Tables.HoldersReplaced.mem_reasons hd, h, Source.recordedBy_cons rfl]
      cases source with
      | repoSync =>
        by_cases hslot : perm = perm' ∧ repo = repo'
        · simp [listing, hslot]
        · rw [if_neg fun hall => hslot hall.2, listing,
            if_neg fun hboth => hslot ⟨hboth.2.symm, hboth.1.symm⟩]
      | grant => simp [grants]
      | account id => simp [bringing]
    | replaceInvited group repo' perm' =>
      rw [hd.access.reasons, h, Source.recordedBy_of_silent rfl rfl rfl fun _ => rfl]
    | replaceAccount user' account named =>
      rw [Tables.AccountReplaced.mem_reasons hd, h, Source.recordedBy_cons rfl]
      cases source with
      | repoSync => simp [listing]
      | grant => simp [grants]
      | account id =>
        by_cases hslot : id = account ∧ user = user'
        · obtain ⟨rfl, rfl⟩ := hslot
          by_cases hread : perm = .read
          · simp [bringing, hread]
          · simp [bringing, hread, Source.RecordedBy]
        · have hnone : (Deed.wrote (.replaceAccount user' account named)).bringing user id = none :=
            if_neg fun hboth => hslot ⟨hboth.2.symm, hboth.1.symm⟩
          simp only [hnone]
          rw [if_neg fun hall => hslot ⟨Source.account.inj hall.1, hall.2.1⟩]
    | clearAliases holders =>
      rw [hd.access.reasons, h, Source.recordedBy_of_silent rfl rfl rfl fun _ => rfl]
    | saveOverlay user' repo' overlay =>
      obtain rfl : t' = _ := hd
      exact (h user perm repo source).trans
        (Source.recordedBy_of_silent rfl rfl rfl fun _ => rfl).symm
    | deleteOverlays user' =>
      obtain rfl : t' = _ := hd
      exact (h user perm repo source).trans
        (Source.recordedBy_of_silent rfl rfl rfl fun _ => rfl).symm
    | deleteUser user' =>
      have hforgets : (Deed.wrote (.deleteUser user')).forgets user = decide (user' = user) := rfl
      rw [hd.reasons]
      by_cases huser : user = user'
      · subst huser
        simp [Source.not_recordedBy_of_forgets (hforgets.trans (decide_eq_true rfl))]
      · rw [if_neg huser, h, Source.recordedBy_of_silent
          (hforgets.trans (decide_eq_false (Ne.symm huser))) rfl rfl fun _ => rfl]
  | granted user' perm' candidates repos =>
    rw [hd.2.mem_reasons, h, Source.recordedBy_cons rfl]
    cases source with
    | repoSync => simp [listing]
    | grant => simp [grants, @eq_comm _ user, @eq_comm _ perm]
    | account id => simp [bringing]
  | revoked user' holders =>
    have hforgets : (Deed.revoked user' holders).forgets user = decide (user' = user) := rfl
    rw [hd.reasons]
    by_cases huser : user = user'
    · subst huser
      simp [Source.not_recordedBy_of_forgets (hforgets.trans (decide_eq_true rfl))]
    · rw [if_neg huser, h, Source.recordedBy_of_silent
        (hforgets.trans (decide_eq_false (Ne.symm huser))) rfl rfl fun _ => rfl]

/-! ### Runs -/

namespace Chronicle

theorem mem_reasons_of (events : List Event) (user : UserId) (perm : Permission) (repo : RepoId)
    (source : Source) :
    source ∈ (of events).store.shared.reasons ⟨user, perm, repo⟩ ↔
      source.RecordedBy (of events).deeds user perm repo := by
  refine (deeds_induction (P := fun deeds t => ∀ user perm repo source,
    source ∈ t.reasons ⟨user, perm, repo⟩ ↔ Source.RecordedBy deeds user perm repo source)
    ?_ ?_ events).2.2 user perm repo source
  · intro user perm repo source
    cases source <;> simp [Tables.reasons, Source.RecordedBy, since, latest]
  · exact fun now d deeds t t' _ _ hd h => Deed.mem_reasons_iff hd h

/-- Access is having a source. -/
theorem mem_reposOf_of (events : List Event) (user : UserId) (perm : Permission) (repo : RepoId) :
    repo ∈ (of events).store.shared.reposOf user perm ↔
      ∃ source, source ∈ (of events).store.shared.reasons ⟨user, perm, repo⟩ := by
  rw [grounded_of events user perm repo, ne_eq, ExtTreeSet.eq_empty_iff_forall_not_mem]
  simp

end Chronicle

/-- Two histories agree on the last writes that concern a user's access to a repository since the
user was forgotten: that of the repository's own list, that of each account of the user, and whether
there was a claim. -/
structure SameLastWrites (deeds deeds' : List Deed) (user : UserId) (perm : Permission)
    (repo : RepoId) : Prop where
  listing : latest (Deed.listing repo perm) (since (Deed.forgets user) deeds') =
    latest (Deed.listing repo perm) (since (Deed.forgets user) deeds)
  bringing : ∀ account, latest (Deed.bringing user account) (since (Deed.forgets user) deeds') =
    latest (Deed.bringing user account) (since (Deed.forgets user) deeds)
  grants : (∃ d ∈ since (Deed.forgets user) deeds', d.grants user perm repo = true) ↔
    ∃ d ∈ since (Deed.forgets user) deeds, d.grants user perm repo = true

theorem SameLastWrites.recordedBy_iff {deeds deeds' : List Deed} {user : UserId}
    {perm : Permission} {repo : RepoId} (h : SameLastWrites deeds deeds' user perm repo)
    (source : Source) :
    source.RecordedBy deeds' user perm repo ↔ source.RecordedBy deeds user perm repo := by
  cases source with
  | repoSync => rw [Source.RecordedBy, Source.RecordedBy, h.listing]
  | grant => exact h.grants
  | account id => rw [Source.RecordedBy, Source.RecordedBy, h.bringing id]

/-- After every run the sources are those that the history says, and a user's row holds a repository
exactly if there is a source for it; this is the row that a client is told of. So access is the same
after two runs that agree on the last writes. -/
theorem sources_follow_history (events : List Event) (user : UserId) (perm : Permission)
    (repo : RepoId) :
    let c := Chronicle.of events
    (∀ source, source ∈ c.store.shared.reasons ⟨user, perm, repo⟩ ↔
      source.RecordedBy c.deeds user perm repo) ∧
    (repo ∈ c.store.shared.reposOf user perm ↔
      ∃ source, source ∈ c.store.shared.reasons ⟨user, perm, repo⟩) ∧
    (∀ now, c.store.Answers (memoryStore.once now (Tx.request (.loadUser user perm)) c.store).1
      (c.store.shared.userRow user perm)) ∧
    ∀ events', SameLastWrites c.deeds (Chronicle.of events').deeds user perm repo →
      (repo ∈ (Chronicle.of events').store.shared.reposOf user perm ↔
        repo ∈ c.store.shared.reposOf user perm) := by
  intro c
  refine ⟨Chronicle.mem_reasons_of events user perm repo,
    Chronicle.mem_reposOf_of events user perm repo,
    fun now => answers_request now c.store _, fun events' hsame => ?_⟩
  rw [Chronicle.mem_reposOf_of, Chronicle.mem_reposOf_of]
  simp only [Chronicle.mem_reasons_of]
  exact exists_congr hsame.recordedBy_iff

/-- Two writes to different slots, in either order. -/
theorem sources_follow_history_in_either_order :
    let listed : Event := .write ⟨0, 0⟩ (.replaceHolders ⟨1⟩ .read {⟨7⟩})
    let linked : Event := .write ⟨1, 0⟩ (.replaceAccount ⟨7⟩ ⟨3⟩ {⟨2⟩})
    SameLastWrites (Chronicle.of [listed, linked]).deeds (Chronicle.of [linked, listed]).deeds ⟨7⟩
      .read ⟨1⟩ ∧
    (memoryStore.once ⟨2, 0⟩ (Tx.request (.loadUser ⟨7⟩ .read))
      (Chronicle.of [listed, linked]).store).1 =
        .ok ((Chronicle.of [listed, linked]).store.shared.userRow ⟨7⟩ .read) ∧
    (⟨1⟩ : RepoId) ∈ (Chronicle.of [linked, listed]).store.shared.reposOf ⟨7⟩ .read := by
  intro listed linked
  have hdeeds : (Chronicle.of [listed, linked]).deeds =
      [.wrote (.replaceAccount ⟨7⟩ ⟨3⟩ {⟨2⟩}), .wrote (.replaceHolders ⟨1⟩ .read {⟨7⟩})] := by
    decide +kernel
  have hdeeds' : (Chronicle.of [linked, listed]).deeds =
      [.wrote (.replaceHolders ⟨1⟩ .read {⟨7⟩}), .wrote (.replaceAccount ⟨7⟩ ⟨3⟩ {⟨2⟩})] := by
    decide +kernel
  have hsame : SameLastWrites (Chronicle.of [listed, linked]).deeds
      (Chronicle.of [linked, listed]).deeds ⟨7⟩ .read ⟨1⟩ := by
    rw [hdeeds, hdeeds']
    exact ⟨by decide, fun _ => rfl, by decide⟩
  have hstaged : (Chronicle.of [listed, linked]).store.staged = none := by decide +kernel
  have hrefuses : (Chronicle.of [listed, linked]).store.refusesCommits = false := by
    decide +kernel
  have hlaws := sources_follow_history [listed, linked] ⟨7⟩ .read ⟨1⟩
  exact ⟨hsame, (hlaws.2.2.1 ⟨2, 0⟩).1 hstaged hrefuses,
    (hlaws.2.2.2 _ hsame).2 (by decide +kernel)⟩

end RepoAccess
