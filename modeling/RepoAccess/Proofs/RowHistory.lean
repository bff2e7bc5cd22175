/-
Rows and their stamps are exactly what history says.

* `Tables.userMark` — whether a user has a row, and the stamp in it; `Tables.repoStamp` — the stamp
  in a repository's row;
* `Deed.enters`, `Deed.stampsUser`, `Deed.stampsRepo` — which deeds leave a user with a row, and
  which ones stamp a row;
* `Deed.userMark_eq`, `Deed.repoStamp_eq` — what one deed does to them;
* `rows_follow_history` — after every run there is a row, and a stamp in it, exactly if the history
  says so.

A row without repositories is not the same as no row. A user loses repositories and keeps the row,
and only a user who is forgotten loses the row. The stamp of a row says when the writer to whom the
row belongs has last written all of it: an account for a user's row, the repository's own list for a
repository's row. Others write into the row and leave the stamp as it is.
-/
import RepoAccess.Proofs.Course.Effect
import RepoAccess.Proofs.Course.History

namespace RepoAccess

/-! ### Stamps -/

namespace Tables

variable {t t' : Tables} {now : Timestamp} {user : UserId} {repo : RepoId} {perm : Permission}

/-- The stamp in a user's row, if there is a row. -/
def userMark (t : Tables) (user : UserId) (perm : Permission) : Option (Option Timestamp) :=
  (t.userRow user perm).map (·.syncedAt)

/-- The stamp in a repository's row; none where there is no row. -/
def repoStamp (t : Tables) (repo : RepoId) (perm : Permission) : Option Timestamp :=
  (t.repoRow repo perm).bind (·.syncedAt)

theorem userMark_eq_none_iff : t.userMark user perm = none ↔ t.userRow user perm = none :=
  Option.map_eq_none_iff

theorem join_userMark : (t.userMark user perm).join = (t.userRow user perm).bind (·.syncedAt) := by
  rw [userMark]
  cases t.userRow user perm with
  | none => rfl
  | some row => rfl

/-- A row that is not there yet starts without a stamp. -/
theorem syncedAt_userRow :
    ((t.userRow user perm).getD { user, perm, updatedAt := now }).syncedAt =
      (t.userMark user perm).join := by
  rw [join_userMark]
  cases t.userRow user perm with
  | none => rfl
  | some row => rfl

theorem syncedAt_repoRow :
    ((t.repoRow repo perm).getD { repo, perm, updatedAt := now }).syncedAt =
      t.repoStamp repo perm := by
  rw [repoStamp]
  cases t.repoRow repo perm with
  | none => rfl
  | some row => rfl

theorem SameAccess.userMark (h : SameAccess t t') (user : UserId) (perm : Permission) :
    t'.userMark user perm = t.userMark user perm := by
  rw [Tables.userMark, userRow, h.1, Tables.userMark, userRow]

theorem SameAccess.repoStamp (h : SameAccess t t') (repo : RepoId) (perm : Permission) :
    t'.repoStamp repo perm = t.repoStamp repo perm := by
  rw [Tables.repoStamp, repoRow, h.2.1, Tables.repoStamp, repoRow]

end Tables

/-! ### Changes of one row keep its stamp -/

section Rows

variable {now : Timestamp} {user : UserId} {repo : RepoId}

theorem UserHoldings.syncedAt_gain (row : UserHoldings) :
    (row.gain now repo).syncedAt = row.syncedAt := by
  unfold gain
  split
  · rfl
  · rfl

theorem RepoHolders.syncedAt_gain (row : RepoHolders) :
    (row.gain now user).syncedAt = row.syncedAt := by
  unfold gain
  split
  · rfl
  · rfl

theorem RepoHolders.syncedAt_withoutHolder (row : RepoHolders) :
    (Tables.withoutHolder now user row).syncedAt = row.syncedAt := by
  unfold Tables.withoutHolder
  split
  · rfl
  · rfl

/-- A user who is taken out of a row leaves its stamp. -/
theorem RepoHolders.bind_syncedAt_withoutHolder (row : Option RepoHolders) :
    ((row.map (Tables.withoutHolder now user)).bind fun row => row.syncedAt) =
      row.bind fun row => row.syncedAt := by
  cases row with
  | none => rfl
  | some row => exact syncedAt_withoutHolder row

end Rows

/-! ### What deeds do to stamps -/

namespace Deed

/-- The deed leaves the user with a row: a repository's list names the user, an account of the user
is listed, or the user claims something. -/
def enters (user : UserId) (perm : Permission) : Deed → Bool
  | .wrote (.replaceHolders _ perm' users) => perm' = perm ∧ user ∈ users
  | .wrote (.replaceAccount user' _ _) => user' = user ∧ perm = .read
  | .granted user' perm' _ _ => user' = user ∧ perm' = perm
  | _ => false

/-- The deed stamps the user's row: an account of the user is listed. -/
def stampsUser (user : UserId) (perm : Permission) : Deed → Bool
  | .wrote (.replaceAccount user' _ _) => user' = user ∧ perm = .read
  | _ => false

/-- The deed stamps the repository's row: it is the repository's own list. -/
def stampsRepo (repo : RepoId) (perm : Permission) : Deed → Bool
  | .wrote (.replaceHolders repo' perm' _) => repo' = repo ∧ perm' = perm
  | _ => false

variable {now : Timestamp} {t t' : Tables} {d : Deed}

theorem stampsUser_eq_true {user : UserId} {perm : Permission} :
    d.stampsUser user perm = true ↔
      perm = .read ∧ ∃ account repos, d = .wrote (.replaceAccount user account repos) := by
  constructor
  · intro h
    unfold stampsUser at h
    split at h
    · next user' account repos =>
      obtain ⟨rfl, hperm⟩ := of_decide_eq_true h
      exact ⟨hperm, account, repos, rfl⟩
    · cases h
  · rintro ⟨hperm, account, repos, rfl⟩
    exact decide_eq_true ⟨rfl, hperm⟩

theorem stampsRepo_eq_true {repo : RepoId} {perm : Permission} :
    d.stampsRepo repo perm = true ↔ ∃ users, d = .wrote (.replaceHolders repo perm users) := by
  constructor
  · intro h
    unfold stampsRepo at h
    split at h
    · next repo' perm' users =>
      obtain ⟨rfl, rfl⟩ := of_decide_eq_true h
      exact ⟨users, rfl⟩
    · cases h
  · rintro ⟨users, rfl⟩
    exact decide_eq_true ⟨rfl, rfl⟩

/-- A deed that stamps a user's row leaves the user with a row. -/
theorem enters_of_stampsUser {user : UserId} {perm : Permission}
    (h : d.stampsUser user perm = true) : d.enters user perm = true := by
  obtain ⟨hperm, account, repos, rfl⟩ := stampsUser_eq_true.1 h
  exact decide_eq_true ⟨rfl, hperm⟩

/-- The last deed that forgets, stamps or enters a user decides. -/
theorem userMark_eq (hd : d.Effect now t t') (user : UserId) (perm : Permission) :
    t'.userMark user perm =
      if d.forgets user = true then none
      else if d.stampsUser user perm = true then some (some now)
      else if d.enters user perm = true then some (t.userMark user perm).join
      else t.userMark user perm := by
  cases d with
  | wrote w =>
    cases w with
    | replaceHolders repo perm' named =>
      rw [Tables.userMark, hd.userRow]
      by_cases hperm : perm = perm'
      · subst hperm
        by_cases hnamed : user ∈ named
        · simp [forgets, stampsUser, enters, hnamed, UserHoldings.syncedAt_gain,
            Tables.syncedAt_userRow]
        · -- Whoever loses the repository keeps the row, if there is one.
          by_cases hloses : t.Loses repo perm named user
          · simp only [hnamed, hloses, and_false, and_self, if_true, if_false, Option.map_map]
            simp [forgets, stampsUser, enters, hnamed, Tables.userMark]
            rfl
          · simp [forgets, stampsUser, enters, hnamed, hloses, Tables.userMark]
      · simp [forgets, stampsUser, enters, hperm, Ne.symm hperm, Tables.userMark]
    | replaceInvited group repo perm' => exact hd.access.userMark user perm
    | replaceAccount user' account named =>
      rw [Tables.userMark, hd.userRow]
      by_cases hslot : user = user' ∧ perm = .read
      · obtain ⟨rfl, rfl⟩ := hslot
        simp [forgets, stampsUser]
      · rw [if_neg hslot, ← Tables.userMark]
        simp [forgets, stampsUser, enters, @eq_comm _ user', hslot]
    | clearAliases holders => exact hd.access.userMark user perm
    | saveOverlay user' repo overlay =>
      obtain rfl : t' = _ := hd
      rfl
    | deleteOverlays user' =>
      obtain rfl : t' = _ := hd
      rfl
    | deleteUser user' =>
      rw [Tables.userMark, hd.userRow]
      by_cases huser : user = user'
      · simp [forgets, huser]
      · simp [forgets, stampsUser, enters, huser, Ne.symm huser, Tables.userMark]
  | granted user' perm' candidates repos =>
    rw [Tables.userMark, hd.2.userRow]
    by_cases hslot : user = user' ∧ perm = perm'
    · obtain ⟨rfl, rfl⟩ := hslot
      simp [forgets, stampsUser, enters, Tables.syncedAt_userRow]
    · rw [if_neg hslot, ← Tables.userMark]
      simp [forgets, stampsUser, enters, @eq_comm _ user', @eq_comm _ perm', hslot]
  | revoked user' holders =>
    rw [Tables.userMark, hd.userRow]
    by_cases huser : user = user'
    · simp [forgets, huser]
    · simp [forgets, stampsUser, enters, huser, Ne.symm huser, Tables.userMark]

/-- Nothing but its own list stamps a repository's row, and nothing takes the stamp away. -/
theorem repoStamp_eq (hd : d.Effect now t t') (repo : RepoId) (perm : Permission) :
    t'.repoStamp repo perm =
      if d.stampsRepo repo perm = true then some now else t.repoStamp repo perm := by
  -- A user who gains the repository may find no row; the new one has no stamp.
  have hgain : ∀ user, (((t.repoRow repo perm).getD { repo, perm, updatedAt := now }).gain now
      user).syncedAt = t.repoStamp repo perm := by
    intro user
    rw [RepoHolders.syncedAt_gain, Tables.syncedAt_repoRow]
  cases d with
  | wrote w =>
    cases w with
    | replaceHolders repo' perm' named =>
      rw [Tables.repoStamp, hd.repoRow]
      by_cases hslot : repo = repo' ∧ perm = perm'
      · obtain ⟨rfl, rfl⟩ := hslot
        simp [stampsRepo]
      · rw [if_neg hslot, ← Tables.repoStamp]
        simp [stampsRepo, @eq_comm _ repo', @eq_comm _ perm', hslot]
    | replaceInvited group repo' perm' => exact hd.access.repoStamp repo perm
    | replaceAccount user account named =>
      show t'.repoStamp repo perm = t.repoStamp repo perm
      rw [Tables.repoStamp, hd.repoRow]
      split
      · exact hgain user
      · split
        · exact RepoHolders.bind_syncedAt_withoutHolder _
        · rfl
    | clearAliases holders => exact hd.access.repoStamp repo perm
    | saveOverlay user repo' overlay =>
      obtain rfl : t' = _ := hd
      rfl
    | deleteOverlays user =>
      obtain rfl : t' = _ := hd
      rfl
    | deleteUser user =>
      show t'.repoStamp repo perm = t.repoStamp repo perm
      rw [Tables.repoStamp, Tables.repoRow, hd.repos, ← Tables.repoRow, ← Tables.repoStamp]
  | granted user perm' candidates repos =>
    show t'.repoStamp repo perm = t.repoStamp repo perm
    rw [Tables.repoStamp, hd.2.repoRow]
    split
    · exact hgain user
    · rfl
  | revoked user holders =>
    show t'.repoStamp repo perm = t.repoStamp repo perm
    rw [Tables.repoStamp, hd.repoRow]
    exact RepoHolders.bind_syncedAt_withoutHolder _

end Deed

/-! ### Runs -/

/-- What the history says of the deeds since the last one that cuts, after one more deed. -/
theorem exists_since_cons {cuts p : Deed → Bool} {d : Deed} {deeds : List Deed} :
    (∃ d' ∈ since cuts (d :: deeds), p d' = true) ↔
      cuts d = false ∧ (p d = true ∨ ∃ d' ∈ since cuts deeds, p d' = true) := by
  rw [since_cons]
  cases cuts d with
  | true => simp
  | false => simp

namespace Chronicle

theorem userMark_of (events : List Event) (user : UserId) (perm : Permission) :
    let c := of events
    (c.store.shared.userMark user perm ≠ none ↔
      ∃ d ∈ since (Deed.forgets user) c.deeds, d.enters user perm = true) ∧
    ((c.store.shared.userMark user perm).join ≠ none ↔
      ∃ d ∈ since (Deed.forgets user) c.deeds, d.stampsUser user perm = true) := by
  refine (deeds_induction (P := fun deeds t =>
    (t.userMark user perm ≠ none ↔
      ∃ d ∈ since (Deed.forgets user) deeds, d.enters user perm = true) ∧
    ((t.userMark user perm).join ≠ none ↔
      ∃ d ∈ since (Deed.forgets user) deeds, d.stampsUser user perm = true)) ?_ ?_ events).2.2
  · simp [Tables.userMark, Tables.userRow, since]
  · intro now d deeds t t' _ _ hd h
    obtain ⟨hrow, hstamp⟩ := h
    rw [Deed.userMark_eq hd, exists_since_cons, exists_since_cons, ← hrow, ← hstamp]
    cases hforgets : d.forgets user with
    | true => simp
    | false =>
      cases hstamps : d.stampsUser user perm with
      | true => simp [Deed.enters_of_stampsUser hstamps]
      | false =>
        cases henters : d.enters user perm with
        | true => simp
        | false => simp

theorem repoStamp_of (events : List Event) (repo : RepoId) (perm : Permission) :
    (of events).store.shared.repoStamp repo perm ≠ none ↔
      ∃ d ∈ (of events).deeds, d.stampsRepo repo perm = true := by
  refine (deeds_induction (P := fun deeds t =>
    t.repoStamp repo perm ≠ none ↔ ∃ d ∈ deeds, d.stampsRepo repo perm = true) ?_ ?_ events).2.2
  · simp [Tables.repoStamp, Tables.repoRow]
  · intro now d deeds t t' _ _ hd h
    simp only [List.mem_cons, or_and_right, exists_or, exists_eq_left]
    rw [Deed.repoStamp_eq hd, ← h]
    cases d.stampsRepo repo perm with
    | true => simp
    | false => simp

/-- What one more event does to the stamps, which is what its deed does, if there is one. -/
theorem stamps_note {c : Chronicle} (hc : c.store.shared.Keyed) (event : Event) (user : UserId)
    (repo : RepoId) (perm : Permission) :
    ((∀ d, (c.note event).deeds = d :: c.deeds →
        d.forgets user = false ∧ d.stampsUser user perm = false) →
      ((c.note event).store.shared.userMark user perm).join =
        (c.store.shared.userMark user perm).join) ∧
    ((∀ d, (c.note event).deeds = d :: c.deeds → d.stampsRepo repo perm = false) →
      (c.note event).store.shared.repoStamp repo perm = c.store.shared.repoStamp repo perm) := by
  rcases c.note_cases hc event with ⟨-, hshared⟩ | ⟨now, d, hdeeds, hd, -⟩
  · rw [hshared]
    exact ⟨fun _ => rfl, fun _ => rfl⟩
  · constructor
    · intro hother
      obtain ⟨hforgets, hstamps⟩ := hother d hdeeds
      rw [Deed.userMark_eq hd, hforgets, hstamps]
      cases d.enters user perm with
      | true => rfl
      | false => rfl
    · intro hother
      rw [Deed.repoStamp_eq hd, hother d hdeeds]
      rfl

end Chronicle

/-- After every run a user has no row exactly if, since the user was last forgotten, no list of a
repository has named the user, the user has claimed nothing, and, for reading, no account of the user
has been listed; this is the row that a client is told of. There is a stamp in it exactly if an
account of the user has been listed since then, and in a repository's row exactly if the repository's
own list has ever been written. Whatever else happens next leaves either stamp as it is. -/
theorem rows_follow_history (events : List Event) (user : UserId) (repo : RepoId)
    (perm : Permission) :
    let c := Chronicle.of events
    let userStamp := fun (c : Chronicle) => (c.store.shared.userRow user perm).bind (·.syncedAt)
    let repoStamp := fun (c : Chronicle) => (c.store.shared.repoRow repo perm).bind (·.syncedAt)
    (∀ now,
      c.store.Answers (memoryStore.once now (Tx.request (.loadUser user perm)) c.store).1
        (c.store.shared.userRow user perm) ∧
      c.store.Answers (memoryStore.once now (Tx.request (.loadRepo repo perm)) c.store).1
        (c.store.shared.repoRow repo perm)) ∧
    (c.store.shared.userRow user perm = none ↔
      ∀ d ∈ since (Deed.forgets user) c.deeds, d.enters user perm = false) ∧
    (userStamp c ≠ none ↔
      perm = .read ∧ ∃ account repos,
        .wrote (.replaceAccount user account repos) ∈ since (Deed.forgets user) c.deeds) ∧
    (repoStamp c ≠ none ↔ ∃ users, .wrote (.replaceHolders repo perm users) ∈ c.deeds) ∧
    ∀ event,
      ((∀ d, (c.note event).deeds = d :: c.deeds →
          d.forgets user = false ∧ d.stampsUser user perm = false) →
        userStamp (c.note event) = userStamp c) ∧
      ((∀ d, (c.note event).deeds = d :: c.deeds → d.stampsRepo repo perm = false) →
        repoStamp (c.note event) = repoStamp c) := by
  intro c userStamp repoStamp
  have hstamp : ∀ c, userStamp c = (c.store.shared.userMark user perm).join := by
    intro c
    exact Tables.join_userMark.symm
  obtain ⟨hrow, hstamped⟩ := Chronicle.userMark_of events user perm
  refine ⟨fun now => ⟨answers_request now c.store _, answers_request now c.store _⟩, ?_, ?_, ?_,
    fun event => ?_⟩
  · rw [← Tables.userMark_eq_none_iff]
    constructor
    · intro hnone d hmem
      exact Bool.eq_false_iff.2 fun hd => hrow.2 ⟨d, hmem, hd⟩ hnone
    · intro hnever
      refine Classical.not_not.1 fun hsome => ?_
      obtain ⟨d, hmem, hd⟩ := hrow.1 hsome
      rw [hnever d hmem] at hd
      cases hd
  · rw [hstamp]
    refine hstamped.trans ?_
    constructor
    · rintro ⟨d, hmem, hd⟩
      obtain ⟨hperm, account, repos, rfl⟩ := Deed.stampsUser_eq_true.1 hd
      exact ⟨hperm, account, repos, hmem⟩
    · rintro ⟨hperm, account, repos, hmem⟩
      exact ⟨_, hmem, Deed.stampsUser_eq_true.2 ⟨hperm, account, repos, rfl⟩⟩
  · refine (Chronicle.repoStamp_of events repo perm).trans ?_
    constructor
    · rintro ⟨d, hmem, hd⟩
      obtain ⟨users, rfl⟩ := Deed.stampsRepo_eq_true.1 hd
      exact ⟨users, hmem⟩
    · rintro ⟨users, hmem⟩
      exact ⟨_, hmem, Deed.stampsRepo_eq_true.2 ⟨users, rfl⟩⟩
  · rw [hstamp, hstamp]
    exact Chronicle.stamps_note (Chronicle.keyed_of events) event user repo perm

/-- An account brings a repository and then brings it no longer. The user is left with a row without
repositories, and a claim leaves the stamp in it as it is. The repository is left with a row without
a stamp. -/
theorem rows_follow_history_of_emptied_account :
    let setup : Setup := { identityOf := fun user => .ok ⟨user, some "a", [], []⟩ }
    let c := Chronicle.of [.write ⟨0, 0⟩ (.replaceAccount ⟨7⟩ ⟨3⟩ {⟨1⟩}),
      .write ⟨1, 0⟩ (.replaceAccount ⟨7⟩ ⟨3⟩ ∅),
      .write ⟨2, 0⟩ (.replaceInvited ⟨.internal, ["a"]⟩ ⟨2⟩ .read)]
    let claim : Event := .grant ⟨3, 0⟩ setup { user := ⟨7⟩, perm := .read } .username
    let userStamp := fun (c : Chronicle) => (c.store.shared.userRow ⟨7⟩ .read).bind (·.syncedAt)
    (memoryStore.once ⟨3, 0⟩ (Tx.request (.loadUser ⟨7⟩ .read)) c.store).1 =
      .ok (c.store.shared.userRow ⟨7⟩ .read) ∧
    c.store.shared.userRow ⟨7⟩ .read ≠ none ∧ c.store.shared.reposOf ⟨7⟩ .read = ∅ ∧
    userStamp c ≠ none ∧ userStamp (c.note claim) = userStamp c ∧
    c.store.shared.repoRow ⟨1⟩ .read ≠ none ∧
    (c.store.shared.repoRow ⟨1⟩ .read).bind (·.syncedAt) = none := by
  intro setup c claim userStamp
  have hdeeds : c.deeds = [.wrote (.replaceInvited ⟨.internal, ["a"]⟩ ⟨2⟩ .read),
      .wrote (.replaceAccount ⟨7⟩ ⟨3⟩ ∅), .wrote (.replaceAccount ⟨7⟩ ⟨3⟩ {⟨1⟩})] := by
    decide +kernel
  have hclaim : (c.note claim).deeds =
      .granted ⟨7⟩ .read [.internal "a"] {⟨2⟩} :: c.deeds := by
    decide +kernel
  have hfree : c.store.Free := by decide +kernel
  have hempty : c.store.shared.reposOf ⟨7⟩ .read = ∅ := by decide +kernel
  have hrow : c.store.shared.repoRow ⟨1⟩ .read ≠ none := by decide +kernel
  obtain ⟨hanswer, hnone, hstamp, hlisted, hnext⟩ := rows_follow_history
    [.write ⟨0, 0⟩ (.replaceAccount ⟨7⟩ ⟨3⟩ {⟨1⟩}), .write ⟨1, 0⟩ (.replaceAccount ⟨7⟩ ⟨3⟩ ∅),
      .write ⟨2, 0⟩ (.replaceInvited ⟨.internal, ["a"]⟩ ⟨2⟩ .read)] ⟨7⟩ ⟨1⟩ .read
  have hmem : Deed.wrote (.replaceAccount ⟨7⟩ ⟨3⟩ ∅) ∈ since (Deed.forgets ⟨7⟩) c.deeds := by
    rw [hdeeds]
    decide
  refine ⟨(hanswer ⟨3, 0⟩).1.1 hfree.1 hfree.2, fun habsent => ?_, hempty,
    hstamp.2 ⟨rfl, ⟨3⟩, ∅, hmem⟩, (hnext claim).1 fun d hd => ?_, hrow, ?_⟩
  · have hlisting := hnone.1 habsent _ hmem
    cases hlisting
  · obtain rfl := (List.cons.inj (hclaim.symm.trans hd)).1
    exact ⟨rfl, rfl⟩
  · refine Classical.not_not.1 fun hstamped => ?_
    obtain ⟨users, hwrote⟩ := hlisted.1 hstamped
    rw [hdeeds] at hwrote
    simp at hwrote

end RepoAccess
