/-
Promises are exactly what history says.

* `Tables.Mirrored` — a repository is in an alias's row exactly if the alias is on the list of the
  repository;
* `PromisedBy` — what a history says of a promise: the latest list of the repository names the
  alias, and nothing has taken the promise since;
* `Deed.keeps_mirrored`, `Deed.mem_promisedTo_iff` — a deed keeps the two places in agreement, and
  changes them as it changes what the history says;
* `promises_follow_history` — after every run both places hold a promise exactly if the history
  says so, and a promise that a claim has met stands again only if a later list makes it anew.

Clearing an alias is led by the alias's own row: a list that named the alias without being in the
row would be left as it is. And a new list writes only the rows of those who come or go. So the
mirror and the history are carried through a run together.
-/
import RepoAccess.Proofs.Course.Effect
import RepoAccess.Proofs.Course.History

namespace RepoAccess

open Std

/-! ### Both places -/

namespace Tables

variable {now : Timestamp} {t t' : Tables}

/-- A repository is in an alias's row exactly if the alias is on the list of the repository. -/
def Mirrored (t : Tables) : Prop :=
  ∀ holder perm repo,
    repo ∈ t.promisedTo holder perm ↔ holder.bindId ∈ t.invitedBy repo perm holder.provider

theorem mirrored_empty : Mirrored {} := by
  intro holder perm repo
  simp [promisedTo, pendingRow, invitedBy, invitedRow]

theorem SamePromises.keeps_mirrored (h : SamePromises t t') (ht : t.Mirrored) : t'.Mirrored := by
  intro holder perm repo
  rw [h.promisedTo, h.invitedBy]
  exact ht holder perm repo

theorem Mirrored.mem_promisedTo_invitedReplaced {group : AliasGroup} {repo : RepoId}
    {perm : Permission} (ht : t.Mirrored) (h : InvitedReplaced now group repo perm t t')
    {holder : Alias} {perm' : Permission} {repo' : RepoId} :
    repo' ∈ t'.promisedTo holder perm' ↔
      if repo' = repo ∧ perm' = perm ∧ holder.provider = group.provider then
        holder.bindId ∈ group.bindIds
      else repo' ∈ t.promisedTo holder perm' := by
  rw [h.mem_promisedTo]
  by_cases hslot : repo' = repo ∧ perm' = perm ∧ holder.provider = group.provider
  · obtain ⟨rfl, rfl, hprovider⟩ := hslot
    have hlist := ht holder perm' repo'
    rw [hprovider] at hlist
    -- Whoever was on the list had the repository, and whoever was not had it not.
    by_cases hold : holder.bindId ∈ t.invitedBy repo' perm' group.provider
    · simp [hprovider, hold, hlist]
    · simp [hprovider, hold, hlist]
  · rw [if_neg hslot, if_neg fun hall => hslot ⟨hall.2.2, hall.1, hall.2.1⟩]

theorem Mirrored.invitedReplaced {group : AliasGroup} {repo : RepoId} {perm : Permission}
    (ht : t.Mirrored) (h : InvitedReplaced now group repo perm t t') : t'.Mirrored := by
  intro holder perm' repo'
  rw [ht.mem_promisedTo_invitedReplaced h, h.mem_invitedBy]
  by_cases hslot : repo' = repo ∧ perm' = perm ∧ holder.provider = group.provider
  · rw [if_pos hslot, if_pos hslot]
  · rw [if_neg hslot, if_neg hslot]
    exact ht holder perm' repo'

/-- Where promises are taken, they are taken from both places. -/
theorem Mirrored.taken {gone : Alias → Permission → Prop} (ht : t.Mirrored)
    (hrows : ∀ holder perm repo, repo ∈ t'.promisedTo holder perm ↔
      ¬ gone holder perm ∧ repo ∈ t.promisedTo holder perm)
    (hlists : ∀ holder perm repo, holder.bindId ∈ t'.invitedBy repo perm holder.provider ↔
      holder.bindId ∈ t.invitedBy repo perm holder.provider ∧
        ¬ (gone holder perm ∧ repo ∈ t.promisedTo holder perm)) : t'.Mirrored := by
  intro holder perm repo
  rw [hrows, hlists, ← ht holder perm repo]
  constructor
  · rintro ⟨hstays, hmem⟩
    exact ⟨hmem, fun hboth => hstays hboth.1⟩
  · rintro ⟨hmem, hstays⟩
    exact ⟨fun hgone => hstays ⟨hgone, hmem⟩, hmem⟩

theorem Mirrored.cleared {gone : Alias → Permission → Bool} (ht : t.Mirrored)
    (h : Cleared now gone t t') : t'.Mirrored := by
  refine ht.taken (fun holder perm repo => ?_) fun holder perm repo => h.mem_invitedBy
  rw [h.mem_promisedTo, Bool.not_eq_true]

theorem Mirrored.claimed {user : UserId} {perm : Permission} {matched : List Alias}
    {repos : RepoSet} (ht : t.Mirrored) (h : Claimed now user perm matched repos t t') :
    t'.Mirrored :=
  ht.taken (fun _ _ _ => h.mem_promisedTo) fun _ _ _ => h.mem_invitedBy

theorem Mirrored.forgotten {user : UserId} {holders : List Alias} (ht : t.Mirrored)
    (h : Forgotten now user holders t t') : t'.Mirrored :=
  ht.taken (fun _ _ _ => h.mem_promisedTo) fun _ _ _ => h.mem_invitedBy

end Tables

/-! ### What deeds do to a history -/

/-- What a history says of a promise. -/
def PromisedBy (deeds : List Deed) (holder : Alias) (perm : Permission) (repo : RepoId) : Prop :=
  ∃ names,
    latest (Deed.inviting repo perm holder.provider) (since (Deed.takes holder perm) deeds) =
      some names ∧ holder.bindId ∈ names

/-- A promise stands after a deed, given whether it stood before. -/
def Deed.Upholds (d : Deed) (holder : Alias) (perm : Permission) (repo : RepoId) (stood : Prop) :
    Prop :=
  d.takes holder perm = false ∧
    match d.inviting repo perm holder.provider with
    | some names => holder.bindId ∈ names
    | none => stood

namespace Deed

variable {d : Deed} {holder : Alias} {perm : Permission} {repo : RepoId} {stood : Prop}

theorem upholds_of_inviting {names : List String} (htakes : d.takes holder perm = false)
    (hnames : d.inviting repo perm holder.provider = some names) :
    d.Upholds holder perm repo stood ↔ holder.bindId ∈ names := by
  rw [Upholds, hnames]
  exact and_iff_right htakes

theorem upholds_of_inviting_nobody (hnone : d.inviting repo perm holder.provider = none) :
    d.Upholds holder perm repo stood ↔ d.takes holder perm = false ∧ stood := by
  rw [Upholds, hnone]

theorem upholds_of_silent (htakes : d.takes holder perm = false)
    (hnone : d.inviting repo perm holder.provider = none) :
    d.Upholds holder perm repo stood ↔ stood := by
  rw [upholds_of_inviting_nobody hnone]
  exact and_iff_right htakes

end Deed

theorem promisedBy_cons {d : Deed} {deeds : List Deed} {holder : Alias} {perm : Permission}
    {repo : RepoId} :
    PromisedBy (d :: deeds) holder perm repo ↔
      d.Upholds holder perm repo (PromisedBy deeds holder perm repo) := by
  rw [PromisedBy, Deed.Upholds, since_cons]
  cases htakes : d.takes holder perm with
  | true => simp [latest]
  | false =>
    rw [if_neg Bool.false_ne_true, latest_cons]
    cases hinviting : d.inviting repo perm holder.provider with
    | none => simp [PromisedBy]
    | some names => simp

/-! ### Every deed -/

namespace Deed

variable {now : Timestamp} {t t' : Tables} {d : Deed} {holder : Alias} {perm : Permission}
  {repo : RepoId}

/-- Every deed keeps the two places in agreement. -/
theorem keeps_mirrored (hd : d.Effect now t t') (ht : t.Mirrored) : t'.Mirrored := by
  cases d with
  | wrote w =>
    cases w with
    | replaceHolders repo' perm' users => exact hd.promises.keeps_mirrored ht
    | replaceInvited group repo' perm' => exact ht.invitedReplaced hd
    | replaceAccount user account repos => exact hd.promises.keeps_mirrored ht
    | clearAliases holders => exact ht.cleared hd
    | saveOverlay user repo' overlay =>
      obtain rfl : t' = _ := hd
      exact ht
    | deleteOverlays user =>
      obtain rfl : t' = _ := hd
      exact ht
    | deleteUser user => exact hd.promises.keeps_mirrored ht
  | granted user perm' candidates repos => exact ht.claimed hd.2
  | revoked user holders => exact ht.forgotten hd

/-- A deed changes the promises as it changes what the history says. -/
theorem mem_promisedTo_iff (hd : d.Effect now t t') (ht : t.Mirrored) :
    repo ∈ t'.promisedTo holder perm ↔
      d.Upholds holder perm repo (repo ∈ t.promisedTo holder perm) := by
  cases d with
  | wrote w =>
    cases w with
    | replaceHolders repo' perm' users =>
      rw [hd.promises.promisedTo, upholds_of_silent rfl rfl]
    | replaceInvited group repo' perm' =>
      rw [ht.mem_promisedTo_invitedReplaced hd]
      by_cases hslot : repo = repo' ∧ perm = perm' ∧ holder.provider = group.provider
      · obtain ⟨rfl, rfl, hprovider⟩ := hslot
        have hnames : (wrote (.replaceInvited group repo perm)).inviting repo perm
            holder.provider = some group.bindIds := if_pos ⟨rfl, rfl, hprovider.symm⟩
        rw [if_pos ⟨rfl, rfl, hprovider⟩, upholds_of_inviting rfl hnames]
      · have hnone : (wrote (.replaceInvited group repo' perm')).inviting repo perm
            holder.provider = none :=
          if_neg fun hall => hslot ⟨hall.1.symm, hall.2.1.symm, hall.2.2.symm⟩
        rw [if_neg hslot, upholds_of_silent rfl hnone]
    | replaceAccount user account repos =>
      rw [hd.promises.promisedTo, upholds_of_silent rfl rfl]
    | clearAliases holders =>
      rw [hd.mem_promisedTo, upholds_of_inviting_nobody rfl]
      rfl
    | saveOverlay user repo' overlay =>
      obtain rfl : t' = _ := hd
      exact (upholds_of_silent rfl rfl).symm
    | deleteOverlays user =>
      obtain rfl : t' = _ := hd
      exact (upholds_of_silent rfl rfl).symm
    | deleteUser user => rw [hd.promises.promisedTo, upholds_of_silent rfl rfl]
  | granted user perm' candidates repos =>
    have htakes : (granted user perm' candidates repos).takes holder perm =
        decide (perm' = perm ∧ holder ∈ candidates) := rfl
    rw [hd.2.mem_promisedTo, Tables.mem_claimants, upholds_of_inviting_nobody rfl, htakes,
      decide_eq_false_iff_not]
    -- A candidate to whom nothing is promised is not cleared, but has nothing to lose either.
    constructor
    · rintro ⟨hstays, hmem⟩
      refine ⟨?_, hmem⟩
      rintro ⟨rfl, hcandidate⟩
      exact hstays ⟨⟨hcandidate, ExtTreeSet.ne_empty_of_mem hmem⟩, rfl⟩
    · rintro ⟨htaken, hmem⟩
      exact ⟨fun hboth => htaken ⟨hboth.2.symm, hboth.1.1⟩, hmem⟩
  | revoked user holders =>
    have htakes : (revoked user holders).takes holder perm = decide (holder ∈ holders) := rfl
    rw [hd.mem_promisedTo, upholds_of_inviting_nobody rfl, htakes, decide_eq_false_iff_not]

end Deed

/-! ### Runs -/

namespace Chronicle

theorem promised_of (events : List Event) :
    (of events).store.shared.Mirrored ∧ ∀ holder perm repo,
      repo ∈ (of events).store.shared.promisedTo holder perm ↔
        PromisedBy (of events).deeds holder perm repo := by
  refine (deeds_induction (P := fun deeds t => t.Mirrored ∧ ∀ holder perm repo,
    repo ∈ t.promisedTo holder perm ↔ PromisedBy deeds holder perm repo) ?_ ?_ events).2.2
  · refine ⟨Tables.mirrored_empty, fun holder perm repo => ?_⟩
    simp [Tables.promisedTo, Tables.pendingRow, PromisedBy, since, latest]
  · rintro now d deeds t t' - - hd ⟨hmirror, hpromised⟩
    refine ⟨Deed.keeps_mirrored hd hmirror, fun holder perm repo => ?_⟩
    rw [Deed.mem_promisedTo_iff hd hmirror, promisedBy_cons, hpromised]

theorem mirrored_of (events : List Event) : (of events).store.shared.Mirrored :=
  (promised_of events).1

end Chronicle

/-- A promise that stands after a deed has taken it was made later than that deed. -/
theorem PromisedBy.made_after {later earlier : List Deed} {taken : Deed} {holder : Alias}
    {perm : Permission} {repo : RepoId}
    (h : PromisedBy (later ++ taken :: earlier) holder perm repo)
    (htakes : taken.takes holder perm = true) :
    ∃ group, .wrote (.replaceInvited group repo perm) ∈ later ∧
      group.provider = holder.provider ∧ holder.bindId ∈ group.bindIds := by
  -- The induction is on the deeds after the one that takes, the latest one first.
  induction later with
  | nil =>
    rw [List.nil_append, promisedBy_cons, Deed.Upholds, htakes] at h
    cases h.1
  | cons d later ih =>
    rw [List.cons_append, promisedBy_cons, Deed.Upholds] at h
    obtain ⟨hstays, hnames⟩ := h
    cases hinviting : d.inviting repo perm holder.provider with
    | none =>
      rw [hinviting] at hnames
      obtain ⟨group, hmem, hgroup⟩ := ih hnames
      exact ⟨group, List.mem_cons_of_mem d hmem, hgroup⟩
    | some names =>
      rw [hinviting] at hnames
      obtain ⟨group, rfl, hprovider, rfl⟩ := Deed.inviting_eq_some hinviting
      exact ⟨group, List.mem_cons_self, hprovider, hnames⟩

/-- After every run an alias's row holds a repository exactly if the repository's list of the
alias's provider names the alias, and exactly if the history says so; these are the rows that a
client is told of. What is promised to a candidate of a claim has been promised after the claim. -/
theorem promises_follow_history (events : List Event) (holder : Alias) (perm : Permission)
    (repo : RepoId) :
    let c := Chronicle.of events
    (repo ∈ c.store.shared.promisedTo holder perm ↔
      holder.bindId ∈ c.store.shared.invitedBy repo perm holder.provider) ∧
    (repo ∈ c.store.shared.promisedTo holder perm ↔ PromisedBy c.deeds holder perm repo) ∧
    (∀ now,
      c.store.Answers (memoryStore.once now (Tx.request (.loadPending holder perm)) c.store).1
        (c.store.shared.pendingRow holder perm) ∧
      c.store.Answers
        (memoryStore.once now (Tx.request (.loadInvited repo perm holder.provider)) c.store).1
        (c.store.shared.invitedRow repo perm holder.provider)) ∧
    ∀ later earlier user candidates repos,
      c.deeds = later ++ .granted user perm candidates repos :: earlier → holder ∈ candidates →
        repo ∈ c.store.shared.promisedTo holder perm →
          ∃ group, .wrote (.replaceInvited group repo perm) ∈ later ∧
            group.provider = holder.provider ∧ holder.bindId ∈ group.bindIds := by
  intro c
  obtain ⟨hmirror, hpromised⟩ := Chronicle.promised_of events
  refine ⟨hmirror holder perm repo, hpromised holder perm repo, fun now => ?_,
    fun later earlier user candidates repos hdeeds hcandidate hmem => ?_⟩
  · exact ⟨answers_request now c.store _, answers_request now c.store _⟩
  · have hstands : PromisedBy c.deeds holder perm repo := (hpromised holder perm repo).1 hmem
    rw [hdeeds] at hstands
    exact hstands.made_after (decide_eq_true ⟨rfl, hcandidate⟩)

/-- A promise that is claimed and made again. -/
theorem promises_follow_history_after_claim :
    let a : Alias := .internal "a"
    let group : AliasGroup := ⟨.internal, ["a"]⟩
    let setup : Setup := { identityOf := fun user => .ok ⟨user, some "a", [], []⟩ }
    let events : List Event := [.write ⟨0, 0⟩ (.replaceInvited group ⟨1⟩ .read),
      .grant ⟨1, 0⟩ setup { user := ⟨7⟩, perm := .read } .username,
      .write ⟨2, 0⟩ (.replaceInvited group ⟨1⟩ .read)]
    (Chronicle.of events).deeds = [.wrote (.replaceInvited group ⟨1⟩ .read)] ++
      .granted ⟨7⟩ .read [a] {⟨1⟩} :: [.wrote (.replaceInvited group ⟨1⟩ .read)] ∧
    (memoryStore.once ⟨3, 0⟩ (Tx.request (.loadPending a .read)) (Chronicle.of events).store).1 =
      .ok ((Chronicle.of events).store.shared.pendingRow a .read) ∧
    ⟨1⟩ ∈ (Chronicle.of events).store.shared.promisedTo a .read ∧
    ∃ group', .wrote (.replaceInvited group' ⟨1⟩ .read) ∈
      [Deed.wrote (.replaceInvited group ⟨1⟩ .read)] ∧
        group'.provider = a.provider ∧ a.bindId ∈ group'.bindIds := by
  intro a group setup events
  have hdeeds : (Chronicle.of events).deeds = [.wrote (.replaceInvited group ⟨1⟩ .read)] ++
      .granted ⟨7⟩ .read [a] {⟨1⟩} :: [.wrote (.replaceInvited group ⟨1⟩ .read)] := by
    decide +kernel
  have hstaged : (Chronicle.of events).store.staged = none := by decide +kernel
  have hrefuses : (Chronicle.of events).store.refusesCommits = false := by decide +kernel
  have hmem : ⟨1⟩ ∈ (Chronicle.of events).store.shared.promisedTo a .read := by decide +kernel
  have hlaws := promises_follow_history events a .read ⟨1⟩
  exact ⟨hdeeds, (hlaws.2.2.1 ⟨3, 0⟩).1.1 hstaged hrefuses, hmem,
    hlaws.2.2.2 _ _ _ _ _ hdeeds List.mem_cons_self hmem⟩

end RepoAccess
