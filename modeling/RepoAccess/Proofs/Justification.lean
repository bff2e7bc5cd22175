/-
Every grant is justified by who the user was, and which mode was in force, at its moment.

* `Identity.Vouches` — the facts of an identity that make an alias the user's under a mode;
* `Identity.mem_candidates_iff` — the aliases that a claim looks up are those that are vouched for;
* `System.Justifies` — a step commits a user's claim to a repository that was promised to an alias
  vouched for at this moment;
* `grants_are_justified` — whenever access rests on a grant, a step has justified it since the user
  was last forgotten, and no claim takes a promise to an alias that is not vouched for.

An address that is not verified vouches for nothing. Identities, mode and promises may all be
different by the time the access is looked at.
-/
import RepoAccess.Proofs.Course.System
import RepoAccess.Proofs.SourceHistory

namespace RepoAccess

/-! ### Identities -/

/-- The alias is the user's under a mode: an address that is verified, the user name if it is not
empty, or a linked account. -/
def Identity.Vouches (identity : Identity) (mode : BindingMode) (holder : Alias) : Prop :=
  match mode with
  | .email => ∃ email ∈ identity.emails, email.verified = true ∧ holder = .internal email.address
  | .username => ∃ username, identity.username = some username ∧ username ≠ "" ∧
    holder = .internal username
  | .unset => ∃ account ∈ identity.accounts, holder = account.spec.toAlias

/-- A claim looks up the aliases that are vouched for. -/
theorem Identity.mem_candidates_iff {identity : Identity} {mode : BindingMode} {holder : Alias} :
    holder ∈ identity.candidates mode ↔ identity.Vouches mode holder := by
  rw [candidates, List.mem_eraseDups]
  cases mode with
  | email =>
    simp only [facts, verifiedEmails, Vouches, List.mem_map, List.mem_filter]
    constructor
    · rintro ⟨_, ⟨email, ⟨hmem, hverified⟩, rfl⟩, rfl⟩
      exact ⟨email, hmem, hverified, rfl⟩
    · rintro ⟨email, hmem, hverified, rfl⟩
      exact ⟨_, ⟨email, ⟨hmem, hverified⟩, rfl⟩, rfl⟩
  | username =>
    simp only [facts, Vouches, List.mem_map, List.mem_filter, Option.mem_toList, decide_eq_true_iff]
    constructor
    · rintro ⟨username, ⟨hname, hsome⟩, rfl⟩
      exact ⟨username, hname, hsome, rfl⟩
    · rintro ⟨username, hname, hsome, rfl⟩
      exact ⟨username, ⟨hname, hsome⟩, rfl⟩
  | unset =>
    simp only [facts, Vouches, List.mem_map]
    constructor
    · rintro ⟨account, hmem, rfl⟩
      exact ⟨account, hmem, rfl⟩
    · rintro ⟨account, hmem, rfl⟩
      exact ⟨account, hmem, rfl⟩

/-! ### Steps -/

namespace System

/-- The step commits a claim of the user, and the repository is among what is promised to an alias
that the user's identity vouches for, under the mode of the claim. -/
def Justifies (before : System) (step : Step) (user : UserId) (perm : Permission) (repo : RepoId) :
    Prop :=
  ∃ asked mode identity holder candidates repos,
    step.asksFor before = some (asked, mode) ∧ asked.user = user ∧ asked.perm = perm ∧
    (before.take step).chronicle.deeds =
      .granted user perm candidates repos :: before.chronicle.deeds ∧
    before.identities.identity user = .ok identity ∧ identity.Vouches mode holder ∧
    repo ∈ before.tables.promisedTo holder perm

variable {before : System} {step : Step} {user : UserId} {perm : Permission} {repo : RepoId}

/-- The aliases that a claim looks up are vouched for by the identity that the system knows. -/
theorem mem_candidates_iff {setup : Setup} {mode : BindingMode} {holder : Alias}
    (hsetup : setup.identityOf = before.identities.identity) :
    holder ∈ setup.candidates user mode ↔
      ∃ identity, before.identities.identity user = .ok identity ∧
        identity.Vouches mode holder := by
  rw [Setup.candidates, hsetup]
  cases before.identities.identity user with
  | error error => simp
  | ok identity => simp [Identity.mem_candidates_iff]

/-- A claim that is committed is justified. -/
theorem justifies_of_granted {candidates : List Alias} {repos : RepoSet}
    (h : (before.take step).chronicle.deeds =
      .granted user perm candidates repos :: before.chronicle.deeds) (hrepo : repo ∈ repos) :
    before.Justifies step user perm repo := by
  have hdeeds := h
  rw [chronicle_take] at hdeeds
  cases hevent : step.event before with
  | none =>
    rw [hevent] at hdeeds
    exact absurd hdeeds.symm (List.cons_ne_self _ _)
  | some event =>
    rw [hevent] at hdeeds
    obtain ⟨now, setup, asked, mode, rfl, huser, hperm, hcandidates, hrepos⟩ :=
      before.chronicle.granted_note hdeeds
    have hasks : step.asksFor before = some (asked, mode) := by
      rw [Step.asksFor, hevent]
    -- The repository is promised to one of the aliases that were looked up.
    rw [← hrepos] at hrepo
    obtain ⟨holder, hclaimant, hpromised⟩ := Tables.mem_claimable.1 hrepo
    have hcandidate := (Tables.mem_claimants.1 hclaimant).1
    rw [← hcandidates, mem_candidates_iff (identityOf_of_event hevent)] at hcandidate
    obtain ⟨identity, hidentity, hvouches⟩ := hcandidate
    exact ⟨asked, mode, identity, holder, candidates, repos, hasks, huser, hperm, h, hidentity,
      hvouches, hpromised⟩

/-- A claim takes no promise to an alias that the user's identity does not vouch for. -/
theorem pendingRow_take (hkeyed : before.tables.Keyed) {asked : GrantRequest} {mode : BindingMode}
    (hasks : step.asksFor before = some (asked, mode)) {holder : Alias}
    (hnone : ∀ identity, before.identities.identity asked.user = .ok identity →
      ¬ identity.Vouches mode holder) (perm : Permission) :
    (before.take step).tables.pendingRow holder perm = before.tables.pendingRow holder perm := by
  rw [tables, chronicle_take]
  unfold Step.asksFor at hasks
  split at hasks
  · next now setup asked' mode' hevent =>
    cases hasks
    rw [hevent]
    refine before.chronicle.pendingRow_note_grant now setup hkeyed asked mode ?_ perm
    rw [mem_candidates_iff (identityOf_of_event hevent)]
    rintro ⟨identity, hidentity, hvouches⟩
    exact hnone identity hidentity hvouches
  · cases hasks

end System

/-! ### Runs -/

/-- After every run of changes of identities, of modes, of writes, claims and revocations: if access
rests on a grant, then one of the steps since the user was last forgotten has justified it. And no
claim, of whatever user, touches what is promised to an alias that it is not vouched for. -/
theorem grants_are_justified (steps : List Step) :
    let sys := System.of steps
    (∀ user perm repo, .grant ∈ sys.tables.reasons ⟨user, perm, repo⟩ →
      ∃ earlier step later, steps = earlier ++ step :: later ∧
        (System.of earlier).Justifies step user perm repo ∧
        ∃ newer, sys.chronicle.deeds =
            newer ++ (System.of (earlier ++ [step])).chronicle.deeds ∧
          ∀ d ∈ newer, d.forgets user = false) ∧
    (∀ step asked mode holder, step.asksFor sys = some (asked, mode) →
      (∀ identity, sys.identities.identity asked.user = .ok identity →
        ¬ identity.Vouches mode holder) →
      ∀ perm, (sys.take step).tables.pendingRow holder perm =
        sys.tables.pendingRow holder perm) := by
  intro sys
  refine ⟨fun user perm repo hgrant => ?_, fun step asked mode holder hasks hnone perm =>
    System.pendingRow_take (System.keyed_of steps) hasks hnone perm⟩
  obtain ⟨events, hevents⟩ := System.exists_events steps
  -- The history has a claim of the user since the user was last forgotten.
  have hrecorded : Source.grant.RecordedBy sys.chronicle.deeds user perm repo := by
    have hreasons := (Chronicle.mem_reasons_of events user perm repo .grant).1
    rw [← hevents] at hreasons
    exact hreasons hgrant
  obtain ⟨d, hmem, hgrants⟩ := hrecorded
  obtain ⟨candidates, repos, rfl, hrepo⟩ := Deed.grants_eq_true hgrants
  obtain ⟨newer, deeds, hdeeds, hnewer⟩ := exists_of_mem_since hmem
  obtain ⟨earlier, step, later, hsteps, hbefore, hdone⟩ := System.exists_step hdeeds
  refine ⟨earlier, step, later, hsteps, ?_, newer, ?_, hnewer⟩
  · rw [← hbefore] at hdone
    exact System.justifies_of_granted hdone hrepo
  · rw [System.of_concat, hdone, hdeeds]

/-- A repository is promised to an address. Its user claims it in vain until the address is
verified. -/
theorem grants_are_justified_once_verified :
    let setup : Setup := { identityOf := fun user => .ok (.unknown user) }
    let asked : GrantRequest := { user := ⟨7⟩, perm := .read }
    let steps : List Step := [.setMode .email, .identify (.createUser ⟨7⟩ "a"),
      .identify (.addEmail ⟨7⟩ "a@b" false),
      .happen (.write ⟨0, 0⟩ (.replaceInvited ⟨.internal, ["a@b"]⟩ ⟨1⟩ .read))]
    let verified := steps ++ [.claim ⟨1, 0⟩ setup asked,
      .identify (.setEmailVerified ⟨7⟩ "a@b" true), .claim ⟨2, 0⟩ setup asked]
    (∃ earlier step later, verified = earlier ++ step :: later ∧
      (System.of earlier).Justifies step ⟨7⟩ .read ⟨1⟩) ∧
    ((System.of steps).take (.claim ⟨1, 0⟩ setup asked)).tables.pendingRow (.internal "a@b") .read =
      (System.of steps).tables.pendingRow (.internal "a@b") .read := by
  intro setup asked steps verified
  have hgrant : Source.grant ∈ (System.of verified).tables.reasons ⟨⟨7⟩, .read, ⟨1⟩⟩ := by
    decide +kernel
  have hidentity : (System.of steps).identities.identity ⟨7⟩ =
      .ok ⟨⟨7⟩, some "a", [⟨"a@b", false⟩], []⟩ := by
    rfl
  have hnone : ∀ identity, (System.of steps).identities.identity asked.user = .ok identity →
      ¬ identity.Vouches .email (.internal "a@b") := by
    intro identity hknown
    rw [hidentity] at hknown
    cases hknown
    simp [Identity.Vouches]
  obtain ⟨earlier, step, later, hsteps, hjustifies, -⟩ :=
    (grants_are_justified verified).1 ⟨7⟩ .read ⟨1⟩ hgrant
  exact ⟨⟨earlier, step, later, hsteps, hjustifies⟩,
    (grants_are_justified steps).2 (.claim ⟨1, 0⟩ setup asked) asked .email _ rfl hnone .read⟩

end RepoAccess
