/-
Writes stay with those they are addressed to.

* `Fact`, `Tables.Says` — the rows, one fact at a time; a row that is missing says no more than an
  empty one, and nothing is said of times;
* `Write.Addresses` — the facts that a write may change, `Write.settles` — what it says of some of
  them, and `Write.StaysWithin` — it changes no others;
* `Write.staysWithin_program` — so does the program of every write, by what that write does;
* `writes_stay_with_addressee` — in an open transaction as well as in one of its own.

Most writes load rows of others, change one member and save the rows again, so what else is in those
rows is at stake each time. Nothing is assumed of the tables but that every row is stored under its
own key: the two sides of a fact may disagree, and sources may be missing.
-/
import RepoAccess.Proofs.Course.Effect

namespace RepoAccess

open Std

/-! ### Facts -/

/-- One thing that the rows may say. -/
inductive Fact where
  /-- The user's row has the repository. -/
  | holds (user : UserId) (perm : Permission) (repo : RepoId)
  /-- The repository's row has the user. -/
  | lists (repo : RepoId) (perm : Permission) (user : UserId)
  /-- This is a reason why the user has the repository. -/
  | reason (user : UserId) (perm : Permission) (repo : RepoId) (source : Source)
  /-- The alias's row has the repository. -/
  | promised (holder : Alias) (perm : Permission) (repo : RepoId)
  /-- The repository's row of aliases of a provider has the name. -/
  | invited (repo : RepoId) (perm : Permission) (provider : Provider) (bindId : String)
  /-- These are the user's path rules in the repository. -/
  | restricted (user : UserId) (repo : RepoId) (overlay : Overlay)
deriving DecidableEq

/-- What a fact is about. -/
inductive Matter where
  | access
  | promises
  | rules
deriving DecidableEq

def Fact.matter : Fact → Matter
  | .holds .. | .lists .. | .reason .. => .access
  | .promised .. | .invited .. => .promises
  | .restricted .. => .rules

/-- The tables say so. -/
def Tables.Says (t : Tables) : Fact → Prop
  | .holds user perm repo => repo ∈ t.reposOf user perm
  | .lists repo perm user => user ∈ t.usersOf repo perm
  | .reason user perm repo source => source ∈ t.reasons ⟨user, perm, repo⟩
  | .promised holder perm repo => repo ∈ t.promisedTo holder perm
  | .invited repo perm provider bindId => bindId ∈ t.invitedBy repo perm provider
  | .restricted user repo overlay => t.overlays[(⟨user, repo⟩ : OverlayKey)]? = some overlay

instance (t : Tables) : DecidablePred t.Says
  | .holds .. | .lists .. | .reason .. | .promised .. | .invited .. =>
    inferInstanceAs (Decidable (_ ∈ _))
  | .restricted .. => inferInstanceAs (Decidable (_ = _))

/-- The tables agree on what is not about access. -/
theorem Tables.SamePromises.says_iff {t t' : Tables} (h : SamePromises t t') {fact : Fact}
    (hmatter : fact.matter ≠ .access) : t'.Says fact ↔ t.Says fact := by
  cases fact with
  | promised holder perm repo => simp only [Tables.Says, h.promisedTo]
  | invited repo perm provider bindId => simp only [Tables.Says, h.invitedBy]
  | restricted user repo overlay => simp only [Tables.Says, h.2.2]
  | _ => exact absurd rfl hmatter

/-- The tables agree on what is not about promises. -/
theorem Tables.SameAccess.says_iff {t t' : Tables} (h : SameAccess t t') {fact : Fact}
    (hmatter : fact.matter ≠ .promises) : t'.Says fact ↔ t.Says fact := by
  cases fact with
  | holds user perm repo => simp only [Tables.Says, reposOf, userRow, h.1]
  | lists repo perm user => simp only [Tables.Says, usersOf, repoRow, h.2.1]
  | reason user perm repo source => simp only [Tables.Says, h.reasons]
  | restricted user repo overlay => simp only [Tables.Says, h.2.2.2]
  | _ => exact absurd rfl hmatter

/-! ### Addressees -/

/-- A list of users is addressed to the users on it, to those in the repository's row, and to those
who have the repository for a list. -/
def Tables.Concerns (t : Tables) (repo : RepoId) (perm : Permission) (named : UserSet)
    (user : UserId) : Prop :=
  user ∈ named ∨ user ∈ t.usersOf repo perm ∨ .repoSync ∈ t.reasons ⟨user, perm, repo⟩

instance (t : Tables) (repo : RepoId) (perm : Permission) (named : UserSet) (user : UserId) :
    Decidable (t.Concerns repo perm named user) :=
  inferInstanceAs (Decidable (_ ∨ _))

/-- A list of an account's repositories is addressed to those on it, and to those that the user has
for this account. -/
def Tables.Covers (t : Tables) (user : UserId) (account : AccountId) (named : RepoSet)
    (repo : RepoId) : Prop :=
  repo ∈ named ∨ .account account ∈ t.reasons ⟨user, .read, repo⟩

/-- The facts that a write may change. -/
def Write.Addresses (t : Tables) : Write → Fact → Prop
  | .replaceHolders repo perm named => fun
    | .holds user perm' repo' => perm' = perm ∧ repo' = repo ∧ t.Concerns repo perm named user
    | .lists repo' perm' user =>
      perm' = perm ∧ repo' = repo ∧ (user ∈ named ∨ user ∈ t.usersOf repo perm)
    | .reason user perm' repo' source =>
      source = .repoSync ∧ perm' = perm ∧ repo' = repo ∧ t.Concerns repo perm named user
    | _ => False
  | .replaceAccount user account named => fun
    | .holds user' perm repo => user' = user ∧ perm = .read ∧ t.Covers user account named repo
    | .lists repo perm user' => user' = user ∧ perm = .read ∧ t.Covers user account named repo
    | .reason user' perm repo source =>
      source = .account account ∧ user' = user ∧ perm = .read ∧ t.Covers user account named repo
    | _ => False
  | .replaceInvited group repo perm => fun
    | .promised holder perm' repo' =>
      perm' = perm ∧ repo' = repo ∧ holder.provider = group.provider ∧
        (holder.bindId ∈ group.bindIds ∨ holder.bindId ∈ t.invitedBy repo perm group.provider)
    | .invited repo' perm' provider _ => repo' = repo ∧ perm' = perm ∧ provider = group.provider
    | _ => False
  | .clearAliases holders => fun
    | .promised holder _ _ => holder ∈ holders
    | .invited _ _ provider bindId => ⟨provider, bindId⟩ ∈ holders
    | _ => False
  | .saveOverlay user repo _ => fun
    | .restricted user' repo' _ => user' = user ∧ repo' = repo
    | _ => False
  | .deleteOverlays user => fun
    | .restricted user' _ _ => user' = user
    | _ => False
  | .deleteUser user => fun
    | .holds user' _ _ => user' = user
    | .reason user' _ _ _ => user' = user
    | _ => False

/-- What the facts are about that a write may change. -/
def Write.matter : Write → Matter
  | .replaceHolders .. | .replaceAccount .. | .deleteUser .. => .access
  | .replaceInvited .. | .clearAliases .. => .promises
  | .saveOverlay .. | .deleteOverlays .. => .rules

theorem Write.Addresses.matter_eq {t : Tables} {w : Write} {fact : Fact}
    (h : w.Addresses t fact) : fact.matter = w.matter := by
  cases w <;> cases fact <;> first | rfl | exact h.elim

/-- Whether a fact holds after a write, where the write says so whatever was there before. -/
def Write.settles : Write → Fact → Option Bool
  | .replaceHolders repo perm named => fun
    | .holds user perm' repo' | .lists repo' perm' user =>
      if perm' = perm ∧ repo' = repo ∧ user ∈ named then some true else none
    | .reason user perm' repo' source =>
      if source = .repoSync ∧ perm' = perm ∧ repo' = repo then some (named.contains user) else none
    | _ => none
  | .replaceAccount user account named => fun
    | .holds user' perm repo =>
      if user' = user ∧ perm = .read ∧ repo ∈ named then some true else none
    | .reason user' perm repo source =>
      if source = .account account ∧ user' = user ∧ perm = .read then some (named.contains repo)
      else none
    | _ => none
  | .replaceInvited group repo perm => fun
    | .invited repo' perm' provider bindId =>
      if repo' = repo ∧ perm' = perm ∧ provider = group.provider then
        some (group.bindIds.contains bindId)
      else none
    | _ => none
  | .clearAliases holders => fun
    | .promised holder _ _ => if holder ∈ holders then some false else none
    | _ => none
  | .saveOverlay user repo overlay => fun
    | .restricted user' repo' overlay' =>
      if user' = user ∧ repo' = repo then some (overlay' = overlay) else none
    | _ => none
  | .deleteOverlays user => fun
    | .restricted user' _ _ => if user' = user then some false else none
    | _ => none
  | .deleteUser user => fun
    | .holds user' _ _ | .reason user' _ _ _ => if user' = user then some false else none
    | _ => none

/-- The rows are under their own keys, what the write says is so, and everything that the write is
not addressed to is as it was. -/
structure Write.StaysWithin (w : Write) (t t' : Tables) : Prop where
  keyed : t'.Keyed
  settled : ∀ fact truth, w.settles fact = some truth → (t'.Says fact ↔ truth = true)
  untouched : ∀ fact, ¬ w.Addresses t fact → (t'.Says fact ↔ t.Says fact)

/-! ### Every write stays within -/

section Effects

variable {now : Timestamp} {t t' : Tables}

theorem Tables.HoldersReplaced.staysWithin {repo : RepoId} {perm : Permission} {named : UserSet}
    (h : HoldersReplaced now repo perm named t t') (hkeyed : t'.Keyed) :
    (Write.replaceHolders repo perm named).StaysWithin t t' := by
  refine ⟨hkeyed, ?_, ?_⟩
  · intro fact truth hsettles
    cases fact with
    | holds user perm' repo' =>
      rw [Tables.Says, h.mem_reposOf]
      grind [Write.settles]
    | lists repo' perm' user =>
      rw [Tables.Says, h.mem_usersOf]
      grind [Write.settles]
    | reason user perm' repo' source =>
      rw [Tables.Says, h.mem_reasons]
      grind [Write.settles]
    | _ => cases hsettles
  · -- Who loses the repository is in its row or has it for a list, though perhaps not both.
    intro fact hother
    cases fact with
    | holds user perm' repo' =>
      rw [Tables.Says, h.mem_reposOf]
      grind [Write.Addresses, Tables.Concerns, Tables.Loses, Tables.Says]
    | lists repo' perm' user =>
      rw [Tables.Says, h.mem_usersOf]
      grind [Write.Addresses, Tables.Says]
    | reason user perm' repo' source =>
      rw [Tables.Says, h.mem_reasons]
      grind [Write.Addresses, Tables.Concerns, Tables.Says]
    | _ => exact h.promises.says_iff (by simp [Fact.matter])

theorem Tables.AccountReplaced.staysWithin {user : UserId} {account : AccountId} {named : RepoSet}
    (h : AccountReplaced now user account named t t') (hkeyed : t'.Keyed) :
    (Write.replaceAccount user account named).StaysWithin t t' := by
  refine ⟨hkeyed, ?_, ?_⟩
  · intro fact truth hsettles
    cases fact with
    | holds user' perm repo =>
      rw [Tables.Says, h.mem_reposOf]
      grind [Write.settles]
    | reason user' perm repo source =>
      rw [Tables.Says, h.mem_reasons]
      grind [Write.settles]
    | _ => cases hsettles
  · -- What leaves the user has been there for this account, so the sources alone decide.
    intro fact hother
    cases fact with
    | holds user' perm repo =>
      rw [Tables.Says, h.mem_reposOf]
      grind [Write.Addresses, Tables.Covers, Tables.Leaves, Tables.Says]
    | lists repo perm user' =>
      rw [Tables.Says, h.mem_usersOf]
      grind [Write.Addresses, Tables.Covers, Tables.Leaves, Tables.Says]
    | reason user' perm repo source =>
      rw [Tables.Says, h.mem_reasons]
      grind [Write.Addresses, Tables.Covers, Tables.Says]
    | _ => exact h.promises.says_iff (by simp [Fact.matter])

theorem Tables.InvitedReplaced.staysWithin {group : AliasGroup} {repo : RepoId}
    {perm : Permission} (h : InvitedReplaced now group repo perm t t') (hkeyed : t'.Keyed) :
    (Write.replaceInvited group repo perm).StaysWithin t t' := by
  refine ⟨hkeyed, ?_, ?_⟩
  · intro fact truth hsettles
    cases fact with
    | invited repo' perm' provider bindId =>
      rw [Tables.Says, h.mem_invitedBy]
      grind [Write.settles]
    | _ => cases hsettles
  · intro fact hother
    cases fact with
    | promised holder perm' repo' =>
      rw [Tables.Says, h.mem_promisedTo]
      grind [Write.Addresses, Tables.Says]
    | invited repo' perm' provider bindId =>
      rw [Tables.Says, h.mem_invitedBy]
      grind [Write.Addresses, Tables.Says]
    | _ => exact h.access.says_iff (by simp [Fact.matter])

theorem Tables.Cleared.staysWithin {holders : List Alias}
    (h : Cleared now (fun holder _ => decide (holder ∈ holders)) t t') (hkeyed : t'.Keyed) :
    (Write.clearAliases holders).StaysWithin t t' := by
  refine ⟨hkeyed, ?_, ?_⟩
  · intro fact truth hsettles
    cases fact with
    | promised holder perm repo =>
      rw [Tables.Says, h.mem_promisedTo]
      grind [Write.settles]
    | _ => cases hsettles
  · intro fact hother
    cases fact with
    | promised holder perm repo =>
      rw [Tables.Says, h.mem_promisedTo]
      grind [Write.Addresses, Tables.Says]
    | invited repo perm provider bindId =>
      rw [Tables.Says, h.mem_invitedBy]
      grind [Write.Addresses, Tables.Says]
    | _ => exact h.access.says_iff (by simp [Fact.matter])

theorem Tables.UserDeleted.staysWithin {user : UserId} (h : UserDeleted user t t')
    (hkeyed : t'.Keyed) : (Write.deleteUser user).StaysWithin t t' := by
  refine ⟨hkeyed, ?_, ?_⟩
  · intro fact truth hsettles
    cases fact with
    | holds user' perm repo =>
      rw [Tables.Says, h.mem_reposOf]
      grind [Write.settles]
    | reason user' perm repo source =>
      rw [Tables.Says, h.reasons]
      grind [Write.settles, ExtTreeSet.not_mem_empty]
    | _ => cases hsettles
  · intro fact hother
    cases fact with
    | holds user' perm repo =>
      rw [Tables.Says, h.mem_reposOf]
      grind [Write.Addresses, Tables.Says]
    | lists repo perm user' => simp only [Tables.Says, Tables.usersOf, Tables.repoRow, h.repos]
    | reason user' perm repo source =>
      rw [Tables.Says, h.reasons]
      grind [Write.Addresses, Tables.Says]
    | _ => exact h.promises.says_iff (by simp [Fact.matter])

/-- Only the rules of the overlays change. -/
theorem Write.staysWithin_of_overlays {w : Write} {overlays : ExtTreeMap OverlayKey Overlay}
    (ht : t.Keyed)
    (hsettled : ∀ fact truth, w.settles fact = some truth → ∃ user repo overlay,
      fact = .restricted user repo overlay ∧
        (overlays[(⟨user, repo⟩ : OverlayKey)]? = some overlay ↔ truth = true))
    (huntouched : ∀ user repo overlay, ¬ w.Addresses t (.restricted user repo overlay) →
      overlays[(⟨user, repo⟩ : OverlayKey)]? = t.overlays[(⟨user, repo⟩ : OverlayKey)]?) :
    w.StaysWithin t { t with overlays } := by
  refine ⟨⟨ht.users, ht.repos, ht.pending, ht.invited⟩, ?_, ?_⟩
  · intro fact truth hsettles
    obtain ⟨user, repo, overlay, rfl, htruth⟩ := hsettled fact truth hsettles
    exact htruth
  · intro fact hother
    cases fact with
    | restricted user repo overlay =>
      simp only [Tables.Says, huntouched user repo overlay hother]
    | _ => exact Iff.rfl

/-- Whatever is in the tables, a write changes nothing but what it is addressed to. -/
theorem Write.staysWithin_program (ht : t.Keyed) (now : Timestamp) (w : Write) :
    w.StaysWithin t ((w.program now).exec now t).2 := by
  have heffect := w.effect_program ht now
  have hkeyed := ht.exec now (w.program now)
  generalize ((w.program now).exec now t).2 = t' at heffect hkeyed
  cases w with
  | replaceHolders repo perm named => exact Tables.HoldersReplaced.staysWithin heffect hkeyed
  | replaceInvited group repo perm => exact Tables.InvitedReplaced.staysWithin heffect hkeyed
  | replaceAccount user account named => exact Tables.AccountReplaced.staysWithin heffect hkeyed
  | clearAliases holders => exact Tables.Cleared.staysWithin heffect hkeyed
  | deleteUser user => exact Tables.UserDeleted.staysWithin heffect hkeyed
  | saveOverlay user repo overlay =>
    obtain rfl : t' = _ := heffect
    refine staysWithin_of_overlays ht ?_ ?_
    · intro fact truth hsettles
      cases fact with
      | restricted user' repo' overlay' =>
        refine ⟨user', repo', overlay', rfl, ?_⟩
        grind [Write.settles]
      | _ => cases hsettles
    · intro user' repo' overlay' hother
      grind [Write.Addresses]
  | deleteOverlays user =>
    obtain rfl : t' = _ := heffect
    refine staysWithin_of_overlays ht ?_ ?_
    · intro fact truth hsettles
      cases fact with
      | restricted user' repo' overlay' =>
        refine ⟨user', repo', overlay', rfl, ?_⟩
        rw [getElem?_filter_key]
        grind [Write.settles]
      | _ => cases hsettles
    · intro user' repo' overlay' hother
      rw [getElem?_filter_key]
      grind [Write.Addresses]

end Effects

/-- Whatever the rows say, as long as each is under its own key, a write makes true what it says and
changes no fact that it is not addressed to, so none about another matter than its own. The same
happens in a transaction that is open and in one of the write's own; where there can be none, the
store stays as it was. -/
theorem writes_stay_with_addressee (now : Timestamp) (w : Write) {t : Tables} (ht : t.Keyed) :
    ∃ t', w.StaysWithin t t' ∧
      (∀ fact, fact.matter ≠ w.matter → (t'.Says fact ↔ t.Says fact)) ∧
      (∀ s : MemoryStore, s.staged = some t →
        (w.program now).run (memoryStore.perform now) s =
          (.ok (), { s with staged := some t' })) ∧
      ∀ s : MemoryStore, s.shared = t →
        (s.Free → memoryStore.once now (w.program now) s = (.ok (), { s with shared := t' })) ∧
        (¬ s.Free → ∃ stop, memoryStore.once now (w.program now) s = (.error stop, s)) := by
  have hstays := w.staysWithin_program ht now
  refine ⟨_, hstays, ?_, fun s hstaged => Tx.run_eq _ hstaged, ?_⟩
  · intro fact hmatter
    exact hstays.untouched fact fun haddressed => hmatter haddressed.matter_eq
  · rintro s rfl
    exact ⟨fun hfree => MemoryStore.once_of_free hfree now _,
      fun hbusy => MemoryStore.once_of_not_free hbusy now _⟩

/-- Two users are in a repository's row without any reason, and a third one has the repository in
its own row alone. A list that names the second one is not addressed to the third one. -/
theorem writes_stay_with_addressee_of_mismatch :
    let t := ((({} : Tables).after ⟨0, 0⟩
        (.saveRepo { repo := ⟨1⟩, perm := .read, users := {⟨7⟩, ⟨8⟩}, updatedAt := ⟨0, 0⟩ })).after
      ⟨0, 0⟩ (.saveUser { user := ⟨9⟩, perm := .read, repos := {⟨1⟩, ⟨2⟩}, updatedAt := ⟨0, 0⟩ }))
    let w := Write.replaceHolders ⟨1⟩ .read {⟨8⟩}
    t.Keyed ∧ t.Says (.holds ⟨9⟩ .read ⟨1⟩) ∧ ¬ t.Says (.lists ⟨1⟩ .read ⟨9⟩) ∧ ∃ t',
      (w.program ⟨1, 0⟩).run (memoryStore.perform ⟨1, 0⟩) { staged := some t } =
        (.ok (), { staged := some t' }) ∧
      t'.Says (.holds ⟨8⟩ .read ⟨1⟩) ∧ t'.Says (.holds ⟨9⟩ .read ⟨1⟩) ∧
      ¬ t'.Says (.lists ⟨1⟩ .read ⟨9⟩) := by
  intro t w
  have ht : t.Keyed := (Tables.keyed_empty.after _ _).after _ _
  obtain ⟨t', hstays, -, hopen, -⟩ := writes_stay_with_addressee ⟨1, 0⟩ w ht
  have hholds : t.Says (.holds ⟨9⟩ .read ⟨1⟩) := by decide +kernel
  have hlists : ¬ t.Says (.lists ⟨1⟩ .read ⟨9⟩) := by decide +kernel
  refine ⟨ht, hholds, hlists, t', hopen _ rfl, ?_, (hstays.untouched _ ?_).2 hholds,
    mt (hstays.untouched _ ?_).1 hlists⟩
  · exact (hstays.settled (.holds ⟨8⟩ .read ⟨1⟩) true (by decide +kernel)).2 rfl
  · rintro ⟨-, -, hconcerns⟩
    exact absurd hconcerns (by decide +kernel)
  · rintro ⟨-, -, hlisted⟩
    exact absurd hlisted (by decide +kernel)

end RepoAccess
