/-
Promises, claimed, and a user, forgotten.

* `Tables.claimants`, `Tables.claimable` — the candidates to whom something is promised, and what is
  promised to them;
* `Tables.Claimed` — what claiming does to the tables, and `exec_claim` — that it does so, and with
  which answer;
* `Tables.UserDeleted`, `Tables.Forgotten` — what deleting a user's rows, and forgetting a user
  altogether, does to them.
-/
import RepoAccess.Engine.Operations
import RepoAccess.Proofs.Writers.Account
import RepoAccess.Proofs.Writers.Clearing

namespace RepoAccess

open Std

namespace Tables

variable {t : Tables} {perm : Permission} {candidates : List Alias}

/-! ### What there is to claim -/

/-- The candidates to whom something is promised. -/
def claimants (t : Tables) (perm : Permission) (candidates : List Alias) : List Alias :=
  candidates.filter fun holder => !(t.promisedTo holder perm).isEmpty

/-- What is promised to the candidates. -/
def claimable (t : Tables) (perm : Permission) (candidates : List Alias) : RepoSet :=
  candidates.foldl (fun repos holder => repos ∪ t.promisedTo holder perm) ∅

theorem mem_claimants {holder : Alias} :
    holder ∈ t.claimants perm candidates ↔
      holder ∈ candidates ∧ t.promisedTo holder perm ≠ ∅ := by
  rw [claimants, List.mem_filter, Bool.not_eq_true', ← Bool.not_eq_true, ExtTreeSet.isEmpty_iff]

/-- Candidates to whom nothing is promised claim nothing. -/
theorem claimants_eq_nil_of_promisedTo
    (h : ∀ holder ∈ candidates, ∀ repo, repo ∉ t.promisedTo holder perm) :
    t.claimants perm candidates = [] := by
  refine List.eq_nil_iff_forall_not_mem.2 fun holder hmem => ?_
  obtain ⟨hcandidate, hsome⟩ := mem_claimants.1 hmem
  exact hsome (ExtTreeSet.eq_empty_iff_forall_not_mem.2 (h holder hcandidate))

/-- There is nothing to claim but from those who have something. -/
theorem mem_claimable {repo : RepoId} :
    repo ∈ t.claimable perm candidates ↔
      ∃ holder ∈ t.claimants perm candidates, repo ∈ t.promisedTo holder perm := by
  suffices h : ∀ (rest : List Alias) (repos : RepoSet),
      repo ∈ rest.foldl (fun repos holder => repos ∪ t.promisedTo holder perm) repos ↔
        repo ∈ repos ∨ ∃ holder ∈ rest, repo ∈ t.promisedTo holder perm by
    rw [claimable, h]
    constructor
    · rintro (hnone | ⟨holder, hmem, hrepo⟩)
      · exact absurd hnone ExtTreeSet.not_mem_empty
      · exact ⟨holder, mem_claimants.2 ⟨hmem, ExtTreeSet.ne_empty_of_mem hrepo⟩, hrepo⟩
    · rintro ⟨holder, hmem, hrepo⟩
      exact .inr ⟨holder, (mem_claimants.1 hmem).1, hrepo⟩
  intro rest
  induction rest with
  | nil => simp
  | cons holder rest ih =>
    intro repos
    rw [List.foldl_cons, ih, ExtTreeSet.mem_union_iff]
    simp
    grind

end Tables

namespace Tx

variable {t : Tables} {perm : Permission}

theorem exec_matchPending (now : Timestamp) (found : List Alias × RepoSet) (holder : Alias) :
    (matchPending perm found holder).exec now t =
      (if (t.promisedTo holder perm).isEmpty then found
        else (found.1 ++ [holder], found.2 ∪ t.promisedTo holder perm), t) := by
  rw [Tables.promisedTo]
  cases h : t.pendingRow holder perm with
  | none =>
    rw [Tables.pendingRow] at h
    simp [matchPending, request, exec, Tables.perform, h]
  | some row =>
    rw [Tables.pendingRow] at h
    by_cases hempty : row.repos = ∅ <;>
      simp [matchPending, request, exec, Tables.perform, h, hempty]

/-- Looking up the candidates finds what there is to claim, and changes nothing. -/
theorem exec_foldlM_matchPending (now : Timestamp) (candidates : List Alias)
    (found : List Alias × RepoSet) :
    (candidates.foldlM (matchPending perm) found).exec now t =
      ((found.1 ++ t.claimants perm candidates,
        candidates.foldl (fun repos holder => repos ∪ t.promisedTo holder perm) found.2), t) := by
  induction candidates generalizing found with
  | nil =>
    rw [List.foldlM_nil, exec_pure, Tables.claimants, List.filter_nil, List.append_nil,
      List.foldl_nil]
  | cons holder candidates ih =>
    rw [List.foldlM_cons, exec_bind, exec_matchPending, ih, Tables.claimants, Tables.claimants,
      List.foldl_cons]
    cases hempty : (t.promisedTo holder perm).isEmpty with
    | true =>
      -- An empty row is passed over, and the union does not miss it.
      have hnothing : found.2 ∪ t.promisedTo holder perm = found.2 := by
        rw [ExtTreeSet.isEmpty_iff.1 hempty]
        ext repo
        simp
      simp only [hnothing, if_true, hempty, Bool.not_true, List.filter_cons, Bool.false_eq_true,
        if_false]
    | false =>
      simp only [hempty, Bool.not_false, List.filter_cons, if_true, Bool.false_eq_true, if_false,
        List.append_assoc, List.cons_append, List.nil_append]

end Tx

/-! ### Claiming -/

namespace Tables

variable {now : Timestamp} {user : UserId} {perm : Permission} {t t' : Tables}

/-- A user claims these repositories from these aliases. -/
structure Claimed (now : Timestamp) (user : UserId) (perm : Permission) (matched : List Alias)
    (repos : RepoSet) (t t' : Tables) : Prop where
  userRow : ∀ user' perm', t'.userRow user' perm' =
    if user' = user ∧ perm' = perm then
      some { (t.userRow user perm).getD { user, perm, updatedAt := now } with
        repos := t.reposOf user perm ∪ repos, updatedAt := now }
    else t.userRow user' perm'
  repoRow : ∀ repo perm', t'.repoRow repo perm' =
    if perm' = perm ∧ repo ∈ repos then
      some (((t.repoRow repo perm').getD { repo, perm := perm', updatedAt := now }).gain now user)
    else t.repoRow repo perm'
  reasons : ∀ user' perm' repo, t'.reasons ⟨user', perm', repo⟩ =
    if user' = user ∧ perm' = perm ∧ repo ∈ repos then
      (t.reasons ⟨user', perm', repo⟩).insert .grant
    else t.reasons ⟨user', perm', repo⟩
  pendingRow : ∀ holder perm', t'.pendingRow holder perm' =
    if holder ∈ matched ∧ perm' = perm then none else t.pendingRow holder perm'
  invitedRow : ∀ repo perm' provider, t'.invitedRow repo perm' provider =
    (t.invitedRow repo perm' provider).map (·.without now fun bindId =>
      decide (⟨provider, bindId⟩ ∈ matched ∧ perm' = perm) &&
        (t.promisedTo ⟨provider, bindId⟩ perm').contains repo)
  overlays : t'.overlays = t.overlays

namespace Claimed

variable {matched : List Alias} {repos : RepoSet}

theorem mem_reposOf (h : Claimed now user perm matched repos t t') {user' : UserId}
    {perm' : Permission} {repo : RepoId} :
    repo ∈ t'.reposOf user' perm' ↔
      repo ∈ t.reposOf user' perm' ∨ user' = user ∧ perm' = perm ∧ repo ∈ repos := by
  rw [mem_reposOf_iff, h.userRow]
  by_cases hslot : user' = user ∧ perm' = perm
  · obtain ⟨rfl, rfl⟩ := hslot
    simp [ExtTreeSet.mem_union_iff]
  · simp [hslot, mem_reposOf_iff]
    grind

theorem mem_usersOf (h : Claimed now user perm matched repos t t') {repo : RepoId}
    {perm' : Permission} {user' : UserId} :
    user' ∈ t'.usersOf repo perm' ↔
      user' ∈ t.usersOf repo perm' ∨ user' = user ∧ perm' = perm ∧ repo ∈ repos := by
  rw [mem_usersOf_iff, h.repoRow]
  by_cases hslot : perm' = perm ∧ repo ∈ repos
  · obtain ⟨rfl, hmem⟩ := hslot
    cases hrow : t.repoRow repo perm' <;>
      simp [hmem, hrow, mem_usersOf_iff, RepoHolders.mem_users_gain]
    grind
  · rw [if_neg hslot, mem_usersOf_iff]
    grind

theorem mem_promisedTo (h : Claimed now user perm matched repos t t') {holder : Alias}
    {perm' : Permission} {repo : RepoId} :
    repo ∈ t'.promisedTo holder perm' ↔
      ¬ (holder ∈ matched ∧ perm' = perm) ∧ repo ∈ t.promisedTo holder perm' := by
  exact mem_promisedTo_of_pendingRow (h.pendingRow holder perm')

theorem mem_invitedBy (h : Claimed now user perm matched repos t t') {repo : RepoId}
    {perm' : Permission} {provider : Provider} {bindId : String} :
    bindId ∈ t'.invitedBy repo perm' provider ↔ bindId ∈ t.invitedBy repo perm' provider ∧
      ¬ ((⟨provider, bindId⟩ ∈ matched ∧ perm' = perm) ∧
        repo ∈ t.promisedTo ⟨provider, bindId⟩ perm') := by
  rw [mem_invitedBy_of_invitedRow (h.invitedRow repo perm' provider)]
  simp

theorem mem_reasons (h : Claimed now user perm matched repos t t') {user' : UserId}
    {perm' : Permission} {repo : RepoId} {source : Source} :
    source ∈ t'.reasons ⟨user', perm', repo⟩ ↔
      source = .grant ∧ user' = user ∧ perm' = perm ∧ repo ∈ repos ∨
        source ∈ t.reasons ⟨user', perm', repo⟩ := by
  rw [h.reasons]
  by_cases hslot : user' = user ∧ perm' = perm ∧ repo ∈ repos
  · simp only [hslot, and_self, and_true, if_true, mem_insert_iff]
  · rw [if_neg hslot]
    exact (or_iff_right fun hall => hslot hall.2).symm

/-- Nothing is left for the candidates of a claim. -/
theorem claimants_eq_nil {candidates : List Alias}
    (h : Claimed now user perm (t.claimants perm candidates) repos t t') :
    t'.claimants perm candidates = [] := by
  refine claimants_eq_nil_of_promisedTo fun holder hcandidate repo hrepo => ?_
  -- A candidate with something left would have been one of those who claimed.
  obtain ⟨hstays, hold⟩ := h.mem_promisedTo.1 hrepo
  exact hstays ⟨mem_claimants.2 ⟨hcandidate, ExtTreeSet.ne_empty_of_mem hold⟩, rfl⟩

end Claimed

/-! ### Forgetting -/

/-- A user's rows and the reasons behind them are deleted. -/
structure UserDeleted (user : UserId) (t t' : Tables) : Prop where
  userRow : ∀ user' perm, t'.userRow user' perm =
    if user' = user then none else t.userRow user' perm
  reasons : ∀ user' perm repo, t'.reasons ⟨user', perm, repo⟩ =
    if user' = user then ∅ else t.reasons ⟨user', perm, repo⟩
  repos : t'.repos = t.repos
  promises : SamePromises t t'

/-- A user is forgotten, with every promise to these aliases. -/
structure Forgotten (now : Timestamp) (user : UserId) (holders : List Alias) (t t' : Tables) :
    Prop where
  userRow : ∀ user' perm, t'.userRow user' perm =
    if user' = user then none else t.userRow user' perm
  repoRow : ∀ repo perm, t'.repoRow repo perm =
    (t.repoRow repo perm).map (withoutHolder now user)
  reasons : ∀ user' perm repo, t'.reasons ⟨user', perm, repo⟩ =
    if user' = user then ∅ else t.reasons ⟨user', perm, repo⟩
  pendingRow : ∀ holder perm, t'.pendingRow holder perm =
    if holder ∈ holders then none else t.pendingRow holder perm
  invitedRow : ∀ repo perm provider, t'.invitedRow repo perm provider =
    (t.invitedRow repo perm provider).map (·.without now fun bindId =>
      decide (⟨provider, bindId⟩ ∈ holders) &&
        (t.promisedTo ⟨provider, bindId⟩ perm).contains repo)
  overlays : t'.overlays = t.overlays.filter fun key _ => key.user != user

/-- A user whose rows are deleted may access nothing. -/
theorem mem_reposOf_of_userRow {user' : UserId} {repo : RepoId}
    (h : t'.userRow user' perm = if user' = user then none else t.userRow user' perm) :
    repo ∈ t'.reposOf user' perm ↔ user' ≠ user ∧ repo ∈ t.reposOf user' perm := by
  rw [mem_reposOf_iff, h]
  by_cases huser : user' = user
  · simp [huser]
  · simp [huser, mem_reposOf_iff]

namespace UserDeleted

theorem mem_reposOf (h : UserDeleted user t t') {user' : UserId} {repo : RepoId} :
    repo ∈ t'.reposOf user' perm ↔ user' ≠ user ∧ repo ∈ t.reposOf user' perm :=
  mem_reposOf_of_userRow (h.userRow user' perm)

end UserDeleted

namespace Forgotten

variable {holders : List Alias}

theorem mem_reposOf (h : Forgotten now user holders t t') {user' : UserId} {repo : RepoId} :
    repo ∈ t'.reposOf user' perm ↔ user' ≠ user ∧ repo ∈ t.reposOf user' perm :=
  mem_reposOf_of_userRow (h.userRow user' perm)

theorem mem_usersOf (h : Forgotten now user holders t t') {user' : UserId} {repo : RepoId} :
    user' ∈ t'.usersOf repo perm ↔ user' ≠ user ∧ user' ∈ t.usersOf repo perm := by
  rw [mem_usersOf_iff, h.repoRow]
  cases hrow : t.repoRow repo perm with
  | none => simp [mem_usersOf_iff, hrow]
  | some row => simp [mem_usersOf_iff, hrow, RepoHolders.mem_users_withoutHolder]

theorem mem_promisedTo (h : Forgotten now user holders t t') {holder : Alias} {repo : RepoId} :
    repo ∈ t'.promisedTo holder perm ↔ holder ∉ holders ∧ repo ∈ t.promisedTo holder perm := by
  exact mem_promisedTo_of_pendingRow (h.pendingRow holder perm)

theorem mem_invitedBy (h : Forgotten now user holders t t') {repo : RepoId} {provider : Provider}
    {bindId : String} :
    bindId ∈ t'.invitedBy repo perm provider ↔ bindId ∈ t.invitedBy repo perm provider ∧
      ¬ (⟨provider, bindId⟩ ∈ holders ∧ repo ∈ t.promisedTo ⟨provider, bindId⟩ perm) := by
  rw [mem_invitedBy_of_invitedRow (h.invitedRow repo perm provider)]
  simp

end Forgotten

end Tables

namespace Tx

variable {t : Tables}

/-- Giving a user some repositories for a reason changes the sources and nothing else. -/
theorem addSource_forM (ht : t.Keyed) (now : Timestamp) (user : UserId) (perm : Permission)
    (source : Source) (repos : List RepoId) {t' : Tables}
    (h : ((repos.forM fun repo => request (.addSource user perm repo source)).exec now t).2 = t') :
    t'.users = t.users ∧ t'.repos = t.repos ∧ Tables.SamePromises t t' ∧
    ∀ user' perm' repo, t'.reasons ⟨user', perm', repo⟩ =
      if user' = user ∧ perm' = perm ∧ repo ∈ repos then
        (t.reasons ⟨user', perm', repo⟩).insert source
      else t.reasons ⟨user', perm', repo⟩ := by
  rw [← h]
  refine forM_keeps (P := fun done t' => t'.users = t.users ∧ t'.repos = t.repos ∧
    Tables.SamePromises t t' ∧ ∀ user' perm' repo, t'.reasons ⟨user', perm', repo⟩ =
      if user' = user ∧ perm' = perm ∧ repo ∈ done then
        (t.reasons ⟨user', perm', repo⟩).insert source
      else t.reasons ⟨user', perm', repo⟩) ?_ repos ht ⟨rfl, rfl, .refl t, by simp⟩
  intro done t' repo _ hdone
  obtain ⟨husers, hrepos, hpromises, hreasons⟩ := hdone
  refine ⟨husers, hrepos, hpromises, fun user' perm' repo' => ?_⟩
  show (t'.after now (.addSource user perm repo source)).reasons ⟨user', perm', repo'⟩ = _
  rw [Tables.reasons_addSource, hreasons]
  by_cases hmem : repo' ∈ done
  · grind [insert_insert_self]
  · simp [hmem]

/-- Adding a user to some repositories changes the rows of these repositories and nothing else. -/
theorem addHolder_forM (ht : t.Keyed) (now : Timestamp) (user : UserId) (perm : Permission)
    (repos : List RepoId) {t' : Tables}
    (h : ((repos.forM fun repo => addHolder now repo perm user).exec now t).2 = t') :
    Tables.SameButRepos t t' ∧ ∀ repo perm', t'.repoRow repo perm' =
      if perm' = perm ∧ repo ∈ repos then
        some (((t.repoRow repo perm').getD { repo, perm := perm', updatedAt := now }).gain now user)
      else t.repoRow repo perm' := by
  rw [← h]
  refine forM_keeps (P := fun done t' => Tables.SameButRepos t t' ∧
    ∀ repo perm', t'.repoRow repo perm' =
      if perm' = perm ∧ repo ∈ done then
        some (((t.repoRow repo perm').getD { repo, perm := perm', updatedAt := now }).gain now user)
      else t.repoRow repo perm') ?_ repos ht ⟨.refl t, by simp⟩
  intro done t' repo ht' hdone
  obtain ⟨hsame, hrows⟩ := addHolder_spec ht' now repo perm user
  refine ⟨hdone.1.trans hsame, fun repo' perm' => ?_⟩
  rw [hrows, hdone.2, hdone.2]
  by_cases hmem : repo' ∈ done
  · grind [RepoHolders.gain_gain]
  · grind

theorem exec_mergeGranted (now : Timestamp) (user : UserId) (perm : Permission) (repos : RepoSet)
    (source : Source) :
    (mergeGranted now user perm repos source).exec now t =
      ((t.reposOf user perm ∪ repos).size - (t.reposOf user perm).size,
        ((repos.toList.forM fun repo =>
          request (.addSource user perm repo source)).exec now t).2.after now
            (.saveUser { (t.userRow user perm).getD { user, perm, updatedAt := now } with
              repos := t.reposOf user perm ∪ repos, updatedAt := now })) := by
  have hrepos : t.reposOf user perm =
      ((t.userRow user perm).getD { user, perm, updatedAt := now }).repos := by
    rw [Tables.reposOf]
    cases t.userRow user perm <;> rfl
  rw [mergeGranted, exec_bind, exec_userRow, hrepos, exec_bind]
  rfl

/-- The three writes of a claim, one after another. -/
theorem claimed_steps (ht : t.Keyed) (now : Timestamp) (user : UserId) (perm : Permission)
    (matched : List Alias) (repos : RepoSet) :
    Tables.Claimed now user perm matched repos t
      ((matched.forM fun holder => do
        let _ ← clearPending now holder perm).exec now
        ((repos.toList.forM fun repo => addHolder now repo perm user).exec now
          ((mergeGranted now user perm repos .grant).exec now t).2).2).2 := by
  rw [exec_mergeGranted]
  dsimp only
  -- The reasons are given first.
  have hgiven :=
    ht.exec now (repos.toList.forM fun repo => request (.addSource user perm repo .grant))
  obtain ⟨husers, hrepos, hpromises, hreasons⟩ :=
    addSource_forM ht now user perm .grant repos.toList rfl
  generalize ((repos.toList.forM fun repo =>
    request (.addSource user perm repo .grant)).exec now t).2 = given at *
  have hkey : ((t.userRow user perm).getD { user, perm, updatedAt := now }).user = user ∧
      ((t.userRow user perm).getD { user, perm, updatedAt := now }).perm = perm := by
    cases h : t.userRow user perm with
    | none => exact ⟨rfl, rfl⟩
    | some row => exact ht.userRow h
  generalize hfresh : (t.userRow user perm).getD { user, perm, updatedAt := now } = row at hkey ⊢
  obtain ⟨huser, hperm⟩ := hkey
  -- Then the user's row is saved.
  generalize hsaved : given.after now (.saveUser
    { row with repos := t.reposOf user perm ∪ repos, updatedAt := now }) = saved
  -- Then the user is added to the repositories, and what was promised is cleared.
  have hkeyed : saved.Keyed := hsaved ▸ hgiven.after now _
  have hheld := hkeyed.exec now (repos.toList.forM fun repo => addHolder now repo perm user)
  obtain ⟨hsame, hholders⟩ := addHolder_forM hkeyed now user perm repos.toList rfl
  generalize ((repos.toList.forM fun repo => addHolder now repo perm user).exec now saved).2 = held
    at *
  have hcleared := cleared_forM hheld now matched perm
  generalize ((matched.forM fun holder => do
    let _ ← clearPending now holder perm).exec now held).2 = last at *
  -- Promises are as they were until the clearing, which reads them.
  have hsaved' : Tables.SamePromises t saved := hsaved ▸ hpromises
  obtain ⟨hpending, hinvited, hoverlays⟩ := hsaved'.trans hsame.promises
  refine ⟨fun user' perm' => ?_, fun repo perm' => ?_, fun user' perm' repo => ?_,
    fun holder perm' => ?_, fun repo perm' provider => ?_,
    hcleared.access.2.2.2.trans hoverlays⟩
  · have hlast : last.userRow user' perm' = saved.userRow user' perm' := by
      rw [Tables.userRow, hcleared.access.1, hsame.users, Tables.userRow]
    have hothers : given.userRow user' perm' = t.userRow user' perm' := by
      rw [Tables.userRow, husers, Tables.userRow]
    rw [hlast, ← hsaved, Tables.userRow_saveUser, hothers, hfresh]
    simp only [huser, hperm]
  · have hlast : last.repoRow repo perm' = held.repoRow repo perm' := by
      rw [Tables.repoRow, hcleared.access.2.1, Tables.repoRow]
    have hfirst : saved.repoRow repo perm' = t.repoRow repo perm' := by
      rw [← hsaved, Tables.repoRow, Tables.repoRow, ← hrepos]
      rfl
    rw [hlast, hholders, hfirst]
    simp only [ExtTreeSet.mem_toList]
  · have hlast : last.reasons ⟨user', perm', repo⟩ = given.reasons ⟨user', perm', repo⟩ := by
      rw [Tables.reasons, hcleared.access.2.2.1, ← Tables.reasons, hsame.reasons, ← hsaved,
        Tables.reasons_saveUser]
    rw [hlast, hreasons]
    simp only [ExtTreeSet.mem_toList]
  · rw [hcleared.pendingRow, Tables.pendingRow, hpending]
    simp only [decide_eq_true_eq]
    rfl
  · have hpromised : ∀ holder, held.promisedTo holder perm' = t.promisedTo holder perm' := by
      intro holder
      rw [Tables.promisedTo, Tables.pendingRow, hpending]
      rfl
    have hlisted : held.invitedRow repo perm' provider = t.invitedRow repo perm' provider := by
      rw [Tables.invitedRow, hinvited, Tables.invitedRow]
    rw [hcleared.invitedRow, hlisted]
    simp only [hpromised]

variable {asked : GrantRequest} {candidates : List Alias}

/-- Where nothing is promised, the program of a claim writes nothing. -/
theorem exec_claim_of_nothing (now : Timestamp) (mode : BindingMode)
    (h : t.claimants asked.perm candidates = []) :
    (claim now asked mode candidates).exec now t =
      (.rollBack { mode, candidates := candidates.length }, t) := by
  rw [claim, exec_bind, exec_foldlM_matchPending, List.nil_append, h]
  rfl

/-- The program of a claim writes exactly this, and answers so. -/
theorem exec_claim (ht : t.Keyed) (now : Timestamp) (mode : BindingMode)
    (h : t.claimants asked.perm candidates ≠ []) :
    ∃ t', (claim now asked mode candidates).exec now t =
        (.commit
          { mode, candidates := candidates.length,
            matched := (t.claimants asked.perm candidates).length,
            granted := (t.claimable asked.perm candidates).size,
            added := (t.reposOf asked.user asked.perm ∪ t.claimable asked.perm candidates).size -
              (t.reposOf asked.user asked.perm).size }, t') ∧
      Tables.Claimed now asked.user asked.perm (t.claimants asked.perm candidates)
        (t.claimable asked.perm candidates) t t' := by
  have hsome : (t.claimants asked.perm candidates).isEmpty = false := by
    rwa [List.isEmpty_eq_false_iff]
  refine ⟨_, ?_, claimed_steps ht now asked.user asked.perm (t.claimants asked.perm candidates)
    (t.claimable asked.perm candidates)⟩
  rw [claim, exec_bind, exec_foldlM_matchPending, List.nil_append, ← Tables.claimable]
  simp only [hsome, Bool.false_eq_true, if_false, exec_bind, exec_pure]
  rw [exec_mergeGranted]

/-- Deleting a user's rows does to the tables exactly this. -/
theorem userDeleted_deleteUser (now : Timestamp) (user : UserId) :
    Tables.UserDeleted user t ((deleteUser user).exec now t).2 := by
  refine ⟨fun user' perm => ?_, fun user' perm repo => ?_, rfl, .refl t⟩
  · show (t.users.filter fun key _ => key.user != user)[(⟨user', perm⟩ : UserKey)]? = _
    rw [getElem?_filter_key, Tables.userRow]
    by_cases huser : user' = user
    · simp [huser]
    · simp [huser]
  · show (t.sources.filter fun key _ => key.user != user).getD ⟨user', perm, repo⟩ ∅ = _
    rw [ExtTreeMap.getD_eq_getD_getElem?, getElem?_filter_key, Tables.reasons,
      ExtTreeMap.getD_eq_getD_getElem?]
    by_cases huser : user' = user
    · simp [huser]
    · simp [huser]

theorem exec_forget (now : Timestamp) (asked : RevokeRequest) :
    ((forget now asked).exec now t).2 =
      let deleted := ((deleteUser asked.user).exec now t).2
      let left := deleted.after now (.removeFromRepos asked.user)
      ((clearAliases now asked.aliases).exec now left).2.after now
        (.deleteOverlays asked.user) := by
  simp only [forget, exec_bind, exec_pure]
  rfl

/-- Forgetting a user does to the tables exactly this. -/
theorem forgotten_forget (ht : t.Keyed) (now : Timestamp) (asked : RevokeRequest) :
    Tables.Forgotten now asked.user asked.aliases t ((forget now asked).exec now t).2 := by
  rw [exec_forget]
  dsimp only
  -- The user's rows go first, then the user's places in rows of repositories.
  have hdeleted := userDeleted_deleteUser (t := t) now asked.user
  have hkeyed := ht.exec now (deleteUser asked.user)
  generalize ((deleteUser asked.user).exec now t).2 = deleted at *
  have hkeyed' := hkeyed.after now (.removeFromRepos asked.user)
  generalize hleft : deleted.after now (.removeFromRepos asked.user) = left at *
  -- Promises are cleared next. They are still as they were, so the clearing is one of the tables
  -- before.
  have hcleared := cleared_clearAliases hkeyed' now asked.aliases
  generalize ((clearAliases now asked.aliases).exec now left).2 = cleared at *
  obtain ⟨husers, hrepos, hsources, hoverlays⟩ := hcleared.access
  have hsame : (∀ holder perm, left.pendingRow holder perm = t.pendingRow holder perm) ∧
      (∀ repo perm provider, left.invitedRow repo perm provider = t.invitedRow repo perm provider) ∧
      left.overlays = t.overlays := by
    obtain ⟨hpending, hinvited, hoverlays'⟩ := hdeleted.promises
    rw [← hleft]
    refine ⟨fun holder perm => ?_, fun repo perm provider => ?_, hoverlays'⟩
    · rw [Tables.pendingRow, Tables.pendingRow, ← hpending]
      rfl
    · rw [Tables.invitedRow, Tables.invitedRow, ← hinvited]
      rfl
  refine ⟨fun user' perm => ?_, fun repo perm => ?_, fun user' perm repo => ?_,
    fun holder perm => ?_, fun repo perm provider => ?_, ?_⟩
  · rw [← hdeleted.userRow]
    show cleared.users[_]? = _
    rw [husers, ← hleft]
    rfl
  · show cleared.repos[_]? = _
    rw [hrepos, ← hleft]
    show (deleted.repos.map fun _ row => Tables.withoutHolder now asked.user row)[_]? = _
    rw [ExtTreeMap.getElem?_map, hdeleted.repos, Tables.repoRow]
  · rw [← hdeleted.reasons]
    show cleared.sources.getD _ ∅ = _
    rw [hsources, ← hleft]
    rfl
  · show cleared.pendingRow holder perm = _
    rw [hcleared.pendingRow, hsame.1]
    simp only [decide_eq_true_eq]
  · show cleared.invitedRow repo perm provider = _
    have hpromised : ∀ holder, left.promisedTo holder perm = t.promisedTo holder perm := by
      intro holder
      rw [Tables.promisedTo, hsame.1, Tables.promisedTo]
    rw [hcleared.invitedRow, hsame.2.1]
    simp only [hpromised]
  · show cleared.overlays.filter _ = _
    rw [hoverlays, hsame.2.2]

end Tx

end RepoAccess
