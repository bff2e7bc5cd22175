/-
What a history says of one moment.

* `since` — the deeds after the last one that cuts the history off, and `exists_of_mem_since` —
  each of them has only such deeds after it;
* `latest` — the word of the latest deed that has one;
* `Deed.forgets`, `Deed.takes` — which deeds cut off a user's history, and that of an alias;
* `Deed.listing`, `Deed.bringing`, `Deed.inviting` — what a deed writes into one slot.

Deeds stand with the latest one first.
-/
import RepoAccess.Proofs.Course.Event

namespace RepoAccess

variable {α : Type}

/-- The deeds after the last one that cuts. -/
def since (cuts : Deed → Bool) (deeds : List Deed) : List Deed :=
  deeds.takeWhile fun d => !cuts d

/-- The word of the latest deed that has one. -/
def latest (word : Deed → Option α) (deeds : List Deed) : Option α := deeds.findSome? word

theorem since_cons (cuts : Deed → Bool) (d : Deed) (deeds : List Deed) :
    since cuts (d :: deeds) = if cuts d = true then [] else d :: since cuts deeds := by
  rw [since, since, List.takeWhile_cons]
  cases cuts d <;> rfl

/-- A deed after the last one that cuts has only such deeds after it. -/
theorem exists_of_mem_since {cuts : Deed → Bool} {d : Deed} {deeds : List Deed}
    (h : d ∈ since cuts deeds) :
    ∃ later earlier, deeds = later ++ d :: earlier ∧ ∀ d' ∈ later, cuts d' = false := by
  induction deeds with
  | nil => cases h
  | cons d' deeds ih =>
    rw [since_cons] at h
    split at h
    · cases h
    · next hcuts =>
      rcases List.mem_cons.1 h with rfl | hmem
      · exact ⟨[], deeds, rfl, nofun⟩
      · obtain ⟨later, earlier, rfl, hlater⟩ := ih hmem
        refine ⟨d' :: later, earlier, rfl, fun d'' hd => ?_⟩
        rcases List.mem_cons.1 hd with rfl | hd
        · exact Bool.eq_false_iff.2 hcuts
        · exact hlater d'' hd

theorem latest_cons (word : Deed → Option α) (d : Deed) (deeds : List Deed) :
    latest word (d :: deeds) = (word d).or (latest word deeds) := by
  rw [latest, latest, List.findSome?_cons]
  cases word d <;> rfl

namespace Deed

/-! ### A user -/

/-- The deed deletes the user's rows or revokes the user's permissions. -/
def forgets (user : UserId) : Deed → Bool
  | .wrote (.deleteUser user') => user' = user
  | .revoked user' _ => user' = user
  | _ => false

/-- The users whom the deed writes into a repository's own list. -/
def listing (repo : RepoId) (perm : Permission) : Deed → Option UserSet
  | .wrote (.replaceHolders repo' perm' users) =>
    if repo' = repo ∧ perm' = perm then some users else none
  | _ => none

/-- The repositories that the deed lets a user's account bring. -/
def bringing (user : UserId) (account : AccountId) : Deed → Option RepoSet
  | .wrote (.replaceAccount user' account' repos) =>
    if user' = user ∧ account' = account then some repos else none
  | _ => none

/-- The deed is a claim of the user to the repository. -/
def grants (user : UserId) (perm : Permission) (repo : RepoId) : Deed → Bool
  | .granted user' perm' _ repos => user' = user ∧ perm' = perm ∧ repo ∈ repos
  | _ => false

theorem grants_eq_true {d : Deed} {user : UserId} {perm : Permission} {repo : RepoId}
    (h : d.grants user perm repo = true) :
    ∃ candidates repos, d = .granted user perm candidates repos ∧ repo ∈ repos := by
  unfold grants at h
  split at h
  · next user' perm' candidates repos =>
    obtain ⟨rfl, rfl, hrepo⟩ := of_decide_eq_true h
    exact ⟨candidates, repos, rfl, hrepo⟩
  · cases h

/-! ### An alias -/

/-- The deed takes what is promised to the alias: a user with this alias claims it, or the alias is
cleared. -/
def takes (holder : Alias) (perm : Permission) : Deed → Bool
  | .wrote (.clearAliases holders) => holder ∈ holders
  | .granted _ perm' candidates _ => perm' = perm ∧ holder ∈ candidates
  | .revoked _ holders => holder ∈ holders
  | _ => false

/-- The names that the deed writes into a repository's list of aliases of one provider. -/
def inviting (repo : RepoId) (perm : Permission) (provider : Provider) :
    Deed → Option (List String)
  | .wrote (.replaceInvited group repo' perm') =>
    if repo' = repo ∧ perm' = perm ∧ group.provider = provider then some group.bindIds else none
  | _ => none

theorem inviting_eq_some {d : Deed} {repo : RepoId} {perm : Permission} {provider : Provider}
    {names : List String} (h : d.inviting repo perm provider = some names) :
    ∃ group, d = .wrote (.replaceInvited group repo perm) ∧ group.provider = provider ∧
      group.bindIds = names := by
  unfold inviting at h
  split at h
  · next group repo' perm' =>
    rw [Option.ite_none_right_eq_some] at h
    obtain ⟨⟨rfl, rfl, hprovider⟩, hnames⟩ := h
    exact ⟨group, rfl, hprovider, Option.some.inj hnames⟩
  · cases h

end Deed

end RepoAccess
