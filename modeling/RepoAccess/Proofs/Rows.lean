/-
Rows and the sets in them.

The tables are looked at through their rows and, where a missing row counts as an empty one, through
the sets: `Tables.reposOf` and `Tables.usersOf` are effective access from both sides,
`Tables.promisedTo` and `Tables.invitedBy` are promises from both sides, and `Tables.reasons` are
the sources of an access.

* `places_cases` — the order of two places in a list;
* `Tables.after` — the tables after one request;
* `Tables.Keyed` — every row is stored under its own key, `Tables.Keyed.exec` — and stays so;
* `Tables.Solid` — no stored set of reasons is empty, `Tables.Solid.exec` — and stays so;
* `Tables.eq_of_rows` — then tables with the same rows and reasons are the same tables;
* `Tx.foldlM_keeps`, `Tx.forM_keeps` — what holds of the turns of a loop that are done, and goes
  over from one turn to the next, holds of the loop;
* `Tables.mem_userSources_iff`, `Tables.mem_repoSources_iff` — what the two ways of listing the
  sources say of one of them, and `Tables.getElem?_userOverlays` — what the list of a user's
  overlays says of a repository.
-/
import RepoAccess.Proofs.Execution

namespace RepoAccess

open Std

/-! ### Lists -/

/-- Of two places in a list one is the first, if they are not the same. -/
theorem places_cases {ι : Type} {a a' b b' : List ι} {x y : ι} (h : a ++ x :: a' = b ++ y :: b') :
    (a = b ∧ x = y ∧ a' = b') ∨ (∃ m, b = a ++ x :: m ∧ a' = m ++ y :: b') ∨
      ∃ m, a = b ++ y :: m ∧ b' = m ++ x :: a' := by
  obtain ⟨m, rfl, hm⟩ | ⟨m, rfl, hm⟩ := List.append_eq_append_iff.1 h
  · cases m with
    | nil =>
      obtain ⟨rfl, rfl⟩ := List.cons.inj hm
      exact .inl ⟨(List.append_nil a).symm, rfl, rfl⟩
    | cons z m =>
      obtain ⟨rfl, rfl⟩ := List.cons.inj hm
      exact .inr (.inl ⟨m, rfl, rfl⟩)
  · cases m with
    | nil =>
      obtain ⟨rfl, rfl⟩ := List.cons.inj hm
      exact .inl ⟨List.append_nil b, rfl, rfl⟩
    | cons z m =>
      obtain ⟨rfl, rfl⟩ := List.cons.inj hm
      exact .inr (.inr ⟨m, rfl, rfl⟩)

/-! ### Sorted sets -/

section Sets

variable {κ ρ : Type} [Ord κ] [TransOrd κ] {set : ExtTreeSet κ} {a b : κ}

/-- The entries of a table are those that are kept and those that are not. -/
theorem size_filter_add_size_filter_not (table : ExtTreeMap κ ρ) (keep : κ → ρ → Bool) :
    (table.filter keep).size + (table.filter fun key row => !keep key row).size = table.size := by
  simp only [← ExtTreeMap.length_toList, ExtTreeMap.toList_filter, ← List.countP_eq_length_filter]
  rw [List.length_eq_countP_add_countP fun entry : κ × ρ => keep entry.1 entry.2]
  simp only [Bool.not_eq_true, Bool.decide_eq_false]

/-- A key that is there takes one entry with it. -/
theorem size_erase_of_mem {table : ExtTreeMap κ ρ} (h : a ∈ table) :
    1 + (table.erase a).size = table.size := by
  have hsome : table.size ≠ 0 := fun hzero =>
    ExtTreeMap.ne_empty_of_mem h (ExtTreeMap.eq_empty_iff_size_eq_zero.2 hzero)
  rw [ExtTreeMap.size_erase, if_pos (ExtTreeMap.contains_iff_mem.2 h)]
  omega

@[simp] theorem contains_eq_false_iff : set.contains a = false ↔ a ∉ set := by
  rw [← Bool.not_eq_true, ExtTreeSet.contains_iff_mem]

variable [LawfulEqOrd κ]

theorem mem_insert_iff : b ∈ set.insert a ↔ b = a ∨ b ∈ set := by
  simp only [ExtTreeSet.mem_insert, LawfulEqOrd.compare_eq_iff_eq, @eq_comm _ a]

theorem mem_erase_iff : b ∈ set.erase a ↔ b ≠ a ∧ b ∈ set := by
  simp only [ExtTreeSet.mem_erase, ne_eq, LawfulEqOrd.compare_eq_iff_eq, @eq_comm _ a]

theorem insert_insert_self (set : ExtTreeSet κ) (a : κ) :
    (set.insert a).insert a = set.insert a := by
  ext b
  simp

theorem erase_erase_self (set : ExtTreeSet κ) (a : κ) : (set.erase a).erase a = set.erase a := by
  ext b
  simp

theorem erase_of_not_mem (h : a ∉ set) : set.erase a = set := by
  ext b
  rw [mem_erase_iff]
  constructor
  · exact And.right
  · intro hmem
    refine ⟨?_, hmem⟩
    rintro rfl
    exact h hmem

/-- A member that is put in or taken out says nothing of the others. -/
theorem mem_insert_or_erase_iff {p : Prop} [Decidable p] [Decidable (b = a)] :
    b ∈ (if p then set.insert a else set.erase a) ↔ if b = a then p else b ∈ set := by
  by_cases hp : p
  · rw [if_pos hp, mem_insert_iff]
    by_cases hsame : b = a
    · simp [hsame, hp]
    · simp [hsame]
  · rw [if_neg hp, mem_erase_iff]
    by_cases hsame : b = a
    · simp [hsame, hp]
    · simp [hsame]

theorem mem_filter_iff {keep : κ → Bool} : a ∈ set.filter keep ↔ a ∈ set ∧ keep a = true := by
  rw [ExtTreeSet.mem_filter]
  constructor
  · rintro ⟨h, hkeep⟩
    rw [ExtTreeSet.get_eq] at hkeep
    exact ⟨h, hkeep⟩
  · rintro ⟨h, hkeep⟩
    refine ⟨h, ?_⟩
    rwa [ExtTreeSet.get_eq]

/-- The entries whose keys are kept. -/
theorem getElem?_filter_key {table : ExtTreeMap κ ρ} {keep : κ → Bool} :
    (table.filter fun key _ => keep key)[a]? = if keep a = true then table[a]? else none := by
  rw [ExtTreeMap.getElem?_filter']
  cases table[a]? <;> cases hkeep : keep a <;> simp

/-- A set grows by the members that are new. -/
theorem size_union_sub_size (old new : ExtTreeSet κ) :
    (old ∪ new).size - old.size = (new \ old).size := by
  have hunion : old.size + new.size = (old ∪ new).size + (old ∩ new).size :=
    ExtTreeSet.size_add_size_eq_size_union_add_size_inter
  have hdiff : (new \ old).size + (new ∩ old).size = new.size :=
    ExtTreeSet.size_diff_add_size_inter_eq_size_left
  have hcomm : old ∩ new = new ∩ old := by
    ext a
    simp only [ExtTreeSet.mem_inter_iff]
    exact And.comm
  rw [hcomm] at hunion
  omega

end Sets

namespace Tables

variable {t : Tables} {now : Timestamp}

/-- The tables after a request. -/
def after (t : Tables) (now : Timestamp) (p : Primitive) : Tables := (Tables.perform now p t).2

/-! ### Rows -/

/-- A user's row, if there is one. -/
def userRow (t : Tables) (user : UserId) (perm : Permission) : Option UserHoldings :=
  t.users[(⟨user, perm⟩ : UserKey)]?

/-- A repository's row, if there is one. -/
def repoRow (t : Tables) (repo : RepoId) (perm : Permission) : Option RepoHolders :=
  t.repos[(⟨repo, perm⟩ : RepoKey)]?

/-- An alias's row, if there is one. -/
def pendingRow (t : Tables) (holder : Alias) (perm : Permission) : Option PendingHoldings :=
  t.pending[(⟨holder, perm⟩ : PendingKey)]?

/-- A repository's row of aliases of one provider, if there is one. -/
def invitedRow (t : Tables) (repo : RepoId) (perm : Permission) (provider : Provider) :
    Option PendingHolders :=
  t.invited[(⟨repo, perm, provider⟩ : InvitedKey)]?

/-! ### Sets -/

/-- The repositories in a user's row. -/
def reposOf (t : Tables) (user : UserId) (perm : Permission) : RepoSet :=
  ((t.userRow user perm).map (·.repos)).getD ∅

/-- The users in a repository's row. -/
def usersOf (t : Tables) (repo : RepoId) (perm : Permission) : UserSet :=
  ((t.repoRow repo perm).map (·.users)).getD ∅

/-- The repositories in an alias's row. -/
def promisedTo (t : Tables) (holder : Alias) (perm : Permission) : RepoSet :=
  ((t.pendingRow holder perm).map (·.repos)).getD ∅

/-- The names in a repository's row of aliases of one provider. -/
def invitedBy (t : Tables) (repo : RepoId) (perm : Permission) (provider : Provider) : NameSet :=
  ((t.invitedRow repo perm provider).map (·.bindIds)).getD ∅

theorem mem_reposOf_iff {user : UserId} {perm : Permission} {repo : RepoId} :
    repo ∈ t.reposOf user perm ↔ ∃ row, t.userRow user perm = some row ∧ repo ∈ row.repos := by
  rw [reposOf]
  cases t.userRow user perm <;> simp

theorem mem_usersOf_iff {repo : RepoId} {perm : Permission} {user : UserId} :
    user ∈ t.usersOf repo perm ↔ ∃ row, t.repoRow repo perm = some row ∧ user ∈ row.users := by
  rw [usersOf]
  cases t.repoRow repo perm <;> simp

theorem mem_promisedTo_iff {holder : Alias} {perm : Permission} {repo : RepoId} :
    repo ∈ t.promisedTo holder perm ↔
      ∃ row, t.pendingRow holder perm = some row ∧ repo ∈ row.repos := by
  rw [promisedTo]
  cases t.pendingRow holder perm <;> simp

theorem mem_invitedBy_iff {repo : RepoId} {perm : Permission} {provider : Provider}
    {bindId : String} :
    bindId ∈ t.invitedBy repo perm provider ↔
      ∃ row, t.invitedRow repo perm provider = some row ∧ bindId ∈ row.bindIds := by
  rw [invitedBy]
  cases t.invitedRow repo perm provider <;> simp

/-- Nothing but perhaps that source gives the user the repository. -/
def NoOther (t : Tables) (key : SourceKey) (source : Source) : Prop :=
  (t.reasons key).erase source = ∅

instance (t : Tables) (key : SourceKey) (source : Source) : Decidable (t.NoOther key source) :=
  inferInstanceAs (Decidable (_ = _))

theorem noOther_iff {key : SourceKey} {source : Source} :
    t.NoOther key source ↔ ∀ other ∈ t.reasons key, other = source := by
  rw [NoOther, ExtTreeSet.eq_empty_iff_forall_not_mem]
  simp only [mem_erase_iff]
  constructor
  · intro hno other hmem
    by_cases hother : other = source
    · exact hother
    · exact absurd ⟨hother, hmem⟩ (hno other)
  · rintro hno other ⟨hother, hmem⟩
    exact hother (hno other hmem)

/-- There is a reason if there is this one or another one. -/
theorem reasons_ne_empty_iff {key : SourceKey} (source : Source) :
    t.reasons key ≠ ∅ ↔ source ∈ t.reasons key ∨ ¬ t.NoOther key source := by
  rw [noOther_iff, ne_eq, ExtTreeSet.eq_empty_iff_forall_not_mem]
  constructor
  · intro hsome
    by_cases hsource : source ∈ t.reasons key
    · exact .inl hsource
    · refine .inr fun hno => hsome fun other hother => hsource ?_
      rwa [← hno other hother]
  · rintro (hsource | hother) hnone
    · exact hnone source hsource
    · exact hother fun other hmem => absurd hmem (hnone other)

/-- Whether there is another reason does not depend on the source itself. -/
theorem noOther_congr {t' : Tables} {key : SourceKey} {source : Source}
    (h : ∀ other, other ≠ source → (other ∈ t'.reasons key ↔ other ∈ t.reasons key)) :
    t'.NoOther key source ↔ t.NoOther key source := by
  rw [noOther_iff, noOther_iff]
  constructor
  · intro hno other hother
    by_cases hsource : other = source
    · exact hsource
    · exact hno other ((h other hsource).2 hother)
  · intro hno other hother
    by_cases hsource : other = source
    · exact hsource
    · exact hno other ((h other hsource).1 hother)

/-! ### Every row is stored under its own key -/

/-- Every value of the table is stored under the key that it names. -/
def KeyedBy {κ ρ : Type} [Ord κ] [TransOrd κ] (name : ρ → κ) (table : ExtTreeMap κ ρ) : Prop :=
  ∀ key row, table[key]? = some row → name row = key

section KeyedBy

variable {κ ρ : Type} [Ord κ] [TransOrd κ] {name : ρ → κ} {table : ExtTreeMap κ ρ}

theorem KeyedBy.insert [LawfulEqOrd κ] (h : KeyedBy name table) (row : ρ) :
    KeyedBy name (table.insert (name row) row) := by
  intro key row' hrow
  rw [ExtTreeMap.getElem?_insert] at hrow
  split at hrow
  · next heq =>
    cases hrow
    exact LawfulEqOrd.eq_of_compare heq
  · exact h key row' hrow

theorem KeyedBy.erase (h : KeyedBy name table) (key : κ) : KeyedBy name (table.erase key) := by
  intro key' row hrow
  rw [ExtTreeMap.getElem?_erase] at hrow
  split at hrow
  · cases hrow
  · exact h key' row hrow

theorem KeyedBy.filter [LawfulEqOrd κ] (h : KeyedBy name table) (keep : κ → ρ → Bool) :
    KeyedBy name (table.filter keep) := by
  intro key row hrow
  rw [ExtTreeMap.getElem?_filter'] at hrow
  exact h key row (Option.filter_eq_some_iff.1 hrow).1

theorem KeyedBy.map [LawfulEqOrd κ] (h : KeyedBy name table) {f : κ → ρ → ρ}
    (hf : ∀ key row, name (f key row) = name row) : KeyedBy name (table.map f) := by
  intro key row hrow
  rw [ExtTreeMap.getElem?_map] at hrow
  obtain ⟨before, hbefore, rfl⟩ := Option.map_eq_some_iff.1 hrow
  rw [hf]
  exact h key before hbefore

end KeyedBy

/-- Every row is stored under its own key. -/
structure Keyed (t : Tables) : Prop where
  users : KeyedBy UserHoldings.key t.users
  repos : KeyedBy RepoHolders.key t.repos
  pending : KeyedBy PendingHoldings.key t.pending
  invited : KeyedBy PendingHolders.key t.invited

theorem keyed_empty : Keyed {} := by
  constructor <;> intro key row h <;> simp at h

theorem Keyed.userRow (ht : t.Keyed) {user : UserId} {perm : Permission} {row : UserHoldings}
    (h : t.userRow user perm = some row) : row.user = user ∧ row.perm = perm := by
  simpa [UserHoldings.key] using ht.users _ _ h

theorem Keyed.repoRow (ht : t.Keyed) {repo : RepoId} {perm : Permission} {row : RepoHolders}
    (h : t.repoRow repo perm = some row) : row.repo = repo ∧ row.perm = perm := by
  simpa [RepoHolders.key] using ht.repos _ _ h

theorem Keyed.pendingRow (ht : t.Keyed) {holder : Alias} {perm : Permission}
    {row : PendingHoldings} (h : t.pendingRow holder perm = some row) :
    row.holder = holder ∧ row.perm = perm := by
  simpa [PendingHoldings.key] using ht.pending _ _ h

theorem Keyed.invitedRow (ht : t.Keyed) {repo : RepoId} {perm : Permission} {provider : Provider}
    {row : PendingHolders} (h : t.invitedRow repo perm provider = some row) :
    row.repo = repo ∧ row.perm = perm ∧ row.provider = provider := by
  simpa [PendingHolders.key] using ht.invited _ _ h

theorem key_withoutHolder (now : Timestamp) (user : UserId) (row : RepoHolders) :
    (withoutHolder now user row).key = row.key := by
  unfold withoutHolder
  split <;> rfl

theorem Keyed.after (ht : t.Keyed) (now : Timestamp) (p : Primitive) : (t.after now p).Keyed := by
  cases p with
  | saveUser row => exact { ht with users := ht.users.insert row }
  | saveRepo row => exact { ht with repos := ht.repos.insert row }
  | savePending row => exact { ht with pending := ht.pending.insert row }
  | saveInvited row => exact { ht with invited := ht.invited.insert row }
  | deleteUserRows user => exact { ht with users := ht.users.filter _ }
  | deletePending holder perm => exact { ht with pending := ht.pending.erase _ }
  | removeFromRepos user =>
    exact { ht with repos := ht.repos.map fun _ row => key_withoutHolder now user row }
  | _ => exact ⟨ht.users, ht.repos, ht.pending, ht.invited⟩

/-- Whatever a program does, every row stays under its own key. -/
theorem Keyed.exec {α : Type} (ht : t.Keyed) (now : Timestamp) (x : Tx α) :
    (x.exec now t).2.Keyed :=
  x.exec_induction (fun p _ h => h.after now p) ht

end Tables

/-! ### Loops -/

section Loops

variable {ι σ : Type} {now : Timestamp} {t : Tables}

/-- What holds of the turns done so far, from one turn to the next, holds of the loop. -/
theorem Tx.foldlM_keeps {P : List ι → σ → Tables → Prop} {turn : σ → ι → Tx σ}
    (next : ∀ done s t i, t.Keyed → P done s t →
      P (done ++ [i]) ((turn s i).exec now t).1 ((turn s i).exec now t).2)
    (xs : List ι) {s : σ} (ht : t.Keyed) (start : P [] s t) :
    P xs ((xs.foldlM turn s).exec now t).1 ((xs.foldlM turn s).exec now t).2 := by
  -- The induction is on the turns still to come, for any turns done.
  suffices h : ∀ rest done s t, t.Keyed → P done s t →
      P (done ++ rest) ((rest.foldlM turn s).exec now t).1 ((rest.foldlM turn s).exec now t).2 from
    h xs [] s t ht start
  intro rest
  induction rest with
  | nil =>
    intro done s t _ hdone
    rw [List.append_nil]
    exact hdone
  | cons i rest ih =>
    intro done s t ht hdone
    rw [List.foldlM_cons, exec_bind, List.append_cons]
    exact ih _ _ _ (ht.exec now (turn s i)) (next done s t i ht hdone)

theorem Tx.forM_keeps {P : List ι → Tables → Prop} {turn : ι → Tx Unit}
    (next : ∀ done t i, t.Keyed → P done t → P (done ++ [i]) ((turn i).exec now t).2)
    (xs : List ι) (ht : t.Keyed) (start : P [] t) : P xs ((xs.forM turn).exec now t).2 := by
  suffices h : ∀ rest done t, t.Keyed → P done t →
      P (done ++ rest) ((rest.forM turn).exec now t).2 from
    h xs [] t ht start
  intro rest
  induction rest with
  | nil =>
    intro done t _ hdone
    rw [List.append_nil]
    exact hdone
  | cons i rest ih =>
    intro done t ht hdone
    show P _ ((turn i >>= fun _ => rest.forM turn).exec now t).2
    rw [exec_bind, List.append_cons]
    exact ih _ _ (ht.exec now (turn i)) (next done t i ht hdone)

end Loops

namespace Tables

variable {t : Tables} {now : Timestamp}

/-! ### No stored set of reasons is empty -/

/-- No stored set of reasons is empty. -/
def Solid (t : Tables) : Prop :=
  ∀ (key : SourceKey) (reasons : SourceSet), t.sources[key]? = some reasons → reasons ≠ ∅

theorem solid_empty : Solid {} := by
  intro key reasons h
  simp at h

theorem Solid.after (ht : t.Solid) (now : Timestamp) (p : Primitive) : (t.after now p).Solid := by
  intro key reasons h
  cases p with
  | addSource user perm repo source =>
    simp only [Tables.after, perform, ExtTreeMap.getElem?_insert] at h
    split at h
    · cases h
      exact ExtTreeSet.insert_ne_empty
    · exact ht key reasons h
  | removeSource user perm repo source =>
    simp only [Tables.after, perform, removeReason] at h
    split at h
    · rw [ExtTreeMap.getElem?_erase] at h
      split at h
      · cases h
      · exact ht key reasons h
    · next hleft =>
      rw [ExtTreeMap.getElem?_insert] at h
      split at h
      · cases h
        exact fun hempty => hleft (ExtTreeSet.isEmpty_iff.2 hempty)
      · exact ht key reasons h
  | deleteSources user =>
    simp only [Tables.after, perform, ExtTreeMap.getElem?_filter'] at h
    exact ht key reasons (Option.filter_eq_some_iff.1 h).1
  | _ => exact ht key reasons h

/-- Whatever a program does, no stored set of reasons becomes empty. -/
theorem Solid.exec {α : Type} (ht : t.Solid) (now : Timestamp) (x : Tx α) :
    (x.exec now t).2.Solid :=
  x.exec_induction (P := Solid) (fun p _ h => Solid.after h now p) ht

/-- Where no stored set is empty, an entry is a reason. -/
theorem Solid.mem_sources_iff (ht : t.Solid) {key : SourceKey} :
    key ∈ t.sources ↔ t.reasons key ≠ ∅ := by
  rw [reasons, ExtTreeMap.getD_eq_getD_getElem?, ExtTreeMap.mem_iff_isSome_getElem?]
  cases h : t.sources[key]? with
  | none => simp
  | some reasons => simpa using ht key reasons h

/-- Where no stored set is empty, an entry says no more than the reasons do. -/
theorem Solid.getElem?_sources (ht : t.Solid) (key : SourceKey) :
    t.sources[key]? = if t.reasons key = ∅ then none else some (t.reasons key) := by
  rw [reasons, ExtTreeMap.getD_eq_getD_getElem?]
  cases h : t.sources[key]? with
  | none => rfl
  | some reasons => rw [Option.getD_some, if_neg (ht key reasons h)]

/-- Tables with the same rows, the same reasons and the same overlays are the same. -/
theorem eq_of_rows {t' : Tables} (ht : t.Solid) (ht' : t'.Solid)
    (users : ∀ user perm, t'.userRow user perm = t.userRow user perm)
    (repos : ∀ repo perm, t'.repoRow repo perm = t.repoRow repo perm)
    (pending : ∀ holder perm, t'.pendingRow holder perm = t.pendingRow holder perm)
    (invited : ∀ repo perm provider,
      t'.invitedRow repo perm provider = t.invitedRow repo perm provider)
    (sources : ∀ key, t'.reasons key = t.reasons key) (overlays : t'.overlays = t.overlays) :
    t' = t := by
  have husers : t'.users = t.users := ExtTreeMap.ext_getElem? fun key => users key.user key.perm
  have hrepos : t'.repos = t.repos := ExtTreeMap.ext_getElem? fun key => repos key.repo key.perm
  have hpending : t'.pending = t.pending :=
    ExtTreeMap.ext_getElem? fun key => pending key.holder key.perm
  have hinvited : t'.invited = t.invited :=
    ExtTreeMap.ext_getElem? fun key => invited key.repo key.perm key.provider
  have hsources : t'.sources = t.sources := ExtTreeMap.ext_getElem? fun key => by
    rw [ht.getElem?_sources, ht'.getElem?_sources, sources]
  cases t
  cases t'
  simp only at husers hrepos hpending hinvited hsources overlays
  rw [husers, hrepos, hpending, hinvited, hsources, overlays]

/-! ### What requests do to rows and to reasons -/

theorem userRow_saveUser (row : UserHoldings) (user : UserId) (perm : Permission) :
    (t.after now (.saveUser row)).userRow user perm =
      if user = row.user ∧ perm = row.perm then some row else t.userRow user perm := by
  simp only [after, perform, userRow, UserHoldings.key, ExtTreeMap.getElem?_insert,
    LawfulEqOrd.compare_eq_iff_eq, UserKey.mk.injEq, @eq_comm _ row.user, @eq_comm _ row.perm]

theorem repoRow_saveRepo (row : RepoHolders) (repo : RepoId) (perm : Permission) :
    (t.after now (.saveRepo row)).repoRow repo perm =
      if repo = row.repo ∧ perm = row.perm then some row else t.repoRow repo perm := by
  simp only [after, perform, repoRow, RepoHolders.key, ExtTreeMap.getElem?_insert,
    LawfulEqOrd.compare_eq_iff_eq, RepoKey.mk.injEq, @eq_comm _ row.repo, @eq_comm _ row.perm]

theorem pendingRow_savePending (row : PendingHoldings) (holder : Alias) (perm : Permission) :
    (t.after now (.savePending row)).pendingRow holder perm =
      if holder = row.holder ∧ perm = row.perm then some row else t.pendingRow holder perm := by
  simp only [after, perform, pendingRow, PendingHoldings.key, ExtTreeMap.getElem?_insert,
    LawfulEqOrd.compare_eq_iff_eq, PendingKey.mk.injEq, @eq_comm _ row.holder,
    @eq_comm _ row.perm]

theorem pendingRow_deletePending (holder holder' : Alias) (perm perm' : Permission) :
    (t.after now (.deletePending holder perm)).pendingRow holder' perm' =
      if holder' = holder ∧ perm' = perm then none else t.pendingRow holder' perm' := by
  simp only [after, perform, pendingRow, ExtTreeMap.getElem?_erase, LawfulEqOrd.compare_eq_iff_eq,
    PendingKey.mk.injEq, @eq_comm _ holder, @eq_comm _ perm]

theorem invitedRow_saveInvited (row : PendingHolders) (repo : RepoId) (perm : Permission)
    (provider : Provider) :
    (t.after now (.saveInvited row)).invitedRow repo perm provider =
      if repo = row.repo ∧ perm = row.perm ∧ provider = row.provider then some row
      else t.invitedRow repo perm provider := by
  simp only [after, perform, invitedRow, PendingHolders.key, ExtTreeMap.getElem?_insert,
    LawfulEqOrd.compare_eq_iff_eq, InvitedKey.mk.injEq, @eq_comm _ row.repo, @eq_comm _ row.perm,
    @eq_comm _ row.provider]

@[simp] theorem userRow_addSource (user user' : UserId) (perm perm' : Permission) (repo : RepoId)
    (source : Source) :
    (t.after now (.addSource user perm repo source)).userRow user' perm' = t.userRow user' perm' :=
  rfl

@[simp] theorem userRow_removeSource (user user' : UserId) (perm perm' : Permission)
    (repo : RepoId) (source : Source) :
    (t.after now (.removeSource user perm repo source)).userRow user' perm' =
      t.userRow user' perm' :=
  rfl

@[simp] theorem repoRow_addSource (user : UserId) (perm perm' : Permission) (repo repo' : RepoId)
    (source : Source) :
    (t.after now (.addSource user perm repo source)).repoRow repo' perm' = t.repoRow repo' perm' :=
  rfl

@[simp] theorem repoRow_removeSource (user : UserId) (perm perm' : Permission)
    (repo repo' : RepoId) (source : Source) :
    (t.after now (.removeSource user perm repo source)).repoRow repo' perm' =
      t.repoRow repo' perm' :=
  rfl

@[simp] theorem reasons_saveUser (row : UserHoldings) (key : SourceKey) :
    (t.after now (.saveUser row)).reasons key = t.reasons key :=
  rfl

theorem reasons_insert {key key' : SourceKey} {set : SourceSet} :
    ({ t with sources := t.sources.insert key set } : Tables).reasons key' =
      if key' = key then set else t.reasons key' := by
  simp only [reasons, ExtTreeMap.getD_insert, LawfulEqOrd.compare_eq_iff_eq, @eq_comm _ key]

theorem reasons_addSource (user : UserId) (perm : Permission) (repo : RepoId) (source : Source)
    (key : SourceKey) :
    (t.after now (.addSource user perm repo source)).reasons key =
      if key = ⟨user, perm, repo⟩ then (t.reasons key).insert source else t.reasons key := by
  simp only [after, perform, reasons_insert]
  split
  · next h => rw [h]
  · rfl

theorem reasons_removeSource (user : UserId) (perm : Permission) (repo : RepoId) (source : Source)
    (key : SourceKey) :
    (t.after now (.removeSource user perm repo source)).reasons key =
      if key = ⟨user, perm, repo⟩ then (t.reasons key).erase source else t.reasons key := by
  simp only [after, perform, removeReason]
  split
  · next h =>
    rw [ExtTreeSet.isEmpty_iff] at h
    simp only [reasons, ExtTreeMap.getD_erase, LawfulEqOrd.compare_eq_iff_eq, @eq_comm _ key]
    split
    · next hkey =>
      rw [← hkey]
      exact h.symm
    · rfl
  · rw [reasons_insert]
    split
    · next hkey => rw [hkey]
    · rfl

/-! ### Listing the sources and the overlays -/

section Listing

variable {κ ι ρ : Type} [Ord κ] [TransOrd κ] [LawfulEqOrd κ] [Ord ι] [TransOrd ι] [LawfulEqOrd ι]
  [BEq ι] [LawfulBEq ι]

/-- The picked entries of a table, listed by a part of their keys. Where the part tells the picked
keys apart, an entry is found again under its part. -/
theorem getElem?_listed {table : ExtTreeMap κ ρ} {picks : κ → Bool} (part : κ → ι) (whole : ι → κ)
    (hpart : ∀ key, picks key = true → whole (part key) = key)
    (hwhole : ∀ i, picks (whole i) = true ∧ part (whole i) = i) (i : ι) :
    (ExtTreeMap.ofList ((table.filter fun key _ => picks key).toList.map
      fun entry => (part entry.1, entry.2)) compare)[i]? = table[whole i]? := by
  have hpicked : ∀ entry, entry ∈ (table.filter fun key _ => picks key).toList ↔
      table[entry.1]? = some entry.2 ∧ picks entry.1 = true := by
    rintro ⟨key, value⟩
    rw [ExtTreeMap.mem_toList_iff_getElem?_eq_some, ExtTreeMap.getElem?_filter',
      Option.filter_eq_some_iff]
  cases h : table[whole i]? with
  | none =>
    apply ExtTreeMap.getElem?_ofList_of_contains_eq_false
    rw [← Bool.not_eq_true, List.contains_iff_mem]
    intro hmem
    obtain ⟨_, hmapped, rfl⟩ := List.mem_map.1 hmem
    obtain ⟨entry, hentry, rfl⟩ := List.mem_map.1 hmapped
    obtain ⟨hfound, hpick⟩ := (hpicked entry).1 hentry
    rw [hpart _ hpick, hfound] at h
    cases h
  | some value =>
    refine ExtTreeMap.getElem?_ofList_of_mem (ReflCmp.compare_self (a := i)) ?_
      (List.mem_map.2 ⟨(whole i, value), (hpicked _).2 ⟨h, (hwhole i).1⟩, by rw [(hwhole i).2]⟩)
    rw [List.pairwise_map]
    refine ExtTreeMap.distinct_keys_toList.imp_of_mem fun {a b} ha hb hne heq => hne ?_
    have hparts : part a.1 = part b.1 := LawfulEqOrd.eq_of_compare heq
    rw [← hpart _ ((hpicked a).1 ha).2, hparts, hpart _ ((hpicked b).1 hb).2]
    exact ReflCmp.compare_self

end Listing

theorem getElem?_userSources (t : Tables) (user : UserId) (perm : Permission) (repo : RepoId) :
    (t.userSources user perm)[repo]? = t.sources[(⟨user, perm, repo⟩ : SourceKey)]? := by
  refine getElem?_listed SourceKey.repo (fun repo => ⟨user, perm, repo⟩) ?_ ?_ _
  · rintro ⟨user', perm', repo'⟩ h
    simp_all
  · simp

theorem getElem?_repoSources (t : Tables) (repo : RepoId) (perm : Permission) (user : UserId) :
    (t.repoSources repo perm)[user]? = t.sources[(⟨user, perm, repo⟩ : SourceKey)]? := by
  refine getElem?_listed SourceKey.user (fun user => ⟨user, perm, repo⟩) ?_ ?_ _
  · rintro ⟨user', perm', repo'⟩ h
    simp_all
  · simp

theorem getElem?_userOverlays (t : Tables) (user : UserId) (repo : RepoId) :
    (t.userOverlays user)[repo]? = t.overlays[(⟨user, repo⟩ : OverlayKey)]? := by
  refine getElem?_listed OverlayKey.repo (fun repo => ⟨user, repo⟩) ?_ ?_ _
  · rintro ⟨user', repo'⟩ h
    simp_all
  · simp

theorem mem_reasons_iff {key : SourceKey} {source : Source} :
    source ∈ t.reasons key ↔ ∃ reasons, t.sources[key]? = some reasons ∧ source ∈ reasons := by
  rw [reasons, ExtTreeMap.getD_eq_getD_getElem?]
  cases t.sources[key]? <;> simp

/-- The users to whom that source gives the repository. -/
theorem mem_repoSources_iff {repo : RepoId} {perm : Permission} {user : UserId} {source : Source} :
    (∃ reasons, (user, reasons) ∈ (t.repoSources repo perm).toList ∧ source ∈ reasons) ↔
      source ∈ t.reasons ⟨user, perm, repo⟩ := by
  simp only [ExtTreeMap.mem_toList_iff_getElem?_eq_some, getElem?_repoSources, mem_reasons_iff]

/-- The repositories that the source gives to the user. -/
theorem mem_userSources_iff {user : UserId} {perm : Permission} {repo : RepoId} {source : Source} :
    (∃ reasons, (repo, reasons) ∈ (t.userSources user perm).toList ∧ source ∈ reasons) ↔
      source ∈ t.reasons ⟨user, perm, repo⟩ := by
  simp only [ExtTreeMap.mem_toList_iff_getElem?_eq_some, getElem?_userSources, mem_reasons_iff]

theorem getD_userSources (t : Tables) (user : UserId) (perm : Permission) (repo : RepoId) :
    (t.userSources user perm).getD repo ∅ = t.reasons ⟨user, perm, repo⟩ := by
  rw [ExtTreeMap.getD_eq_getD_getElem?, getElem?_userSources, reasons,
    ExtTreeMap.getD_eq_getD_getElem?]

end Tables

end RepoAccess
