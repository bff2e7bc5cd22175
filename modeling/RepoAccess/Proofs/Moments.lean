/-
What programs do does not depend on when they run.

* `UserHoldings.timeless` and its like, `Tables.timeless` — a row, and all tables, without moments;
* `Tables.timeless_after` — a request does the same to both;
* `Tx.Agrees` — two programs, each at its moment, answer alike and leave the same tables but for
  moments, wherever they find the same tables but for moments;
* `Tx.Agrees.bind`, `Tx.same_foldlM`, `Tx.agrees_loadUser` and its like — how such programs are put
  together;
* `Tx.same_replaceHolders` and its like, `same_claim`, `same_forget` — every writer, a claim and a
  revocation at one moment agree with themselves at another one;
* `Mutation.same_plan` — so does every operation that writes.

Moments are only ever stored: no program looks at them.
-/
import RepoAccess.Proofs.Mutation

namespace RepoAccess

open Std

/-! ### Rows and tables without moments -/

/-- The moment that stands for any. -/
def Timestamp.zero : Timestamp := ⟨0, 0⟩

/-- A user's row without moments; whether there is one of the last list stays. -/
def UserHoldings.timeless (row : UserHoldings) : UserHoldings :=
  { row with updatedAt := .zero, syncedAt := row.syncedAt.map fun _ => .zero }

/-- A repository's row without moments; whether there is one of the last list stays. -/
def RepoHolders.timeless (row : RepoHolders) : RepoHolders :=
  { row with updatedAt := .zero, syncedAt := row.syncedAt.map fun _ => .zero }

/-- An alias's row without its moment. -/
def PendingHoldings.timeless (row : PendingHoldings) : PendingHoldings :=
  { row with updatedAt := .zero }

/-- A repository's row of aliases without its moment. -/
def PendingHolders.timeless (row : PendingHolders) : PendingHolders :=
  { row with updatedAt := .zero }

theorem map_zero_eq_iff {s s' : Option Timestamp} :
    (s'.map fun _ => Timestamp.zero) = (s.map fun _ => Timestamp.zero) ↔ s'.isSome = s.isSome := by
  cases s <;> cases s' <;> simp

theorem UserHoldings.timeless_eq_iff {row row' : UserHoldings} :
    row'.timeless = row.timeless ↔
      ∃ u s, s.isSome = row.syncedAt.isSome ∧
        row' = { row with updatedAt := u, syncedAt := s } := by
  constructor
  · intro h
    refine ⟨row'.updatedAt, row'.syncedAt, map_zero_eq_iff.1 (congrArg syncedAt h), ?_⟩
    cases row
    cases row'
    simp_all [timeless]
  · rintro ⟨u, s, hs, rfl⟩
    simp only [timeless, map_zero_eq_iff.2 hs]

theorem RepoHolders.timeless_eq_iff {row row' : RepoHolders} :
    row'.timeless = row.timeless ↔
      ∃ u s, s.isSome = row.syncedAt.isSome ∧
        row' = { row with updatedAt := u, syncedAt := s } := by
  constructor
  · intro h
    refine ⟨row'.updatedAt, row'.syncedAt, map_zero_eq_iff.1 (congrArg syncedAt h), ?_⟩
    cases row
    cases row'
    simp_all [timeless]
  · rintro ⟨u, s, hs, rfl⟩
    simp only [timeless, map_zero_eq_iff.2 hs]

theorem PendingHoldings.timeless_eq_iff {row row' : PendingHoldings} :
    row'.timeless = row.timeless ↔ ∃ u, row' = { row with updatedAt := u } := by
  constructor
  · intro h
    refine ⟨row'.updatedAt, ?_⟩
    cases row
    cases row'
    simp_all [timeless]
  · rintro ⟨u, rfl⟩
    rfl

theorem PendingHolders.timeless_eq_iff {row row' : PendingHolders} :
    row'.timeless = row.timeless ↔ ∃ u, row' = { row with updatedAt := u } := by
  constructor
  · intro h
    refine ⟨row'.updatedAt, ?_⟩
    cases row
    cases row'
    simp_all [timeless]
  · rintro ⟨u, rfl⟩
    rfl

/-- The tables without moments. -/
def Tables.timeless (t : Tables) : Tables :=
  { t with
    users := t.users.map fun _ => UserHoldings.timeless
    repos := t.repos.map fun _ => RepoHolders.timeless
    pending := t.pending.map fun _ => PendingHoldings.timeless
    invited := t.invited.map fun _ => PendingHolders.timeless }

/-- A request without the moments in its row. -/
def Primitive.timeless : Primitive → Primitive
  | .saveUser row => .saveUser row.timeless
  | .saveRepo row => .saveRepo row.timeless
  | .savePending row => .savePending row.timeless
  | .saveInvited row => .saveInvited row.timeless
  | p => p

/-! ### Sorted maps, row by row -/

section Maps

variable {κ ρ : Type} [Ord κ] [TransOrd κ] [LawfulEqOrd κ] {table : ExtTreeMap κ ρ}

theorem map_insert (f : ρ → ρ) (key : κ) (row : ρ) :
    (table.insert key row).map (fun _ => f) = (table.map fun _ => f).insert key (f row) := by
  refine ExtTreeMap.ext_getElem? fun a => ?_
  simp only [ExtTreeMap.getElem?_map, ExtTreeMap.getElem?_insert]
  split <;> rfl

theorem map_erase (f : ρ → ρ) (key : κ) :
    (table.erase key).map (fun _ => f) = (table.map fun _ => f).erase key := by
  refine ExtTreeMap.ext_getElem? fun a => ?_
  simp only [ExtTreeMap.getElem?_map, ExtTreeMap.getElem?_erase]
  split <;> rfl

theorem map_filter_key (f : ρ → ρ) (keep : κ → Bool) :
    (table.filter fun key _ => keep key).map (fun _ => f) =
      (table.map fun _ => f).filter fun key _ => keep key := by
  refine ExtTreeMap.ext_getElem? fun a => ?_
  simp only [ExtTreeMap.getElem?_map, getElem?_filter_key]
  split <;> rfl

/-- As many rows are picked by a question that the change of rows does not touch. -/
theorem size_filter_map {f : ρ → ρ} {keep : ρ → Bool} (h : ∀ row, keep (f row) = keep row) :
    ((table.map fun _ => f).filter fun _ row => keep row).size =
      (table.filter fun _ row => keep row).size := by
  have hmap : (table.map fun _ => f).filter (fun _ row => keep row) =
      (table.filter fun _ row => keep row).map fun _ => f := by
    refine ExtTreeMap.ext_getElem? fun a => ?_
    simp only [ExtTreeMap.getElem?_map, ExtTreeMap.getElem?_filter']
    cases table[a]? with
    | none => rfl
    | some row =>
      simp only [Option.filter_some, Option.map_some, h]
      split <;> rfl
  rw [hmap, ExtTreeMap.size_map]

theorem map_map_of_comm {f g : ρ → ρ} {g' : ρ → ρ} (h : ∀ row, f (g row) = g' (f row)) :
    (table.map fun _ => g).map (fun _ => f) = (table.map fun _ => f).map fun _ => g' := by
  refine ExtTreeMap.ext_getElem? fun a => ?_
  simp only [ExtTreeMap.getElem?_map]
  cases table[a]? <;> simp [h]

end Maps

namespace Tables

theorem timeless_withoutHolder (now : Timestamp) (user : UserId) (row : RepoHolders) :
    (withoutHolder now user row).timeless = withoutHolder .zero user row.timeless := by
  unfold withoutHolder RepoHolders.timeless
  split <;> rfl

/-- A request does to the tables without moments what it does to the tables. -/
theorem timeless_after (t : Tables) (now : Timestamp) (p : Primitive) :
    (t.after now p).timeless = t.timeless.after .zero p.timeless := by
  cases p with
  | saveUser row =>
    simp only [after, perform, timeless, Primitive.timeless, map_insert]
    rfl
  | saveRepo row =>
    simp only [after, perform, timeless, Primitive.timeless, map_insert]
    rfl
  | savePending row =>
    simp only [after, perform, timeless, Primitive.timeless, map_insert]
    rfl
  | saveInvited row =>
    simp only [after, perform, timeless, Primitive.timeless, map_insert]
    rfl
  | deleteUserRows user =>
    simp only [after, perform, timeless, Primitive.timeless, map_filter_key]
  | deletePending holder perm =>
    simp only [after, perform, timeless, Primitive.timeless, map_erase]
  | removeFromRepos user =>
    simp only [after, perform, timeless, Primitive.timeless,
      map_map_of_comm (timeless_withoutHolder now user)]
  | _ => rfl

/-- Requests that differ in moments, on tables that differ in moments. -/
theorem timeless_after_congr {t t' : Tables} (h : t'.timeless = t.timeless) (now now' : Timestamp)
    {p p' : Primitive} (hp : p'.timeless = p.timeless) :
    (t'.after now' p').timeless = (t.after now p).timeless := by
  rw [timeless_after, timeless_after, h, hp]

theorem sources_congr {t t' : Tables} (h : t'.timeless = t.timeless) : t'.sources = t.sources := by
  have hsources : t'.timeless.sources = t.timeless.sources := by rw [h]
  exact hsources

theorem overlays_congr {t t' : Tables} (h : t'.timeless = t.timeless) :
    t'.overlays = t.overlays := by
  have hoverlays : t'.timeless.overlays = t.timeless.overlays := by rw [h]
  exact hoverlays

theorem userRow_timeless (t : Tables) (user : UserId) (perm : Permission) :
    t.timeless.userRow user perm = (t.userRow user perm).map (·.timeless) :=
  ExtTreeMap.getElem?_map

theorem repoRow_timeless (t : Tables) (repo : RepoId) (perm : Permission) :
    t.timeless.repoRow repo perm = (t.repoRow repo perm).map (·.timeless) :=
  ExtTreeMap.getElem?_map

theorem pendingRow_timeless (t : Tables) (holder : Alias) (perm : Permission) :
    t.timeless.pendingRow holder perm = (t.pendingRow holder perm).map (·.timeless) :=
  ExtTreeMap.getElem?_map

theorem invitedRow_timeless (t : Tables) (repo : RepoId) (perm : Permission)
    (provider : Provider) :
    t.timeless.invitedRow repo perm provider =
      (t.invitedRow repo perm provider).map (·.timeless) :=
  ExtTreeMap.getElem?_map

end Tables

/-! ### Programs at two moments -/

namespace Tx

variable {α β : Type} {now now' : Timestamp} {R : α → α → Prop}

/-- The programs, each at its moment, find tables that differ in moments only, give related answers,
and leave tables that differ in moments only. -/
def Agrees (now now' : Timestamp) (R : α → α → Prop) (x x' : Tx α) : Prop :=
  ∀ t t', t'.timeless = t.timeless →
    R (x.exec now t).1 (x'.exec now' t').1 ∧
      (x'.exec now' t').2.timeless = (x.exec now t).2.timeless

theorem agrees_pure {a a' : α} (h : R a a') : Agrees now now' R (pure a) (pure a') :=
  fun _ _ ht => ⟨h, ht⟩

theorem Agrees.bind {S : β → β → Prop} {x x' : Tx α} {f f' : α → Tx β}
    (hx : Agrees now now' R x x') (hf : ∀ a a', R a a' → Agrees now now' S (f a) (f' a')) :
    Agrees now now' S (x >>= f) (x' >>= f') := by
  intro t t' ht
  obtain ⟨hanswer, hleft⟩ := hx t t' ht
  rw [exec_bind, exec_bind]
  exact hf _ _ hanswer _ _ hleft

/-- The programs give the same answer. -/
abbrev Same (now now' : Timestamp) (x x' : Tx α) : Prop := Agrees now now' (· = ·) x x'

theorem Same.bind {S : β → β → Prop} {x x' : Tx α} {f f' : α → Tx β} (hx : Same now now' x x')
    (hf : ∀ a, Agrees now now' S (f a) (f' a)) : Agrees now now' S (x >>= f) (x' >>= f') := by
  refine Agrees.bind hx fun a a' h => ?_
  subst h
  exact hf a

theorem agrees_ite {p p' : Prop} [Decidable p] [Decidable p'] {x x' y y' : Tx α} (h : p ↔ p')
    (hx : Agrees now now' R x x') (hy : Agrees now now' R y y') :
    Agrees now now' R (if p then x else y) (if p' then x' else y') := by
  by_cases hp : p
  · rwa [if_pos hp, if_pos (h.1 hp)]
  · rwa [if_neg hp, if_neg (mt h.2 hp)]

/-- Loops over lists that differ in something that the turns do not look at. -/
theorem same_foldlM_of_map {ι κ σ : Type} {k : ι → κ} {turn turn' : σ → ι → Tx σ}
    (h : ∀ s i i', k i' = k i → Same now now' (turn s i) (turn' s i')) {xs xs' : List ι}
    (hxs : xs'.map k = xs.map k) (s : σ) :
    Same now now' (xs.foldlM turn s) (xs'.foldlM turn' s) := by
  induction xs generalizing xs' s with
  | nil =>
    obtain rfl := List.map_eq_nil_iff.1 hxs
    exact agrees_pure rfl
  | cons i xs ih =>
    obtain ⟨i', xs', rfl, hkey, hrest⟩ := List.map_eq_cons_iff.1 hxs
    rw [List.foldlM_cons, List.foldlM_cons]
    exact (h s i i' hkey).bind fun s' => ih hrest s'

/-- Loops with the same turns. -/
theorem same_foldlM {ι σ : Type} {turn turn' : σ → ι → Tx σ}
    (h : ∀ s i, Same now now' (turn s i) (turn' s i)) (xs : List ι) (s : σ) :
    Same now now' (xs.foldlM turn s) (xs.foldlM turn' s) := by
  refine same_foldlM_of_map (k := id) (fun s i i' hi => ?_) rfl s
  obtain rfl : i' = i := hi
  exact h s i'

theorem same_forM {ι : Type} {turn turn' : ι → Tx Unit}
    (h : ∀ i, Same now now' (turn i) (turn' i)) (xs : List ι) :
    Same now now' (xs.forM turn) (xs.forM turn') := by
  induction xs with
  | nil => exact agrees_pure rfl
  | cons i xs ih => exact (h i).bind fun _ => ih

/-! ### Requests -/

/-- A request about something that has no moments. -/
theorem same_request {p : Primitive} (hp : p.timeless = p)
    (h : ∀ t t', t'.timeless = t.timeless →
      (Tables.perform now p t).1 = (Tables.perform now' p t').1) :
    Same now now' (request p) (request p) :=
  fun t t' ht => ⟨h t t' ht, Tables.timeless_after_congr ht now now' (by rw [hp])⟩

theorem same_saveUser {row : UserHoldings} {u : Timestamp} {s : Option Timestamp}
    (h : s.isSome = row.syncedAt.isSome) :
    Same now now' (request (.saveUser row))
      (request (.saveUser { row with updatedAt := u, syncedAt := s })) := by
  have hp : (Primitive.saveUser { row with updatedAt := u, syncedAt := s }).timeless =
      (Primitive.saveUser row).timeless :=
    congrArg Primitive.saveUser (UserHoldings.timeless_eq_iff.2 ⟨u, s, h, rfl⟩)
  exact fun _ _ ht => ⟨rfl, Tables.timeless_after_congr ht now now' hp⟩

theorem same_saveRepo {row : RepoHolders} {u : Timestamp} {s : Option Timestamp}
    (h : s.isSome = row.syncedAt.isSome) :
    Same now now' (request (.saveRepo row))
      (request (.saveRepo { row with updatedAt := u, syncedAt := s })) := by
  have hp : (Primitive.saveRepo { row with updatedAt := u, syncedAt := s }).timeless =
      (Primitive.saveRepo row).timeless :=
    congrArg Primitive.saveRepo (RepoHolders.timeless_eq_iff.2 ⟨u, s, h, rfl⟩)
  exact fun _ _ ht => ⟨rfl, Tables.timeless_after_congr ht now now' hp⟩

theorem same_savePending {row : PendingHoldings} {u : Timestamp} :
    Same now now' (request (.savePending row))
      (request (.savePending { row with updatedAt := u })) := by
  have hp : (Primitive.savePending { row with updatedAt := u }).timeless =
      (Primitive.savePending row).timeless :=
    congrArg Primitive.savePending (PendingHoldings.timeless_eq_iff.2 ⟨u, rfl⟩)
  exact fun _ _ ht => ⟨rfl, Tables.timeless_after_congr ht now now' hp⟩

theorem same_saveInvited {row : PendingHolders} {u : Timestamp} :
    Same now now' (request (.saveInvited row))
      (request (.saveInvited { row with updatedAt := u })) := by
  have hp : (Primitive.saveInvited { row with updatedAt := u }).timeless =
      (Primitive.saveInvited row).timeless :=
    congrArg Primitive.saveInvited (PendingHolders.timeless_eq_iff.2 ⟨u, rfl⟩)
  exact fun _ _ ht => ⟨rfl, Tables.timeless_after_congr ht now now' hp⟩

theorem same_removeFromRepos (user : UserId) :
    Same now now' (request (.removeFromRepos user)) (request (.removeFromRepos user)) := by
  refine same_request rfl fun t t' ht => ?_
  have hcount : ∀ t : Tables, (t.repos.filter fun _ row => row.users.contains user).size =
      (t.timeless.repos.filter fun _ row => row.users.contains user).size := fun t =>
    (size_filter_map (f := RepoHolders.timeless) fun _ => rfl).symm
  show Std.ExtTreeMap.size _ = Std.ExtTreeMap.size _
  rw [hcount, hcount t', ht]

theorem same_deleteUserRows (user : UserId) :
    Same now now' (request (.deleteUserRows user)) (request (.deleteUserRows user)) := by
  refine same_request rfl fun t t' ht => ?_
  have hcount : ∀ t : Tables, (t.users.filter fun key _ => key.user == user).size =
      (t.timeless.users.filter fun key _ => key.user == user).size := by
    intro t
    rw [Tables.timeless, ← map_filter_key, ExtTreeMap.size_map]
  show Std.ExtTreeMap.size _ = Std.ExtTreeMap.size _
  rw [hcount, hcount t', ht]

theorem same_loadUserSources (user : UserId) (perm : Permission) :
    Same now now' (request (.loadUserSources user perm))
      (request (.loadUserSources user perm)) := by
  refine same_request rfl fun t t' ht => ?_
  simp only [Tables.perform, Tables.userSources, Tables.sources_congr ht]

theorem same_loadRepoSources (repo : RepoId) (perm : Permission) :
    Same now now' (request (.loadRepoSources repo perm))
      (request (.loadRepoSources repo perm)) := by
  refine same_request rfl fun t t' ht => ?_
  simp only [Tables.perform, Tables.repoSources, Tables.sources_congr ht]

theorem same_deleteSources (user : UserId) :
    Same now now' (request (.deleteSources user)) (request (.deleteSources user)) := by
  refine same_request rfl fun t t' ht => ?_
  simp only [Tables.perform, Tables.sources_congr ht]

theorem same_deleteOverlays (user : UserId) :
    Same now now' (request (.deleteOverlays user)) (request (.deleteOverlays user)) := by
  refine same_request rfl fun t t' ht => ?_
  simp only [Tables.perform, Tables.overlays_congr ht]

theorem same_saveOverlay (user : UserId) (repo : RepoId) (overlay : Overlay) :
    Same now now' (request (.saveOverlay user repo overlay))
      (request (.saveOverlay user repo overlay)) :=
  same_request rfl fun _ _ _ => rfl

/-! ### Loading a row

A program that goes on from a row is looked at in two cases: there is none, or the two rows differ
in moments only. -/

/-- Two answers to a load that differ in moments, and what follows each. -/
theorem agrees_load {ρ : Type} {timeless : ρ → ρ} {found found' : Option ρ}
    {x x' : Option ρ → Tx α} (h : found'.map timeless = found.map timeless)
    (hnone : Agrees now now' R (x none) (x' none))
    (hsome : ∀ row row', timeless row' = timeless row →
      Agrees now now' R (x (some row)) (x' (some row'))) :
    Agrees now now' R (x found) (x' found') := by
  cases found with
  | none =>
    cases found' with
    | none => exact hnone
    | some row' => cases h
  | some row =>
    cases found' with
    | none => cases h
    | some row' => exact hsome row row' (Option.some.inj h)

theorem agrees_loadUser {user : UserId} {perm : Permission} {f f' : Option UserHoldings → Tx α}
    (hnone : Agrees now now' R (f none) (f' none))
    (hsome : ∀ row u s, s.isSome = row.syncedAt.isSome →
      Agrees now now' R (f (some row)) (f' (some { row with updatedAt := u, syncedAt := s }))) :
    Agrees now now' R (request (.loadUser user perm) >>= f)
      (request (.loadUser user perm) >>= f') := by
  intro t t' ht
  have hrow : (t'.userRow user perm).map (·.timeless) = (t.userRow user perm).map (·.timeless) := by
    rw [← Tables.userRow_timeless, ← Tables.userRow_timeless, ht]
  rw [exec_bind, exec_bind]
  refine agrees_load hrow hnone (fun row row' h => ?_) t t' ht
  obtain ⟨u, s, hs, rfl⟩ := UserHoldings.timeless_eq_iff.1 h
  exact hsome row u s hs

theorem agrees_loadRepo {repo : RepoId} {perm : Permission} {f f' : Option RepoHolders → Tx α}
    (hnone : Agrees now now' R (f none) (f' none))
    (hsome : ∀ row u s, s.isSome = row.syncedAt.isSome →
      Agrees now now' R (f (some row)) (f' (some { row with updatedAt := u, syncedAt := s }))) :
    Agrees now now' R (request (.loadRepo repo perm) >>= f)
      (request (.loadRepo repo perm) >>= f') := by
  intro t t' ht
  have hrow : (t'.repoRow repo perm).map (·.timeless) = (t.repoRow repo perm).map (·.timeless) := by
    rw [← Tables.repoRow_timeless, ← Tables.repoRow_timeless, ht]
  rw [exec_bind, exec_bind]
  refine agrees_load hrow hnone (fun row row' h => ?_) t t' ht
  obtain ⟨u, s, hs, rfl⟩ := RepoHolders.timeless_eq_iff.1 h
  exact hsome row u s hs

theorem agrees_loadPending {holder : Alias} {perm : Permission}
    {f f' : Option PendingHoldings → Tx α} (hnone : Agrees now now' R (f none) (f' none))
    (hsome : ∀ row u, Agrees now now' R (f (some row)) (f' (some { row with updatedAt := u }))) :
    Agrees now now' R (request (.loadPending holder perm) >>= f)
      (request (.loadPending holder perm) >>= f') := by
  intro t t' ht
  have hrow : (t'.pendingRow holder perm).map (·.timeless) =
      (t.pendingRow holder perm).map (·.timeless) := by
    rw [← Tables.pendingRow_timeless, ← Tables.pendingRow_timeless, ht]
  rw [exec_bind, exec_bind]
  refine agrees_load hrow hnone (fun row row' h => ?_) t t' ht
  obtain ⟨u, rfl⟩ := PendingHoldings.timeless_eq_iff.1 h
  exact hsome row u

theorem agrees_loadInvited {repo : RepoId} {perm : Permission} {provider : Provider}
    {f f' : Option PendingHolders → Tx α} (hnone : Agrees now now' R (f none) (f' none))
    (hsome : ∀ row u, Agrees now now' R (f (some row)) (f' (some { row with updatedAt := u }))) :
    Agrees now now' R (request (.loadInvited repo perm provider) >>= f)
      (request (.loadInvited repo perm provider) >>= f') := by
  intro t t' ht
  have hrow : (t'.invitedRow repo perm provider).map (·.timeless) =
      (t.invitedRow repo perm provider).map (·.timeless) := by
    rw [← Tables.invitedRow_timeless, ← Tables.invitedRow_timeless, ht]
  rw [exec_bind, exec_bind]
  refine agrees_load hrow hnone (fun row row' h => ?_) t t' ht
  obtain ⟨u, rfl⟩ := PendingHolders.timeless_eq_iff.1 h
  exact hsome row u

/-- The listed rows of an alias differ in moments only. -/
theorem agrees_listPending (holder : Alias) :
    Agrees now now' (fun rows rows' => rows'.map (·.timeless) = rows.map (·.timeless))
      (request (.listPending holder)) (request (.listPending holder)) := by
  intro t t' ht
  refine ⟨?_, Tables.timeless_after_congr ht now now' rfl⟩
  have hlist : ∀ t : Tables,
      ((Named.all : List Permission).filterMap (t.pendingRow holder)).map (·.timeless) =
        (Named.all : List Permission).filterMap (t.timeless.pendingRow holder) := by
    intro t
    rw [List.map_filterMap]
    congr 1
    funext perm
    exact (Tables.pendingRow_timeless t holder perm).symm
  refine (hlist t').trans ?_
  rw [ht]
  exact (hlist t).symm

/-! ### Writers -/

section Writers

variable {repo : RepoId} {perm : Permission} {user : UserId} {holder : Alias}

theorem same_addSource (source : Source) :
    Same now now' (request (.addSource user perm repo source))
      (request (.addSource user perm repo source)) :=
  same_request rfl fun _ _ _ => rfl

theorem same_removeSource (source : Source) :
    Same now now' (request (.removeSource user perm repo source))
      (request (.removeSource user perm repo source)) :=
  same_request rfl fun _ _ _ => rfl

/-- A user's row, stored or new. -/
theorem agrees_userRow (user : UserId) (perm : Permission) :
    Agrees now now' (fun row row' => row'.timeless = row.timeless) (userRow now user perm)
      (userRow now' user perm) :=
  agrees_loadUser (agrees_pure rfl) fun _ u s hs =>
    agrees_pure (UserHoldings.timeless_eq_iff.2 ⟨u, s, hs, rfl⟩)

/-- An alias's row, stored or new. -/
theorem agrees_pendingRow (holder : Alias) (perm : Permission) :
    Agrees now now' (fun row row' => row'.timeless = row.timeless) (pendingRow now holder perm)
      (pendingRow now' holder perm) :=
  agrees_loadPending (agrees_pure rfl) fun _ u =>
    agrees_pure (PendingHoldings.timeless_eq_iff.2 ⟨u, rfl⟩)

theorem same_addSynced (progress : UserSet × Nat) (user : UserId) :
    Same now now' (addSynced now repo perm progress user)
      (addSynced now' repo perm progress user) := by
  unfold addSynced
  refine (agrees_userRow user perm).bind fun row row' hrow => ?_
  obtain ⟨u, s, hs, rfl⟩ := UserHoldings.timeless_eq_iff.1 hrow
  refine (same_addSource .repoSync).bind fun _ => ?_
  refine agrees_ite Iff.rfl ?_ (agrees_pure rfl)
  exact Same.bind (same_saveUser hs) fun _ => agrees_pure rfl

theorem same_dismiss (progress : UserSet × Nat) (user : UserId) :
    Same now now' (dismiss now repo perm progress user) (dismiss now' repo perm progress user) := by
  unfold dismiss
  refine agrees_loadUser ?_ fun row u s hs => ?_
  · refine (same_removeSource .repoSync).bind fun _ => ?_
    refine (same_loadUserSources user perm).bind fun sources => ?_
    exact agrees_ite Iff.rfl (agrees_pure rfl) (agrees_pure rfl)
  · refine (same_removeSource .repoSync).bind fun _ => ?_
    refine (same_loadUserSources user perm).bind fun sources => ?_
    refine agrees_ite Iff.rfl ?_ (agrees_pure rfl)
    exact Same.bind (same_saveUser hs) fun _ => agrees_pure rfl

theorem same_replaceHolders (users : UserSet) :
    Same now now' (replaceHolders now repo perm users) (replaceHolders now' repo perm users) := by
  unfold replaceHolders
  -- What follows the load does the same from a new row and from a stored one.
  refine agrees_loadRepo ?_ fun row u s hs => ?_
  all_goals
    refine (same_loadRepoSources repo perm).bind fun sources => ?_
    refine (same_foldlM same_addSynced _ _).bind fun (members, added) => ?_
    refine (same_foldlM same_dismiss _ _).bind fun (members, removed) => ?_
    exact Same.bind (same_saveRepo rfl) fun _ => agrees_pure rfl

theorem same_promise (holder : Alias) :
    Same now now' (promise now repo perm holder) (promise now' repo perm holder) := by
  unfold promise
  refine (agrees_pendingRow holder perm).bind fun row row' hrow => ?_
  obtain ⟨u, rfl⟩ := PendingHoldings.timeless_eq_iff.1 hrow
  exact same_savePending

theorem same_retract (holder : Alias) :
    Same now now' (retract now repo perm holder) (retract now' repo perm holder) := by
  unfold retract
  exact agrees_loadPending (agrees_pure rfl) fun row u => same_savePending

theorem same_replaceInvited (group : AliasGroup) :
    Same now now' (replaceInvited now group repo perm) (replaceInvited now' group repo perm) := by
  unfold replaceInvited
  refine agrees_loadInvited ?_ fun row u => ?_
  all_goals
    refine (same_forM (fun _ => same_promise _) _).bind fun _ => ?_
    refine (same_forM (fun _ => same_retract _) _).bind fun _ => ?_
    exact Same.bind same_saveInvited fun _ => agrees_pure rfl

theorem same_addHolder (repo : RepoId) :
    Same now now' (addHolder now repo perm user) (addHolder now' repo perm user) := by
  unfold addHolder
  refine agrees_loadRepo ?_ fun row u s hs => ?_
  · exact agrees_ite Iff.rfl (same_saveRepo rfl) (agrees_pure rfl)
  · exact agrees_ite Iff.rfl (same_saveRepo hs) (agrees_pure rfl)

theorem same_removeHolder (repo : RepoId) :
    Same now now' (removeHolder now repo perm user) (removeHolder now' repo perm user) := by
  unfold removeHolder
  refine agrees_loadRepo (agrees_pure rfl) fun row u s hs => ?_
  exact agrees_ite Iff.rfl (same_saveRepo hs) (agrees_pure rfl)

theorem same_mergeGranted (repos : RepoSet) (source : Source) :
    Same now now' (mergeGranted now user perm repos source)
      (mergeGranted now' user perm repos source) := by
  unfold mergeGranted
  refine (agrees_userRow user perm).bind fun row row' hrow => ?_
  obtain ⟨u, s, hs, rfl⟩ := UserHoldings.timeless_eq_iff.1 hrow
  refine (same_forM (fun _ => same_addSource source) _).bind fun _ => ?_
  exact Same.bind (same_saveUser hs) fun _ => agrees_pure rfl

theorem same_bring (account : AccountId) (progress : RepoSet × Nat) (repo : RepoId) :
    Same now now' (bring now user account progress repo)
      (bring now' user account progress repo) := by
  unfold bring
  refine (same_addSource (.account account)).bind fun _ => ?_
  refine agrees_ite Iff.rfl (agrees_pure rfl) ?_
  exact (same_addHolder repo).bind fun _ => agrees_pure rfl

theorem same_drop (account : AccountId) (before : ExtTreeMap RepoId SourceSet)
    (progress : RepoSet × Nat) (repo : RepoId) :
    Same now now' (drop now user account before progress repo)
      (drop now' user account before progress repo) := by
  unfold drop
  refine (same_removeSource (.account account)).bind fun _ => ?_
  refine agrees_ite Iff.rfl (agrees_pure rfl) ?_
  exact (same_removeHolder repo).bind fun _ => agrees_pure rfl

theorem same_replaceAccount (account : AccountId) (repos : RepoSet) :
    Same now now' (replaceAccount now user account repos)
      (replaceAccount now' user account repos) := by
  unfold replaceAccount
  refine agrees_loadUser ?_ fun row u s hs => ?_
  all_goals
    refine (same_loadUserSources user .read).bind fun sources => ?_
    refine (same_foldlM (same_bring account) _ _).bind fun (members, added) => ?_
    refine (same_foldlM (same_drop account sources) _ _).bind fun (members, removed) => ?_
    exact Same.bind (same_saveUser rfl) fun _ => agrees_pure rfl

theorem same_uninvite (repo : RepoId) :
    Same now now' (uninvite now holder perm repo) (uninvite now' holder perm repo) := by
  unfold uninvite
  refine agrees_loadInvited (agrees_pure rfl) fun row u => ?_
  exact agrees_ite Iff.rfl same_saveInvited (agrees_pure rfl)

theorem same_clearPending (holder : Alias) (perm : Permission) :
    Same now now' (clearPending now holder perm) (clearPending now' holder perm) := by
  unfold clearPending
  refine agrees_loadPending (agrees_pure rfl) fun row u => ?_
  refine (same_forM (fun _ => same_uninvite _) _).bind fun _ => ?_
  exact Same.bind (same_request rfl fun _ _ _ => rfl) fun _ => agrees_pure rfl

/-- The rows of an alias differ in moments, but they are cleared by their keys. -/
theorem same_clearAliases (holders : List Alias) :
    Same now now' (clearAliases now holders) (clearAliases now' holders) := by
  unfold clearAliases
  refine same_foldlM (fun cleared holder => ?_) holders 0
  refine (agrees_listPending holder).bind fun rows rows' hrows => ?_
  refine same_foldlM_of_map (fun cleared row row' hrow => ?_) hrows cleared
  obtain ⟨u, rfl⟩ := PendingHoldings.timeless_eq_iff.1 hrow
  exact (same_clearPending holder row.perm).bind fun _ => agrees_pure rfl

theorem same_deleteUser : Same now now' (deleteUser user) (deleteUser user) :=
  (same_deleteUserRows user).bind fun _ => (same_deleteSources user).bind fun _ => agrees_pure rfl

end Writers

end Tx

/-! ### Operations -/

variable {now now' : Timestamp}

open Tx

theorem same_matchPending (perm : Permission) (found : List Alias × RepoSet) (holder : Alias) :
    Same now now' (matchPending perm found holder) (matchPending perm found holder) := by
  unfold matchPending
  refine agrees_loadPending (agrees_pure rfl) fun row u => ?_
  exact agrees_ite Iff.rfl (agrees_pure rfl) (agrees_pure rfl)

theorem same_claim (request : GrantRequest) (mode : BindingMode) (candidates : List Alias) :
    Same now now' (claim now request mode candidates) (claim now' request mode candidates) := by
  unfold claim
  refine (same_foldlM (same_matchPending request.perm) _ _).bind fun (matched, repos) => ?_
  refine agrees_ite Iff.rfl (agrees_pure rfl) ?_
  refine (same_mergeGranted repos .grant).bind fun added => ?_
  refine (same_forM same_addHolder _).bind fun _ => ?_
  refine (same_forM (fun holder => ?_) _).bind fun _ => agrees_pure rfl
  exact (same_clearPending holder request.perm).bind fun _ => agrees_pure rfl

theorem same_forget (request : RevokeRequest) :
    Same now now' (forget now request) (forget now' request) := by
  unfold forget
  refine same_deleteUser.bind fun users => ?_
  refine (same_removeFromRepos request.user).bind fun repos => ?_
  refine (same_clearAliases request.aliases).bind fun pending => ?_
  exact (same_deleteOverlays request.user).bind fun overlays => agrees_pure rfl

theorem Write.same_call (w : Write) : Same now now' (w.call now) (w.call now') := by
  cases w with
  | replaceHolders repo perm users => exact same_replaceHolders users
  | replaceInvited group repo perm => exact same_replaceInvited group
  | replaceAccount user account repos => exact same_replaceAccount account repos
  | clearAliases holders => exact same_clearAliases holders
  | saveOverlay user repo overlay => exact same_saveOverlay user repo overlay
  | deleteOverlays user => exact same_deleteOverlays user
  | deleteUser user => exact same_deleteUser

/-- The plans are settled alike, or are transactions that do the same but for moments. -/
inductive Plan.Same {Answer : Type} (now now' : Timestamp) : Plan Answer → Plan Answer → Prop
  | settled (result : Except AccessError Answer) : Same now now' (.settled result) (.settled result)
  | transaction {body body' : Tx (Ending Answer)} (h : Tx.Same now now' body body') :
    Same now now' (.transaction body) (.transaction body')

/-- An operation at one moment does what it does at another one, but for moments. -/
theorem Mutation.same_plan (m : Mutation) (identityOf : UserId → Except AccessError Identity) :
    (m.plan identityOf now).Same now now' (m.plan identityOf now') := by
  cases m with
  | write w => exact .transaction (w.same_call.bind fun _ => agrees_pure rfl)
  | grant request mode =>
    simp only [plan]
    cases identityOf request.user with
    | error e => exact .settled _
    | ok identity =>
      dsimp only
      by_cases hnone : (identity.candidates mode).isEmpty = true
      · rw [if_pos hnone, if_pos hnone]
        exact .settled _
      · rw [if_neg hnone, if_neg hnone]
        exact .transaction (same_claim request mode _)
  | revoke request =>
    exact .transaction ((same_forget request).bind fun _ => agrees_pure rfl)
  | saveOverlay user repo overlay =>
    simp only [plan]
    cases compileRules overlay.paths with
    | error e => exact .settled _
    | ok rules =>
      exact .transaction ((same_saveOverlay user repo overlay).bind fun _ => agrees_pure rfl)

end RepoAccess
