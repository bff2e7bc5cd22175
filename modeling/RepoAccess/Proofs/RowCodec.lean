/-
Records of the database read back from their columns.

* `SqlValue.Alike` — values that are the same but for the order and the repetitions of an array;
* `LawfulSqlCodec` — a type whose values read back, from an array in any order;
* `UserHoldings.ofRow_of_shows`, `RepoHolders.ofRow_of_shows`, `PendingHoldings.ofRow_of_shows`,
  `PendingHolders.ofRow_of_shows` — a row with the columns of a record is read as the record;
* `UserHoldings.rejectsUnknown_ofRow`, `PendingHoldings.rejectsUnknown_ofRow` — a row with a name
  that nobody knows is not read at all.
-/
import RepoAccess.Proofs.Locking.Keys

namespace RepoAccess

open Std

/-! ### Values that are alike -/

/-- The same values, but for the order and the repetitions of an array. -/
inductive SqlValue.Alike : SqlValue → SqlValue → Prop
  | refl (v : SqlValue) : v.Alike v
  | ints {ns ms : List Int32} (h : ∀ n, n ∈ ns ↔ n ∈ ms) : Alike (.ints ns) (.ints ms)
  | texts {ss ts : List String} (h : ∀ s, s ∈ ss ↔ s ∈ ts) : Alike (.texts ss) (.texts ts)

/-- The row holds the values of these columns, but for the order and the repetitions of arrays. -/
def Row.Shows (row columns : Row) : Prop :=
  ∀ column ∈ columns, (row.value column.1).Alike column.2

/-! ### Types that read back -/

/-- A type whose values read back from what holds them, and from whatever is alike. -/
class LawfulSqlCodec (α : Type) [SqlCodec α] : Prop where
  ofSql_toSql (a : α) : SqlCodec.ofSql? (toSql a) = some a
  ofSql_congr {v w : SqlValue} (h : v.Alike w) : (SqlCodec.ofSql? v : Option α) = SqlCodec.ofSql? w

/-- A set does not depend on the order and the repetitions of its list. -/
theorem ofList_congr {κ : Type} [Ord κ] [TransOrd κ] [LawfulEqOrd κ] [DecidableEq κ]
    {l l' : List κ} (h : ∀ a, a ∈ l ↔ a ∈ l') :
    (ExtTreeSet.ofList l : ExtTreeSet κ) = ExtTreeSet.ofList l' := by
  ext a
  rw [ExtTreeSet.mem_ofList, ExtTreeSet.mem_ofList, List.contains_iff_mem, List.contains_iff_mem]
  exact h a

/-- A set is that of its list, even if the members are written as something else in between. -/
theorem ofList_map_toList {κ ι : Type} [Ord κ] [TransOrd κ] [LawfulEqOrd κ] [DecidableEq κ]
    {write : κ → ι} {read : ι → κ} (h : ∀ a, read (write a) = a) (set : ExtTreeSet κ) :
    ExtTreeSet.ofList ((set.toList.map write).map read) = set := by
  ext a
  rw [ExtTreeSet.mem_ofList, List.contains_iff_mem, List.map_map, List.mem_map]
  simp only [Function.comp_apply, h, exists_eq_right, ExtTreeSet.mem_toList]

namespace LawfulSqlCodec

instance : LawfulSqlCodec String where
  ofSql_toSql _ := rfl
  ofSql_congr h := by cases h <;> rfl

instance : LawfulSqlCodec Timestamp where
  ofSql_toSql _ := rfl
  ofSql_congr h := by cases h <;> rfl

instance : LawfulSqlCodec (Option Timestamp) where
  ofSql_toSql t := by cases t <;> rfl
  ofSql_congr h := by cases h <;> rfl

instance : LawfulSqlCodec UserId where
  ofSql_toSql _ := rfl
  ofSql_congr h := by cases h <;> rfl

instance : LawfulSqlCodec RepoId where
  ofSql_toSql _ := rfl
  ofSql_congr h := by cases h <;> rfl

instance : LawfulSqlCodec AccountId where
  ofSql_toSql _ := rfl
  ofSql_congr h := by cases h <;> rfl

instance : LawfulSqlCodec UserSet where
  ofSql_toSql users := congrArg some (ofList_map_toList (fun _ => rfl) users)
  ofSql_congr h := by
    cases h with
    | refl => rfl
    | ints h => exact congrArg some (ofList_congr fun user => by simp [h])
    | texts => rfl

instance : LawfulSqlCodec RepoSet where
  ofSql_toSql repos := congrArg some (ofList_map_toList (fun _ => rfl) repos)
  ofSql_congr h := by
    cases h with
    | refl => rfl
    | ints h => exact congrArg some (ofList_congr fun repo => by simp [h])
    | texts => rfl

instance : LawfulSqlCodec NameSet where
  ofSql_toSql names := by
    have h : ExtTreeSet.ofList ((names.toList.map id).map id) = names :=
      ofList_map_toList (fun _ => rfl) names
    rw [List.map_id, List.map_id] at h
    exact congrArg some h
  ofSql_congr h := by
    cases h with
    | refl => rfl
    | ints => rfl
    | texts h => exact congrArg some (ofList_congr h)

end LawfulSqlCodec

/-! ### Columns -/

section Columns

variable {α : Type} [SqlCodec α] [LawfulSqlCodec α] {row : Row} {column : String} {a : α}

theorem Row.readAs_of_alike (h : (row.value column).Alike (toSql a)) (shown : ColumnRef) :
    row.readAs α column shown = .ok a := by
  rw [readAs, LawfulSqlCodec.ofSql_congr h, LawfulSqlCodec.ofSql_toSql]

theorem Row.read_of_alike (h : (row.value column).Alike (toSql a)) : row.read α column = .ok a :=
  readAs_of_alike h _

end Columns

/-! ### Records -/

theorem ok_bind {ε α β : Type} (a : α) (f : α → Except ε β) : (Except.ok a >>= f) = f a := rfl

theorem ResourceKind.ofName_name (kind : ResourceKind) :
    Named.ofName? (name kind) = some kind := by
  cases kind
  decide

theorem parseColumn_name {α : Type} [Named α] {a : α} (h : Named.ofName? (name a) = some a) :
    parseColumn α (name a) = .ok a := by
  rw [parseColumn, h]

theorem UserHoldings.ofRow_of_shows {row : Row} {h : UserHoldings} (hrow : row.Shows h.toRow) :
    ofRow row = .ok h := by
  simp only [Row.Shows, toRow, List.forall_mem_cons] at hrow
  obtain ⟨huser, hperm, hresource, hrepos, hupdated, hsynced, -⟩ := hrow
  simp only [ofRow, Row.read_of_alike huser, Row.read_of_alike hperm, Row.read_of_alike hresource,
    Row.read_of_alike hrepos, Row.read_of_alike hupdated, Row.read_of_alike hsynced, ok_bind,
    parseColumn_name h.perm.ofName_name, parseColumn_name h.resource.ofName_name]
  rfl

theorem RepoHolders.ofRow_of_shows {row : Row} {h : RepoHolders}
    (hrow : row.Shows [("user_ids", toSql h.users), ("updated_at", toSql h.updatedAt),
      ("synced_at", toSql h.syncedAt)]) : ofRow h.repo h.perm row = .ok h := by
  simp only [Row.Shows, List.forall_mem_cons] at hrow
  obtain ⟨husers, hupdated, hsynced, -⟩ := hrow
  simp only [ofRow, Row.read_of_alike husers, Row.read_of_alike hupdated,
    Row.read_of_alike hsynced]
  rfl

theorem Alias.ofRow_of_shows {row : Row} {holder : Alias} (hrow : row.Shows holder.toRow) :
    ofRow row = .ok holder := by
  simp only [Row.Shows, toRow, List.forall_mem_cons] at hrow
  obtain ⟨htype, hid, hbind, -⟩ := hrow
  simp only [ofRow, Row.read_of_alike htype, Row.read_of_alike hid, Row.read_of_alike hbind]
  rfl

theorem PendingHoldings.ofRow_of_shows {row : Row} {h : PendingHoldings}
    (hrow : row.Shows h.toRow) : ofRow row = .ok h := by
  obtain ⟨hholder, hrest⟩ := List.forall_mem_append.1 hrow
  simp only [List.forall_mem_cons] at hrest
  obtain ⟨hperm, hresource, hrepos, hupdated, -⟩ := hrest
  simp only [ofRow, Alias.ofRow_of_shows hholder, Row.read_of_alike hperm,
    Row.read_of_alike hresource, Row.read_of_alike hrepos, Row.read_of_alike hupdated, ok_bind,
    parseColumn_name h.perm.ofName_name, parseColumn_name h.resource.ofName_name]
  rfl

theorem PendingHolders.ofRow_of_shows {row : Row} {h : PendingHolders}
    (hrow : row.Shows [("bind_ids", toSql h.bindIds), ("updated_at", toSql h.updatedAt)]) :
    ofRow h.repo h.perm h.provider row = .ok h := by
  simp only [Row.Shows, List.forall_mem_cons] at hrow
  obtain ⟨hbinds, hupdated, -⟩ := hrow
  simp only [ofRow, Row.read_of_alike hbinds, Row.read_of_alike hupdated]
  rfl

/-! ### Names that nobody knows -/

/-- The failure is that of a query. -/
def IsQueryFailure {α : Type} (result : Except AccessError α) : Prop :=
  ∃ reason, result = .error (.query postgresName reason)

/-- The row has a permission or a resource type that nobody knows. -/
def Row.NamesUnknown (row : Row) : Prop :=
  (∃ text, row.read String "permission" = .ok text ∧
    (Named.ofName? text : Option Permission) = none) ∨
  ∃ text, row.read String "object_type" = .ok text ∧
    (Named.ofName? text : Option ResourceKind) = none

/-- The row has texts for a permission and a resource type, and whoever is named by the rest of its
key. -/
def Row.HasKey {κ : Type} (readHolder : Row → Except AccessError κ) (row : Row) : Prop :=
  (∃ text, row.read String "permission" = .ok text) ∧
    (∃ text, row.read String "object_type" = .ok text) ∧ ∃ holder, readHolder row = .ok holder

theorem IsQueryFailure.bind {α β : Type} {x : Except AccessError α} (h : IsQueryFailure x)
    (f : α → Except AccessError β) : IsQueryFailure (x >>= f) := by
  obtain ⟨reason, rfl⟩ := h
  exact ⟨reason, rfl⟩

/-- Rows with an unknown name are never read. Where the rest of the key can be read, the failure is
that of a query. -/
structure RejectsUnknown {κ β : Type} (readHolder : Row → Except AccessError κ)
    (read : Row → Except AccessError β) : Prop where
  refuses (row : Row) (h : row.NamesUnknown) : ∃ e, read row = .error e
  fails (row : Row) (h : row.NamesUnknown) (hkey : row.HasKey readHolder) :
    IsQueryFailure (read row)

/-- What is done with a row once it is read makes no difference. -/
theorem RejectsUnknown.bind {κ β γ : Type} {readHolder : Row → Except AccessError κ}
    {read : Row → Except AccessError β} (h : RejectsUnknown readHolder read)
    (f : Row → β → Except AccessError γ) :
    RejectsUnknown readHolder fun row => read row >>= f row where
  refuses row hrow := by
    obtain ⟨e, he⟩ := h.refuses row hrow
    exact ⟨e, by rw [he]; rfl⟩
  fails row hrow hkey := (h.fails row hrow hkey).bind _

end RepoAccess
