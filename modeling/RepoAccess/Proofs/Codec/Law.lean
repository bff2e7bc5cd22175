/-
What a codec owes.

* `LawfulCodec` — a type's values are written as readable JSON and read back, and whatever is read
  is a value that can be written;
* `LawfulCodec.ofNames`, `LawfulCodec.ofRecord` — enumerations written by name and records;
* instances for the basic types, and for options, lists and sets of lawful types.

Not every value of a type need be one that can be written: a count is read up to the largest 64-bit
number, and a moment within the years that are kept. The law names those that can.
-/
import RepoAccess.Proofs.Codec.Moment
import RepoAccess.Proofs.Codec.Tree
import RepoAccess.Json.Model

namespace RepoAccess

open Std

/-- A codec that reads back the proper values it has written, and reads no others. -/
class LawfulCodec (α : Type) [JsonCodec α] (Proper : outParam (α → Prop)) : Prop where
  readable (a : α) : (toJson a).Readable
  as?_toJson (a : α) (h : Proper a) : (toJson a).as? α = some a
  proper_of_as? (j : Json) (a : α) (h : j.as? α = some a) : Proper a

attribute [simp] LawfulCodec.readable LawfulCodec.as?_toJson

/-- A count is a 64-bit number. -/
def IsCount (n : Nat) : Prop := n < UInt64.size

namespace LawfulCodec

variable {α : Type} [JsonCodec α] {P : α → Prop}

/-! ### Enumerations and records -/

/-- A type written by name is lawful if its names are distinct. -/
theorem ofNames [Named α] (hwrite : ∀ a : α, toJson a = .string (name a))
    (hread : ∀ j : Json, j.as? α = j.plainVariant?.bind Named.ofName?)
    (hname : ∀ a : α, Named.ofName? (name a) = some a) : LawfulCodec α fun _ => True where
  readable a := by
    rw [hwrite]
    exact .string _
  as?_toJson a _ := by
    rw [hread, hwrite]
    exact hname a
  proper_of_as? _ _ _ := trivial

/-- An object that has the fields of a record, each of them once, is read as the record. -/
theorem record?_object {names : List String} {members : List (String × Json)}
    (hnames : members.map Prod.fst = names) (hnodup : names.Nodup) :
    (Json.object members).record? names = some ⟨false, members⟩ := by
  have hknown : ∀ m ∈ members, names.contains m.1 = true := by
    intro m hm
    rw [List.contains_iff_mem, ← hnames]
    exact List.mem_map_of_mem hm
  rw [Json.record?, List.filter_eq_self.2 hknown, hnames, if_pos hnodup]

/-- A type written as an object of its fields is lawful if its fields make it up again. -/
theorem ofRecord {names : List String} {members : α → List (String × Json)}
    {build : Json.Record → Option α} (hwrite : ∀ a, toJson a = .object (members a))
    (hread : ∀ j : Json, j.as? α = (j.record? names).bind build)
    (hnames : ∀ a, (members a).map Prod.fst = names) (hnodup : names.Nodup)
    (hreadable : ∀ a, ∀ m ∈ members a, m.2.Readable)
    (hbuild : ∀ a, P a → build ⟨false, members a⟩ = some a)
    (hproper : ∀ r a, build r = some a → P a) : LawfulCodec α P where
  readable a := by
    rw [hwrite]
    exact .object (hreadable a)
  as?_toJson a h := by
    rw [hread, hwrite, record?_object (hnames a) hnodup]
    exact hbuild a h
  proper_of_as? j a h := by
    rw [hread, Option.bind_eq_some_iff] at h
    obtain ⟨r, -, h⟩ := h
    exact hproper r a h

theorem proper_of_required [LawfulCodec α P] {r : Json.Record} {name : String} {a : α}
    (h : r.required name = some a) : P a := by
  rw [Json.Record.required, Option.bind_eq_bind, Option.bind_eq_some_iff] at h
  obtain ⟨j, -, h⟩ := h
  exact proper_of_as? j a h

theorem proper_of_optional [LawfulCodec (Option α) fun o => ∀ a ∈ o, P a] {r : Json.Record}
    {name : String} {o : Option α} (h : r.optional name = some o) : ∀ a ∈ o, P a := by
  unfold Json.Record.optional at h
  split at h
  · exact proper_of_as? _ o h
  · split at h
    · cases h
    · cases h
      exact nofun

/-! ### Basic types -/

instance : LawfulCodec Bool fun _ => True where
  readable := .bool
  as?_toJson _ _ := rfl
  proper_of_as? _ _ _ := trivial

instance : LawfulCodec String fun _ => True where
  readable := .string
  as?_toJson _ _ := rfl
  proper_of_as? _ _ _ := trivial

instance : LawfulCodec Int32 fun _ => True where
  readable n := .integer n.toInt
  as?_toJson n _ := by
    show ((Json.integer n.toInt).integerIn? _ _).map Int32.ofInt = some n
    rw [Json.integerIn?, if_pos ⟨Int32.minValue_le_toInt n, Int32.toInt_le n⟩, Option.map_some,
      Int32.ofInt_toInt]
  proper_of_as? _ _ _ := trivial

theorem integerIn?_eq_some {lo hi n : Int} {j : Json} (h : j.integerIn? lo hi = some n) :
    lo ≤ n ∧ n ≤ hi := by
  unfold Json.integerIn? at h
  split at h
  · split at h
    · next hbounds =>
      cases h
      exact hbounds
    · cases h
  · cases h

/-- A type written like a number. -/
theorem ofNumber {mk : Int32 → α} {val : α → Int32} (hwrite : ∀ a, toJson a = toJson (val a))
    (hread : ∀ j : Json, j.as? α = (j.as? Int32).map mk) (hval : ∀ a, mk (val a) = a) :
    LawfulCodec α fun _ => True where
  readable a := by
    rw [hwrite]
    exact readable (val a)
  as?_toJson a _ := by
    rw [hread, hwrite, as?_toJson (val a) trivial, Option.map_some, hval]
  proper_of_as? _ _ _ := trivial

instance : LawfulCodec Nat IsCount where
  readable n := .integer n
  as?_toJson n h := by
    have hbounds : (0 : Int) ≤ n ∧ (n : Int) ≤ UInt64.size - 1 := by
      rw [IsCount] at h
      omega
    show ((Json.integer n).integerIn? _ _).map Int.toNat = some n
    rw [Json.integerIn?, if_pos hbounds, Option.map_some, Int.toNat_natCast]
  proper_of_as? j n h := by
    replace h : (j.integerIn? 0 (UInt64.size - 1)).map Int.toNat = some n := h
    rw [Option.map_eq_some_iff] at h
    obtain ⟨m, hm, rfl⟩ := h
    have hbounds := integerIn?_eq_some hm
    rw [IsCount]
    omega

theorem as?_timestamp (j : Json) : j.as? Timestamp = (j.as? String).bind Timestamp.parse := rfl

instance : LawfulCodec Timestamp Timestamp.Proper where
  readable t := .string t.render
  as?_toJson t h := by
    have hread : (toJson t).as? String = some t.render := rfl
    rw [as?_timestamp, hread, Option.bind_some, Timestamp.parse_render h]
  proper_of_as? j t h := by
    rw [as?_timestamp, Option.bind_eq_some_iff] at h
    obtain ⟨text, -, h⟩ := h
    exact Timestamp.proper_of_parse h

/-! ### Options, lists and sets -/

theorem as?_option {j : Json} (h : j ≠ .null) : j.as? (Option α) = (j.as? α).map some := by
  cases j with
  | null => exact absurd rfl h
  | _ => rfl

/-- An option is lawful if no value is written like a missing one. -/
theorem option [LawfulCodec α P] (hne : ∀ a : α, toJson a ≠ .null) :
    LawfulCodec (Option α) fun o => ∀ a ∈ o, P a where
  readable o := by
    cases o with
    | none => exact .null
    | some a => exact readable a
  as?_toJson o ho := by
    cases o with
    | none => rfl
    | some a =>
      have hread : (toJson a).as? (Option α) = ((toJson a).as? α).map some := as?_option (hne a)
      show (toJson a).as? (Option α) = some (some a)
      rw [hread, as?_toJson a (ho a rfl), Option.map_some]
  proper_of_as? j o hj := by
    intro a ha
    obtain rfl : o = some a := ha
    by_cases hnull : j = .null
    · rw [hnull] at hj
      cases hj
    · rw [as?_option hnull, Option.map_eq_some_iff] at hj
      obtain ⟨b, hb, hsome⟩ := hj
      cases hsome
      exact proper_of_as? j a hb

instance : LawfulCodec (Option String) fun o => ∀ s ∈ o, True := option nofun

instance : LawfulCodec (Option Timestamp) fun o => ∀ t ∈ o, t.Proper := option nofun

variable [LawfulCodec α fun _ => True]

instance : LawfulCodec (List α) fun _ => True where
  readable xs := by
    refine .array fun j hj => ?_
    obtain ⟨a, -, rfl⟩ := List.mem_map.1 hj
    exact readable a
  as?_toJson xs _ := Json.mapM_map_eq_some xs fun a _ => as?_toJson a trivial
  proper_of_as? _ _ _ := trivial

instance [Ord α] [TransOrd α] [LawfulEqOrd α] [BEq α] [LawfulBEq α] :
    LawfulCodec (ExtTreeSet α) fun _ => True where
  readable s := readable s.toList
  as?_toJson s _ := by
    have hsame : ExtTreeSet.ofList s.toList = s := by
      ext a
      rw [ExtTreeSet.mem_ofList, List.contains_iff_mem, ExtTreeSet.mem_toList]
    show ((toJson s.toList).as? (List α)).map (fun xs => ExtTreeSet.ofList xs) = some s
    rw [as?_toJson s.toList trivial, Option.map_some, hsame]
  proper_of_as? _ _ _ := trivial

end LawfulCodec

end RepoAccess
