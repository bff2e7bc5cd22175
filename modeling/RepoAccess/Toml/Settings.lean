/-
Settings from a TOML document.

Every value has a type, and none is taken for one of another type. A section may be given as an
array of its fields in order, whose further items do not count. A moment stands for a section with
nothing in it. An alternative is named by a string, or by a table with the name as its only key and
nothing under it. A number that is passed over must still be one that can be kept.
-/
import RepoAccess.Config.Node
import RepoAccess.Toml.Document

namespace RepoAccess.Toml

/-- The value is a table or an array without anything in it. -/
def isEmpty : Toml → Bool
  | .array _ [] | .table _ [] => true
  | _ => false

/-- The integer can be kept in 128 bits, with or without a sign. -/
def isInRange (n : Int) : Bool := -(Nat.pow 2 127 : Int) ≤ n && n < Nat.pow 2 128

mutual

/-- All numbers in a value can be kept. -/
def isKept : Toml → Bool
  | .integer n => n.any isInRange
  | .float fits => fits
  | .array _ items => areKept items
  | .table _ entries => entriesKept entries
  | .string _ | .boolean _ | .moment => true

/-- All numbers in the items of an array can be kept. -/
def areKept : List Toml → Bool
  | [] => true
  | v :: rest => v.isKept && areKept rest

/-- All numbers in the values of a table can be kept. -/
def entriesKept : List (String × Toml) → Bool
  | [] => true
  | (_, v) :: rest => v.isKept && entriesKept rest

end

instance : SettingsNode Toml where
  fields? names
    | .table _ entries =>
      let (known, others) := entries.partition fun (key, _) => names.contains key
      if entriesKept others then some known else none
    | .array _ items => some (names.zip items)
    | .moment => some []
    | _ => none
  text?
    | .string s => some s
    | _ => none
  number? bound
    | .integer (some n) => if 0 ≤ n ∧ n < bound then some n.toNat else none
    | _ => none
  truthValue?
    | .boolean b => some b
    | _ => none
  choice?
    | .string s => some s
    | .table _ [(key, v)] => if v.isEmpty then some key else none
    | _ => none
  optional? v := some (some v)

end RepoAccess.Toml
