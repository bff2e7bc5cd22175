/-
Values of the library as JSON.

* `JsonCodec` — how a type is written as JSON and read back.
* `Json.record?` — the fields of a record, given as an object or as an array in field order.
* `Json.variant?` — the alternative of an enumeration, with the value it carries.

A record read from an object may hold members nobody asked for, but no asked member twice; read
from an array it may end early, and then every missing field needs a default of its own. An
alternative is written as its name, or as an object with the name as its only member.
-/
import RepoAccess.Json.Parser

namespace RepoAccess

/-- How a type is written as JSON and read back. -/
class JsonCodec (α : Type) where
  toJson : α → Json
  ofJson? : Json → Option α

export JsonCodec (toJson)

namespace Json

/-- The value of a type that a JSON value denotes. -/
def as? (α : Type) [JsonCodec α] (j : Json) : Option α := JsonCodec.ofJson? j

/-! ### Records -/

/-- The fields of a record as they were given. -/
structure Record where
  /-- The fields come from an array. -/
  positional : Bool
  fields : List (String × Json)

/-- The fields of those names; `none` when the value is no record or gives a field twice or gives
too many. -/
def record? (names : List String) : Json → Option Record
  | .object members =>
    let known := members.filter fun (name, _) => names.contains name
    if (known.map Prod.fst).Nodup then some ⟨false, known⟩ else none
  | .array items => if items.length ≤ names.length then some ⟨true, names.zip items⟩ else none
  | _ => none

/-- A field that must be given. -/
def Record.required {α : Type} [JsonCodec α] (r : Record) (name : String) : Option α := do
  (← r.fields.lookup name).as? α

/-- A field with a default. -/
def Record.orDefault {α : Type} [JsonCodec α] (r : Record) (name : String) (default : α) :
    Option α :=
  match r.fields.lookup name with
  | some v => v.as? α
  | none => some default

/-- A field that may be absent from an object, but not from an array. -/
def Record.optional {α : Type} [JsonCodec (Option α)] (r : Record) (name : String) :
    Option (Option α) :=
  match r.fields.lookup name with
  | some v => v.as? (Option α)
  | none => if r.positional then none else some none

/-! ### Alternatives -/

/-- The name of an alternative and the value it carries. -/
def variant? : Json → Option (String × Option Json)
  | .string name => some (name, none)
  | .object [(name, v)] => some (name, some v)
  | _ => none

/-- The name of an alternative that carries nothing. -/
def plainVariant? (j : Json) : Option String :=
  match j.variant? with
  | some (name, none) | some (name, some .null) => some name
  | _ => none

end Json

/-! ### Basic types -/

instance : JsonCodec Json := ⟨id, some⟩

instance : JsonCodec Bool where
  toJson := .bool
  ofJson?
    | .bool b => some b
    | _ => none

instance : JsonCodec String where
  toJson := .string
  ofJson?
    | .string s => some s
    | _ => none

/-- An integer from `lo` to `hi`. -/
def Json.integerIn? (lo hi : Int) : Json → Option Int
  | .integer n => if lo ≤ n ∧ n ≤ hi then some n else none
  | _ => none

instance : JsonCodec Int32 where
  toJson n := .integer n.toInt
  ofJson? j := (j.integerIn? Int32.minValue.toInt Int32.maxValue.toInt).map Int32.ofInt

instance : JsonCodec UInt16 where
  toJson n := .integer n.toNat
  ofJson? j := (j.integerIn? 0 (UInt16.size - 1)).map fun n => n.toNat.toUInt16

instance : JsonCodec UInt32 where
  toJson n := .integer n.toNat
  ofJson? j := (j.integerIn? 0 (UInt32.size - 1)).map fun n => n.toNat.toUInt32

instance : JsonCodec UInt64 where
  toJson n := .integer n.toNat
  ofJson? j := (j.integerIn? 0 (UInt64.size - 1)).map fun n => n.toNat.toUInt64

/-- Counts are read up to the largest 64-bit number. -/
instance : JsonCodec Nat where
  toJson n := .integer n
  ofJson? j := (j.integerIn? 0 (UInt64.size - 1)).map Int.toNat

instance {α : Type} [JsonCodec α] : JsonCodec (Option α) where
  toJson
    | some a => toJson a
    | none => .null
  ofJson?
    | .null => some none
    | j => (j.as? α).map some

instance {α : Type} [JsonCodec α] : JsonCodec (List α) where
  toJson xs := .array (xs.map toJson)
  ofJson?
    | .array items => items.mapM (·.as? α)
    | _ => none

end RepoAccess
