/-
Values of an SQL database and rows of them.

* `SqlValue` — what a parameter or a column holds.
* `SqlCodec` — how a type is held in a value and read back.
* `Row` — the columns of a row by name.
* `Row.read` — the value of a column, which must hold one of the type.

A set is held as an array in ascending order; read back, its array may have any order and
repetitions.
-/
import RepoAccess.Error
import RepoAccess.Holdings

namespace RepoAccess

open Std

/-- What a parameter or a column holds. -/
inductive SqlValue where
  | null
  | int (n : Int32)
  | text (s : String)
  | ints (ns : List Int32)
  | texts (ss : List String)
  | time (t : Timestamp)
deriving DecidableEq, Repr

/-- How a type is held in a value and read back. -/
class SqlCodec (α : Type) where
  toSql : α → SqlValue
  ofSql? : SqlValue → Option α

export SqlCodec (toSql)

/-! ### Types that are held in one value -/

instance : SqlCodec Int32 where
  toSql := .int
  ofSql?
    | .int n => some n
    | _ => none

instance : SqlCodec String where
  toSql := .text
  ofSql?
    | .text s => some s
    | _ => none

instance : SqlCodec (List Int32) where
  toSql := .ints
  ofSql?
    | .ints ns => some ns
    | _ => none

instance : SqlCodec (List String) where
  toSql := .texts
  ofSql?
    | .texts ss => some ss
    | _ => none

instance : SqlCodec Timestamp where
  toSql := .time
  ofSql?
    | .time t => some t
    | _ => none

instance {α : Type} [SqlCodec α] : SqlCodec (Option α) where
  toSql
    | some a => toSql a
    | none => .null
  ofSql?
    | .null => some none
    | v => (SqlCodec.ofSql? v).map some

instance : SqlCodec UserId where
  toSql user := toSql user.val
  ofSql? v := (SqlCodec.ofSql? v).map UserId.mk

instance : SqlCodec RepoId where
  toSql repo := toSql repo.val
  ofSql? v := (SqlCodec.ofSql? v).map RepoId.mk

instance : SqlCodec AccountId where
  toSql account := toSql account.val
  ofSql? v := (SqlCodec.ofSql? v).map AccountId.mk

instance : SqlCodec UserSet where
  toSql users := toSql (users.toList.map (·.val))
  ofSql? v := (SqlCodec.ofSql? v).map fun (ns : List Int32) => .ofList (ns.map UserId.mk)

instance : SqlCodec RepoSet where
  toSql repos := toSql (repos.toList.map (·.val))
  ofSql? v := (SqlCodec.ofSql? v).map fun (ns : List Int32) => .ofList (ns.map RepoId.mk)

instance : SqlCodec NameSet where
  toSql names := toSql names.toList
  ofSql? v := (SqlCodec.ofSql? v).map fun (ss : List String) => .ofList ss

/-! ### Rows -/

/-- The columns of a row by name. -/
abbrev Row := List (String × SqlValue)

namespace Row

/-- The values of a row in the order of its columns. -/
def values (row : Row) : List SqlValue := row.map (·.2)

/-- What a column holds; a column that the row lacks holds nothing. -/
def value (row : Row) (column : String) : SqlValue := (row.lookup column).getD .null

/-- The value of a column, which must hold one of the type; `shown` is what a failure calls it. -/
def readAs (α : Type) [SqlCodec α] (row : Row) (column : String) (shown : ColumnRef) :
    Except AccessError α :=
  match SqlCodec.ofSql? (row.value column) with
  | some a => .ok a
  | none => .error (.database (.missingValue shown))

/-- The value of a column that is asked for by name. -/
def read (α : Type) [SqlCodec α] (row : Row) (column : String) : Except AccessError α :=
  row.readAs α column (.named column)

end Row

end RepoAccess
