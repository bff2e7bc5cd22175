/-
Values of a TOML document.

* `Toml` — a value; of a number with a fraction and of a moment no value is kept.
* `Toml.Entries` — the keys and values of a table.
* `Toml.insert?` — a value under a dotted key.
* `Toml.openTable?`, `Toml.appendTable?` — a table named by a header, an element of an array of
  tables.

A table is given once. One that headers have only passed through may still be given by a header of
its own, or be taken over by dotted keys. One that dotted keys lead through is gone on with by
dotted keys alone; an inline table is complete. A header may lead through any other table, and into
the last element of an array of tables.
-/

namespace RepoAccess

/-- How a table came about. -/
inductive TableOrigin where
  /-- A header names it. -/
  | header
  /-- A header leads through it. -/
  | passed
  /-- A dotted key leads through it. -/
  | dotted
  /-- It is written between braces. -/
  | inline
deriving DecidableEq, Repr

/-- A value of a TOML document. -/
inductive Toml where
  | string (s : String)
  /-- An integer; its value, if it is written in digits of its base. -/
  | integer (n : Option Int)
  | boolean (b : Bool)
  /-- A number with a fraction or an exponent, or one that is not finite; whether it fits into
  double precision. -/
  | float (fits : Bool)
  /-- A date, a time, or both. -/
  | moment
  /-- An array; headers may add tables to it or not. -/
  | array (growing : Bool) (items : List Toml)
  | table (origin : TableOrigin) (entries : List (String × Toml))
deriving Inhabited, Repr

namespace Toml

/-- The keys and values of a table. -/
abbrev Entries := List (String × Toml)

/-- The entries with the value of a key changed; the change sees whether there is one. -/
def alter? (key : String) (change : Option Toml → Option Toml) : Entries → Option Entries
  | [] => (change none).map fun v => [(key, v)]
  | (k, v) :: rest =>
    if k = key then (change (some v)).map fun v => (k, v) :: rest
    else (alter? key change rest).map ((k, v) :: ·)

/-- An array with the entries of its last table changed. -/
def inLast? (change : Entries → Option Entries) (items : List Toml) : Option Toml :=
  match items.reverse with
  | .table origin entries :: before =>
    (change entries).map fun entries => .array true (.table origin entries :: before).reverse
  | _ => none

/-- A value under a dotted key that is new. The tables on the way are its own from then on; no
header may have named them. It may also lead through an array of tables, but not end right below
one. -/
def insert? (v : Toml) : List String → Entries → Option Entries
  | [], _ => none
  | [key], entries =>
    alter? key
      (fun
        | none => some v
        | some _ => none)
      entries
  | key :: next :: rest, entries =>
    let below := insert? v (next :: rest)
    alter? key
      (fun
        | none => (below []).map (.table .dotted)
        | some (.table .dotted entries) => (below entries).map (.table .dotted)
        | some (.table .passed entries) => (below entries).map (.table .dotted)
        | some (.array true items) => if rest.isEmpty then none else inLast? below items
        | _ => none)
      entries

/-- A change of the table that a header leads to, through tables that need not be there yet. -/
def atHeader? (change : Entries → Option Entries) : List String → Entries → Option Entries
  | [], entries => change entries
  | key :: rest, entries =>
    let below := atHeader? change rest
    alter? key
      (fun
        | none => (below []).map (.table .passed)
        | some (.table .inline _) => none
        | some (.table origin entries) => (below entries).map (.table origin)
        | some (.array true items) => inLast? below items
        | _ => none)
      entries

/-- A table that a header names. -/
def openTable? (path : List String) (key : String) : Entries → Option Entries :=
  atHeader?
    (alter? key fun
      | none => some (.table .header [])
      | some (.table .passed entries) => some (.table .header entries)
      | _ => none)
    path

/-- A new element of an array of tables that a header names. -/
def appendTable? (path : List String) (key : String) : Entries → Option Entries :=
  atHeader?
    (alter? key fun
      | none => some (.array true [.table .header []])
      | some (.array true items) => some (.array true (items ++ [.table .header []]))
      | _ => none)
    path

end Toml

end RepoAccess
