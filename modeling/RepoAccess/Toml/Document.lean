/-
TOML documents.

* `Toml.readValue` — a value of any kind.
* `Toml.Line` — what a line of a document says.
* `Toml.parse` — the table of a document.

Arrays and inline tables may spread over lines and may end with a comma. How deep they may be nested
is limited, and so is the number of parts of a key.
-/
import RepoAccess.Toml.Scalar

namespace RepoAccess.Toml

/-! ### Values -/

mutual

/-- The value at the start of a text, which may be nested as deep as told. The fuel bounds the
values. -/
def readValue : Nat → Nat → List Char → Option (Toml × List Char)
  | 0, _, _ => none
  | fuel + 1, depth, cs =>
    match cs with
    | '"' :: _ | '\'' :: _ => (readString cs).map fun (s, rest) => (.string s, rest)
    | '[' :: rest => do
      if depth = 0 then none
      let (items, rest) ← readItems fuel (depth - 1) rest
      return (.array false items, rest)
    | '\x7b' :: rest => do
      if depth = 0 then none
      let (entries, rest) ← readEntries fuel (depth - 1) [] rest
      return (.table .inline entries, rest)
    | cs =>
      let (word, rest) := readWord cs
      (scalar? word).map (·, rest)

/-- The items of an array, up to the closing bracket. -/
def readItems : Nat → Nat → List Char → Option (List Toml × List Char)
  | 0, _, _ => none
  | fuel + 1, depth, cs => do
    match ← skipLines cs.length cs with
    | ']' :: rest => return ([], rest)
    | rest =>
      let (item, rest) ← readValue fuel depth rest
      match ← skipLines rest.length rest with
      | ']' :: rest => return ([item], rest)
      | ',' :: rest =>
        let (items, rest) ← readItems fuel depth rest
        return (item :: items, rest)
      | _ => none

/-- The entries of an inline table behind those it has so far, up to the closing brace. -/
def readEntries : Nat → Nat → Entries → List Char → Option (Entries × List Char)
  | 0, _, _, _ => none
  | fuel + 1, depth, entries, cs => do
    match ← skipLines cs.length cs with
    | '\x7d' :: rest => return (entries, rest)
    | rest =>
      let (key, rest) ← readKey maxNesting rest
      let (v, rest) ← readValue fuel depth (skipBlanks (← skipMark ['='] rest))
      let entries ← insert? v key entries
      match ← skipLines rest.length rest with
      | '\x7d' :: rest => return (entries, rest)
      | ',' :: rest => readEntries fuel depth entries rest
      | _ => none

end

/-! ### Lines -/

/-- What a line of a document says. -/
inductive Line where
  | blank
  | entry (key : List String) (v : Toml)
  | table (path : List String) (key : String)
  | element (path : List String) (key : String)

/-- A header behind its opening brackets, up to the closing ones. -/
def readHeader (closing : List Char) (make : List String → String → Line) (cs : List Char) :
    Option (Line × List Char) := do
  let (key, rest) ← readKey maxNesting cs
  return (make key.dropLast (key.getLast?.getD ""), ← skipMark closing rest)

/-- A line without what may follow it. -/
def readLineStart (cs : List Char) : Option (Line × List Char) :=
  match skipBlanks cs with
  | '[' :: '[' :: rest => readHeader [']', ']'] .element rest
  | '[' :: rest => readHeader [']'] .table rest
  | [] => some (.blank, [])
  | '#' :: rest => some (.blank, '#' :: rest)
  | '\n' :: rest => some (.blank, '\n' :: rest)
  | '\r' :: rest => some (.blank, '\r' :: rest)
  | cs => do
    let (key, rest) ← readKey maxNesting cs
    let (v, rest) ← readValue (cs.length + 1) maxNesting (skipBlanks (← skipMark ['='] rest))
    return (.entry key v, rest)

/-- The lines of a text. The fuel bounds their number. -/
def readLines : Nat → List Char → Option (List Line)
  | 0, _ => some []
  | fuel + 1, cs => do
    let (line, rest) ← readLineStart cs
    match ← skipRestOfLine rest with
    | [] => return [line]
    | rest => return line :: (← readLines fuel rest)

/-! ### Documents -/

/-- The table with a line added; with it goes the path of the table that entries belong to. -/
def addLine? (progress : List String × Entries) : Line → Option (List String × Entries)
  | .blank => some progress
  | .entry key v => do
    let (current, entries) := progress
    return (current, ← atHeader? (insert? v key) current entries)
  | .table path key => do return (path ++ [key], ← openTable? path key progress.2)
  | .element path key => do return (path ++ [key], ← appendTable? path key progress.2)

/-- The table of a document; a mark of the byte order may stand in front of it. -/
def parse (text : String) : Option Toml := do
  let cs := match text.toList with
    | '\uFEFF' :: rest => rest
    | cs => cs
  let (_, entries) ← (← readLines (cs.length + 1) cs).foldlM addLine? ([], [])
  return .table .header entries

end RepoAccess.Toml
