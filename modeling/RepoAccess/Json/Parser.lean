/-
Reading a JSON text.

* `Json.parse` — the value of a text, or `none` if the text is not JSON.
* `Json.readValue` — the value at the start of a text, and what stands behind it.

The grammar is that of RFC 8259. Nothing but blanks may follow the value.
-/
import RepoAccess.Json.Basic

namespace RepoAccess

namespace Json

open Text (digitsValue hexValue?)

/-! ### Blanks and numbers -/

/-- The blanks of the grammar. -/
def isSpace (c : Char) : Bool :=
  c == ' ' || c == '\t' || c == '\n' || c == '\r'

/-- The text from its first character that is no blank. -/
def skipSpace (cs : List Char) : List Char :=
  cs.dropWhile isSpace

/-- The digits of a whole number: a zero stands alone. -/
def readWhole : List Char → Option (List Char × List Char)
  | '0' :: rest => some (['0'], rest)
  | cs =>
    let digits := cs.takeWhile Char.isDigit
    if digits.isEmpty then none else some (digits, cs.dropWhile Char.isDigit)

/-- The text behind one digit or more. -/
def skipDigits? (cs : List Char) : Option (List Char) :=
  if (cs.takeWhile Char.isDigit).isEmpty then none else some (cs.dropWhile Char.isDigit)

/-- The text behind an optional fraction, and whether there was one. -/
def skipFraction : List Char → Option (Bool × List Char)
  | '.' :: rest => (skipDigits? rest).map (true, ·)
  | cs => some (false, cs)

/-- The text behind an optional exponent, and whether there was one. -/
def skipExponent : List Char → Option (Bool × List Char)
  | 'e' :: '+' :: rest | 'e' :: '-' :: rest | 'E' :: '+' :: rest | 'E' :: '-' :: rest
  | 'e' :: rest | 'E' :: rest => (skipDigits? rest).map (true, ·)
  | cs => some (false, cs)

/-- A number without its sign. Only whole numbers denote a value. -/
def readUnsigned (negative : Bool) (cs : List Char) : Option (Json × List Char) := do
  let (digits, rest) ← readWhole cs
  let (fraction, rest) ← skipFraction rest
  let (exponent, rest) ← skipExponent rest
  let n := digitsValue digits
  if fraction || exponent || (negative && n == 0) then return (.unreadable, rest)
  else return (.integer (if negative then -(n : Int) else n), rest)

/-- A number. -/
def readNumber : List Char → Option (Json × List Char)
  | '-' :: rest => readUnsigned true rest
  | cs => readUnsigned false cs

/-! ### Strings -/

/-- The value of four hexadecimal digits. -/
def hexQuad? (a b c d : Char) : Option Nat := do
  return (((← hexValue? a) * 16 + (← hexValue? b)) * 16 + (← hexValue? c)) * 16 + (← hexValue? d)

/-- The first half of a surrogate pair. -/
def isHighSurrogate (n : Nat) : Bool := 0xd800 ≤ n && n < 0xdc00

/-- The second half of a surrogate pair. -/
def isLowSurrogate (n : Nat) : Bool := 0xdc00 ≤ n && n < 0xe000

/-- The character that a surrogate pair denotes. -/
def pairedChar (high low : Nat) : Char :=
  Char.ofNat (0x10000 + (high - 0xd800) * 0x400 + (low - 0xdc00))

/-- The character of an escape with one letter. -/
def shortEscape? : Char → Option Char
  | '"' => some '"'
  | '\\' => some '\\'
  | '/' => some '/'
  | 'b' => some '\x08'
  | 'f' => some '\x0c'
  | 'n' => some '\n'
  | 'r' => some '\r'
  | 't' => some '\t'
  | _ => none

/-- A string behind its opening quote: the characters it denotes, or none of them when it holds
half a surrogate pair, and the text behind the closing quote. -/
def readText : List Char → Option (Option (List Char) × List Char)
  | '"' :: rest => some (some [], rest)
  | '\\' :: 'u' :: a :: b :: c :: d :: rest => do
    let n ← hexQuad? a b c d
    if isHighSurrogate n then
      match rest with
      | '\\' :: 'u' :: e :: f :: g :: h :: rest =>
        let m ← hexQuad? e f g h
        let (text, rest) ← readText rest
        return (if isLowSurrogate m then text.map (pairedChar n m :: ·) else none, rest)
      | rest =>
        let (_, rest) ← readText rest
        return (none, rest)
    else
      let (text, rest) ← readText rest
      return (if isLowSurrogate n then none else text.map (Char.ofNat n :: ·), rest)
  | '\\' :: c :: rest => do
    let c ← shortEscape? c
    let (text, rest) ← readText rest
    return (text.map (c :: ·), rest)
  | c :: rest =>
    if c.toNat < 32 || c == '\\' then none
    else do
      let (text, rest) ← readText rest
      return (text.map (c :: ·), rest)
  | [] => none

/-- The value of a string that was read. -/
def ofText (text : Option (List Char)) : Json :=
  match text with
  | some cs => .string (String.ofList cs)
  | none => .unreadable

/-- The value of an object that was read. A name that denotes no text makes all of it unreadable. -/
def ofMembers (members : List (Option (List Char) × Json)) : Json :=
  match members.mapM fun (name, v) => name.map fun cs => (String.ofList cs, v) with
  | some members => .object members
  | none => .unreadable

/-! ### Values -/

mutual

/-- The value at the start of a text, and the text behind it. The fuel bounds the nesting. -/
def readValue : Nat → List Char → Option (Json × List Char)
  | 0, _ => none
  | fuel + 1, cs =>
    match skipSpace cs with
    | 'n' :: 'u' :: 'l' :: 'l' :: rest => some (.null, rest)
    | 't' :: 'r' :: 'u' :: 'e' :: rest => some (.bool true, rest)
    | 'f' :: 'a' :: 'l' :: 's' :: 'e' :: rest => some (.bool false, rest)
    | '"' :: rest => do
      let (text, rest) ← readText rest
      return (ofText text, rest)
    | '[' :: rest =>
      match skipSpace rest with
      | ']' :: rest => some (.array [], rest)
      | rest => do
        let (items, rest) ← readItems fuel rest
        return (.array items, rest)
    | '\x7b' :: rest =>
      match skipSpace rest with
      | '\x7d' :: rest => some (.object [], rest)
      | rest => do
        let (members, rest) ← readMembers fuel rest
        return (ofMembers members, rest)
    | cs => readNumber cs

/-- The items of an array, up to the closing bracket. -/
def readItems : Nat → List Char → Option (List Json × List Char)
  | 0, _ => none
  | fuel + 1, cs => do
    let (v, rest) ← readValue fuel cs
    match skipSpace rest with
    | ']' :: rest => return ([v], rest)
    | ',' :: rest =>
      let (vs, rest) ← readItems fuel rest
      return (v :: vs, rest)
    | _ => none

/-- The members of an object, up to the closing brace. -/
def readMembers : Nat → List Char → Option (List (Option (List Char) × Json) × List Char)
  | 0, _ => none
  | fuel + 1, cs =>
    match skipSpace cs with
    | '"' :: rest => do
      let (name, rest) ← readText rest
      match skipSpace rest with
      | ':' :: rest =>
        let (v, rest) ← readValue fuel rest
        match skipSpace rest with
        | '\x7d' :: rest => return ([(name, v)], rest)
        | ',' :: rest =>
          let (more, rest) ← readMembers fuel rest
          return ((name, v) :: more, rest)
        | _ => none
      | _ => none
    | _ => none

end

/-- The value of a text; each level of nesting takes a character, so the length is fuel enough. -/
def parse (text : String) : Option Json :=
  let cs := text.toList
  match readValue (cs.length + 1) cs with
  | some (v, rest) => if (skipSpace rest).isEmpty then some v else none
  | none => none

end Json

end RepoAccess
