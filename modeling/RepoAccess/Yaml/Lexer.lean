/-
A YAML text as tokens.

* `Yaml.Lexer` — where the text is read, and what that depends on.
* `Yaml.tokens?` — the tokens of a text.

A block collection begins where a mark stands deeper than the collection around it, and ends where a
token stands less deep. What comes before a colon turns out to be a key only at the colon, so the
place where it began is kept: the tokens for a key are put in there afterwards. Such a key is no
longer than a line and 1024 bytes; one that stands where the block's keys stand must meet its colon.

One mark of the byte order at the start of a line in front of a token is passed over, but fills a
column; anywhere else it is a character like others.
-/
import RepoAccess.Text.Utf8
import RepoAccess.Yaml.Scalar
import RepoAccess.Yaml.Token

namespace RepoAccess.Yaml

/-! ### Places -/

/-- A place in a text, each number counted from zero. -/
structure Place where
  line : Nat := 0
  /-- The characters before it on its line. -/
  column : Nat := 0
  /-- The bytes before it. -/
  index : Nat := 0
deriving DecidableEq, Repr

/-- The place behind some characters. -/
def Place.behind (p : Place) : List Char → Place
  | [] => p
  | '\r' :: '\n' :: rest => Place.behind ⟨p.line + 1, 0, p.index + 2⟩ rest
  | c :: rest =>
    if isBreak c then Place.behind ⟨p.line + 1, 0, p.index + c.utf8Size⟩ rest
    else Place.behind ⟨p.line, p.column + 1, p.index + c.utf8Size⟩ rest

/-- What may turn out to be a key. -/
structure PendingKey where
  /-- The number of tokens before it. -/
  tokens : Nat
  place : Place
  /-- It stands where the keys of its block stand. -/
  required : Bool
deriving DecidableEq, Repr

/-- Where the text is read, and what that depends on. -/
structure Lexer where
  place : Place := {}
  rest : List Char
  /-- The columns of the block collections that are open, the innermost first. -/
  columns : List Nat := []
  /-- What may turn out to be a key, in each open flow collection and around them all. -/
  keys : List (Option PendingKey) := [none]
  /-- A key may begin here. -/
  keyAllowed : Bool := true
  /-- The tokens so far, the last one first. -/
  tokens : List Token := []

namespace Lexer

/-! ### Parts of the state -/

/-- A flow collection is open. -/
def inFlow (l : Lexer) : Bool := 1 < l.keys.length

/-- The column behind that of the innermost block collection; zero outside all of them. -/
def floor (l : Lexer) : Nat :=
  match l.columns with
  | column :: _ => column + 1
  | [] => 0

/-- The lexer further on in the text. -/
def moveTo (l : Lexer) (rest : List Char) : Lexer :=
  { l with place := l.place.behind (l.rest.take (l.rest.length - rest.length)), rest }

/-- The lexer behind some characters. -/
def skip (l : Lexer) (n : Nat) : Lexer := l.moveTo (l.rest.drop n)

/-- The lexer with one more token. -/
def add (token : Token) (l : Lexer) : Lexer := { l with tokens := token :: l.tokens }

/-- The lexer with a token put in behind the first `n`. -/
def insert (token : Token) (n : Nat) (l : Lexer) : Lexer :=
  { l with tokens := l.tokens.insertIdx (l.tokens.length - n) token }

/-- Whether a key may begin behind what is read next. -/
def allowKey (allowed : Bool) (l : Lexer) : Lexer := { l with keyAllowed := allowed }

/-! ### Keys and blocks -/

/-- Nothing that was read may turn out to be a key any more, at the level that is open. -/
def dropKey (l : Lexer) : Option Lexer :=
  match l.keys with
  | some key :: keys => if key.required then none else some { l with keys := none :: keys }
  | _ => some l

/-- What is read next may turn out to be a key. -/
def noteKey (l : Lexer) : Option Lexer :=
  if l.keyAllowed then do
    let l ← l.dropKey
    let key : PendingKey :=
      ⟨l.tokens.length, l.place, !l.inFlow && l.floor == l.place.column + 1⟩
    return { l with keys := some key :: l.keys.drop 1 }
  else some l

/-- What may turn out to be a key, unless it is too far back. -/
def stillPending (place : Place) : Option PendingKey → Option (Option PendingKey)
  | some key =>
    if key.place.line < place.line || key.place.index + 1024 < place.index then
      if key.required then none else some none
    else some (some key)
  | none => some none

/-- Forgets what is too far back to be a key. -/
def dropStaleKeys (l : Lexer) : Option Lexer := do
  return { l with keys := ← l.keys.mapM (stillPending l.place) }

/-- Ends the block collections that start at a column or behind it, unless a flow collection is
open. -/
def closeBlocks (column : Nat) (l : Lexer) : Lexer :=
  if l.inFlow then l
  else
    let closed := l.columns.takeWhile (column ≤ ·)
    { l with columns := l.columns.drop closed.length
             tokens := closed.map (fun _ => .blockEnd) ++ l.tokens }

/-- Begins a block collection at a column, behind the first `n` tokens, if none of that depth is
open. -/
def openBlock (token : Token) (column n : Nat) (l : Lexer) : Lexer :=
  if l.inFlow || column < l.floor then l
  else { l.insert token n with columns := column :: l.columns }

/-! ### Blanks and comments -/

/-- The text behind blanks, comments and ends of lines, and whether a key may begin there. Outside
flow collections it may at the start of a line, and no tab may stand where it may. A mark of the
byte order may stand at the start of a line. -/
def skipBlanks (inFlow : Bool) : Bool → Bool → Bool → List Char → Bool × List Char
  | _, _, allowed, [] => (allowed, [])
  | lineStart, inComment, allowed, c :: rest =>
    if isBreak c then skipBlanks inFlow true false (allowed || !inFlow) rest
    else if inComment || c == ' ' || (c == '\t' && (inFlow || !allowed)) ||
        (lineStart && c == '\uFEFF') then
      skipBlanks inFlow false inComment allowed rest
    else if c == '#' then skipBlanks inFlow false true allowed rest
    else (allowed, c :: rest)

/-! ### Directives -/

/-- The character may stand in a name. -/
def isNameChar (c : Char) : Bool := c.isAlphanum || c == '_' || c == '-'

/-- The text behind a blank or more. -/
def skipSome (cs : List Char) : Option (List Char) :=
  if cs.head?.any isBlank then some (cs.dropWhile isBlank) else none

/-- A number of up to nine digits. -/
def readNumber (cs : List Char) : Option (Nat × List Char) :=
  let digits := cs.takeWhile Char.isDigit
  if digits.isEmpty || 9 < digits.length then none
  else some (Text.digitsValue digits, cs.drop digits.length)

/-- The character may stand in the address of a tag, in angle brackets or not. -/
def isUriChar (inBrackets : Bool) (c : Char) : Bool :=
  isNameChar c || [';', '/', '?', ':', '@', '&', '=', '+', '$', '.', '%', '!', '~', '*', '\'', '(',
    ')'].contains c || (inBrackets && [',', '[', ']'].contains c)

/-- How many bytes of the form `10xxxxxx` must follow a byte. -/
def tailLength? (lead : UInt8) : Option Nat :=
  if lead < 0x80 then some 0
  else if 0xC0 ≤ lead ∧ lead < 0xE0 then some 1
  else if 0xE0 ≤ lead ∧ lead < 0xF0 then some 2
  else if 0xF0 ≤ lead ∧ lead < 0xF8 then some 3
  else none

/-- The bytes of an address, behind an escaped one that `missing` more escapes must follow. -/
def uriBytes : Nat → List Char → Option (List UInt8)
  | 0, [] => some []
  | missing, '%' :: h :: l :: rest => do
    let byte := (16 * (← Text.hexValue? h) + (← Text.hexValue? l)).toUInt8
    match missing with
    | 0 => return byte :: (← uriBytes (← tailLength? byte) rest)
    | missing + 1 =>
      if 0x80 ≤ byte ∧ byte < 0xC0 then return byte :: (← uriBytes missing rest) else none
  | _, '%' :: _ => none
  | 0, c :: rest => (c.toNat.toUInt8 :: ·) <$> uriBytes 0 rest
  | _ + 1, _ => none

/-- The address of a tag at the start of a text, which may be empty. A null byte ends it before its
other characters. -/
def readUri (inBrackets : Bool) (cs : List Char) : Option (Tag × Bool × List Char) := do
  let uri := cs.takeWhile (isUriChar inBrackets)
  let bytes ← uriBytes 0 uri
  return (bytes.takeWhile (· != 0), uri.isEmpty, cs.drop uri.length)

/-- A tag handle: an exclamation mark, or a name between two of them. -/
def readHandle : List Char → Option (String × List Char)
  | '!' :: rest =>
    let title := rest.takeWhile isNameChar
    match rest.drop title.length with
    | '!' :: rest => some (String.ofList ('!' :: title ++ ['!']), rest)
    | rest => some (String.ofList ('!' :: title), rest)
  | _ => none

/-- What a directive says, behind its percent sign. -/
def readDirective (cs : List Char) : Option (Token × List Char) := do
  let title := cs.takeWhile isNameChar
  let rest ← skipSome (cs.drop title.length)
  match String.ofList title with
  | "YAML" =>
    let (major, rest) ← readNumber rest
    match rest with
    | '.' :: rest =>
      let (minor, rest) ← readNumber rest
      return (.version major minor, rest)
    | _ => none
  | "TAG" =>
    let (handle, rest) ← readHandle rest
    if handle != "!" && !(handle.endsWith "!" && 1 < handle.length) then none
    let (uri, isMissing, rest) ← readUri true (← skipSome rest)
    if isMissing || !startsBlank rest then none
    return (.handle handle uri, rest)
  | _ => none

/-- Reads a directive; only a comment may follow it on its line. -/
def lexDirective (l : Lexer) : Option Lexer := do
  let l ← (l.closeBlocks 0).dropKey
  let (token, rest) ← readDirective (l.rest.drop 1)
  let rest := rest.dropWhile isBlank
  let rest := if rest.head? = some '#' then rest.dropWhile fun c => !isBreak c else rest
  if !(rest.isEmpty || rest.head?.any isBreak) then none
  return ((l.moveTo (cutBreak rest).2).add token).allowKey false

/-! ### Marks -/

/-- Reads the mark that starts or ends a document. -/
def lexDocumentMark (token : Token) (l : Lexer) : Option Lexer := do
  let l ← (l.closeBlocks 0).dropKey
  return ((l.skip 3).add token).allowKey false

/-- Reads the bracket that opens a flow collection. -/
def lexFlowStart (token : Token) (l : Lexer) : Option Lexer := do
  let l ← l.noteKey
  return (({ l with keys := none :: l.keys }.skip 1).add token).allowKey true

/-- Reads the bracket that closes a flow collection. -/
def lexFlowEnd (token : Token) (l : Lexer) : Option Lexer := do
  let l ← l.dropKey
  let keys := if l.inFlow then l.keys.drop 1 else l.keys
  return (({ l with keys }.skip 1).add token).allowKey false

/-- Reads a comma. -/
def lexComma (l : Lexer) : Option Lexer := do
  let l ← l.dropKey
  return ((l.skip 1).add .comma).allowKey true

/-- Begins a block collection at the next mark, which must stand where a key may begin. -/
def openHere (token : Token) (l : Lexer) : Option Lexer :=
  if l.inFlow then some l
  else if l.keyAllowed then some (l.openBlock token l.place.column l.tokens.length)
  else none

/-- Reads the hyphen of a block sequence. -/
def lexItem (l : Lexer) : Option Lexer := do
  let l ← (← l.openHere .blockSequence).dropKey
  return ((l.skip 1).add .item).allowKey true

/-- Reads a question mark. -/
def lexKey (l : Lexer) : Option Lexer := do
  let l ← (← l.openHere .blockMapping).dropKey
  return ((l.skip 1).add .key).allowKey !l.inFlow

/-- Reads a colon. What may be a key in front of it is one. -/
def lexValue (l : Lexer) : Option Lexer :=
  match l.keys with
  | some key :: keys =>
    let l := (l.insert .key key.tokens).openBlock .blockMapping key.place.column key.tokens
    some ((({ l with keys := none :: keys }.skip 1).add .value).allowKey false)
  | _ => do
    let l ← l.openHere .blockMapping
    return ((l.skip 1).add .value).allowKey !l.inFlow

/-! ### Properties and scalars -/

/-- The character may stand right behind the name of an anchor. -/
def endsName (cs : List Char) : Bool :=
  startsBlank cs || cs.head?.any fun c => ['?', ':', ',', ']', '\x7d', '%', '@', '`'].contains c

/-- Reads an anchor or an alias. -/
def lexName (make : String → Token) (l : Lexer) : Option Lexer := do
  let l ← l.noteKey
  let title := (l.rest.drop 1).takeWhile isNameChar
  let rest := l.rest.drop (title.length + 1)
  if title.isEmpty || !endsName rest then none
  return ((l.moveTo rest).add (make (String.ofList title))).allowKey false

/-- A tag: an address in angle brackets, or a handle and the rest of an address. -/
def readTag (cs : List Char) : Option (Token × List Char) := do
  match cs with
  | '!' :: '<' :: rest =>
    let (uri, isMissing, rest) ← readUri true rest
    match rest with
    | '>' :: rest => if isMissing then none else return (.tag "" uri, rest)
    | _ => none
  | cs =>
    let (handle, rest) ← readHandle cs
    let (uri, isMissing, rest) ← readUri false rest
    if 1 < handle.length && handle.endsWith "!" then
      if isMissing then none else return (.tag handle uri, rest)
    else
      let suffix := Text.Utf8.encode (handle.drop 1).toString ++ uri
      return (if suffix.isEmpty then .tag "" (Text.Utf8.encode "!") else .tag "!" suffix, rest)

/-- Reads a tag. -/
def lexTag (l : Lexer) : Option Lexer := do
  let l ← l.noteKey
  let (token, rest) ← readTag l.rest
  if !startsBlank rest && !(l.inFlow && rest.head? = some ',') then none
  return ((l.moveTo rest).add token).allowKey false

/-- Reads a quoted scalar. -/
def lexQuoted (quote : Char) (l : Lexer) : Option Lexer := do
  let l ← l.noteKey
  let (text, rest) ← readQuoted quote (l.rest.length + 1) (l.place.column + 1) (l.rest.drop 1)
  return ((l.moveTo rest).add (.scalar .quoted (String.ofList text))).allowKey false

/-- Reads a block scalar. -/
def lexBlock (literal : Bool) (l : Lexer) : Option Lexer := do
  let l ← l.dropKey
  let (text, rest) ← readBlock literal l.floor (l.rest.drop 1)
  let style := if literal then .literal else .folded
  return ((l.moveTo rest).add (.scalar style (String.ofList text))).allowKey true

/-- Reads a plain scalar. -/
def lexPlain (l : Lexer) : Option Lexer := do
  let l ← l.noteKey
  let (text, crossesLine, rest) ←
    readPlain l.inFlow l.floor (l.rest.length + 1) l.place.column l.rest
  return ((l.moveTo rest).add (.scalar .plain (String.ofList text))).allowKey crossesLine

/-- The character starts something else than a plain scalar. -/
def isIndicator (c : Char) : Bool :=
  ['-', '?', ':', ',', '[', ']', '\x7b', '\x7d', '#', '&', '*', '!', '|', '>', '\'', '"', '%', '@',
    '`'].contains c

/-- A plain scalar may start here. -/
def startsPlain (inFlow : Bool) (c : Char) (rest : List Char) : Bool :=
  !(isBlank c || isBreak c || isIndicator c) || (c == '-' && !rest.head?.any isBlank) ||
    (!inFlow && (c == '?' || c == ':') && !startsBlank rest)

/-! ### The whole text -/

/-- Reads the token at a character. -/
def lexAt (c : Char) (rest : List Char) (l : Lexer) : Option Lexer :=
  let lineStart := l.place.column == 0
  if lineStart && c == '%' then l.lexDirective
  else if lineStart && isDocumentMark '-' (c :: rest) then l.lexDocumentMark .documentStart
  else if lineStart && isDocumentMark '.' (c :: rest) then l.lexDocumentMark .documentEnd
  else if c == '[' then l.lexFlowStart .flowSequence
  else if c == '\x7b' then l.lexFlowStart .flowMapping
  else if c == ']' then l.lexFlowEnd .flowSequenceEnd
  else if c == '\x7d' then l.lexFlowEnd .flowMappingEnd
  else if c == ',' then l.lexComma
  else if c == '-' && startsBlank rest then l.lexItem
  else if c == '?' && (l.inFlow || startsBlank rest) then l.lexKey
  else if c == ':' && (l.inFlow || startsBlank rest) then l.lexValue
  else if c == '*' then l.lexName .alias
  else if c == '&' then l.lexName .anchor
  else if c == '!' then l.lexTag
  else if c == '|' && !l.inFlow then l.lexBlock true
  else if c == '>' && !l.inFlow then l.lexBlock false
  else if c == '\'' || c == '"' then l.lexQuoted c
  else if startsPlain l.inFlow c rest then l.lexPlain
  else none

/-- Ends all that is open at the end of the text. -/
def finish (l : Lexer) : Option Lexer := (l.closeBlocks 0).dropKey

/-- Reads to the end of the text. The fuel bounds the tokens. -/
def run : Nat → Lexer → Option Lexer
  | 0, _ => none
  | fuel + 1, l => do
    let (allowed, rest) := skipBlanks l.inFlow (l.place.column == 0) false l.keyAllowed l.rest
    let l ← ((l.moveTo rest).allowKey allowed).dropStaleKeys
    match rest with
    | [] => l.finish
    | c :: behind => run fuel (← (l.closeBlocks (l.place.column + 1)).lexAt c behind)

end Lexer

/-- The character may stand in a text. -/
def isTextChar (c : Char) : Bool :=
  let n := c.toNat
  n == 0x9 || n == 0xA || n == 0xD || (0x20 ≤ n && n ≤ 0x7E) || n == 0x85 ||
    (0xA0 ≤ n && n ≤ 0xFFFD) || 0x10000 ≤ n

/-- The tokens of a text. -/
def tokens? (text : String) : Option (List Token) := do
  let cs := text.toList
  if !cs.all isTextChar then none
  return (← Lexer.run (cs.length + 1) { rest := cs }).tokens.reverse

end RepoAccess.Yaml
