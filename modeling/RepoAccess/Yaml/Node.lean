/-
YAML documents.

* `Yaml` — a node: a scalar, a sequence, a mapping, or another name for a node with an anchor.
* `Yaml.Document` — the root of a document and its nodes with anchors.
* `Yaml.parse` — the document of a text, which must be the only one.

An anchor has a number: how many names anchors had before it. An alias carries the number that its
name had last, and means the node of that number that starts last in the document, which may be a
node that the alias stands in. A mapping keeps its entries in order and may repeat a key.
-/
import RepoAccess.Yaml.Lexer

namespace RepoAccess

/-- A node of a YAML document. -/
inductive Yaml where
  | scalar (tag : Option Yaml.Tag) (style : Yaml.ScalarStyle) (text : String)
  | sequence (tag : Option Yaml.Tag) (items : List Yaml)
  | mapping (tag : Option Yaml.Tag) (entries : List (Yaml × Yaml))
  /-- The node with an anchor, by the number of the anchor. -/
  | alias (anchor : Nat)
deriving Inhabited, Repr

namespace Yaml

/-- The scalar that stands where nothing is written. -/
def empty : Yaml := .scalar none .plain ""

/-! ### Reading tokens -/

/-- The tokens that are left, and what names mean where they are read. -/
structure Composer where
  tokens : List Token
  /-- What tag handles stand for. -/
  handles : List (String × Tag) := []
  /-- The numbers of anchors by name, each name once. -/
  anchors : List (String × Nat) := []
  /-- The nodes with anchors by number, the one that starts last first; empty ones stand for those
  that are not complete. -/
  anchored : List (Nat × Yaml) := []

/-- A reader of tokens that may find no such thing. -/
abbrev Compose := StateT Composer Option

namespace Compose

/-- No such thing is there. -/
def fail {α : Type} : Compose α := fun _ => none

/-- The next token. -/
def peek : Compose (Option Token) := return (← get).tokens.head?

/-- Goes on behind the next token. -/
def advance : Compose Unit := modify fun s => { s with tokens := s.tokens.drop 1 }

/-- Goes on behind a token if it is the next one, and tells whether it was. -/
def accept (token : Token) : Compose Bool := do
  if (← peek) = some token then
    advance
    return true
  else return false

/-- Goes on behind a token, which must be the next one. -/
def expect (token : Token) : Compose Unit := do
  if !(← accept token) then fail

/-- The next token is one of those, or there is none. -/
def isNext (tokens : List Token) : Compose Bool :=
  return (← peek).all tokens.contains

/-! ### Properties -/

/-- The tag of a handle and a suffix. -/
def resolveTag (handle : String) (suffix : Tag) : Compose Tag := do
  if handle.isEmpty then return suffix
  else
    match (← get).handles.lookup handle with
    | some uri => return uri ++ suffix
    | none => fail

/-- The anchor, if it is next. -/
def readAnchor : Compose (Option String) := do
  match ← peek with
  | some (.anchor title) =>
    advance
    return some title
  | _ => return none

/-- The tag, if it is next. -/
def readTag : Compose (Option Tag) := do
  match ← peek with
  | some (.tag handle suffix) =>
    advance
    return some (← resolveTag handle suffix)
  | _ => return none

/-- The anchor and the tag of a node, in either order. -/
def readProperties : Compose (Option String × Option Tag) := do
  match ← readAnchor with
  | some title => return (some title, ← readTag)
  | none =>
    let tag ← readTag
    return (← readAnchor, tag)

/-- Numbers an anchor whose node starts here. -/
def openAnchor (title : String) : Compose Nat := do
  let s ← get
  let number := s.anchors.length
  let others := s.anchors.filter fun (name, _) => name != title
  set { s with anchors := (title, number) :: others, anchored := (number, empty) :: s.anchored }
  return number

/-- A node, read by `read`, and known by its anchor if it has one. -/
def anchoring (title : Option String) (read : Compose Yaml) : Compose Yaml := do
  match title with
  | none => read
  | some title =>
    let before := (← get).anchored.length
    let number ← openAnchor title
    let node ← read
    modify fun s =>
      { s with anchored := s.anchored.set (s.anchored.length - 1 - before) (number, node) }
    return node

/-! ### Nodes -/

/-- Where a node stands: what kinds of collection may begin there. -/
inductive Position where
  /-- In a flow collection. -/
  | flow
  /-- In a block sequence or at the root. -/
  | block
  /-- In a block mapping, where the hyphens of a sequence need not stand deeper. -/
  | mapping
deriving DecidableEq

mutual

/-- A node. The fuel bounds the tokens. -/
def readNode : Nat → Position → Compose Yaml
  | 0, _ => fail
  | fuel + 1, position => do
    match ← peek with
    | some (.alias title) =>
      match (← get).anchors.lookup title with
      | some number =>
        advance
        return .alias number
      | none => fail
    | _ =>
      let (title, tag) ← readProperties
      anchoring title do
        match ← peek with
        | some (.scalar style text) =>
          advance
          return .scalar tag style text
        | some .flowSequence =>
          advance
          return .sequence tag (← readFlowItems fuel true)
        | some .flowMapping =>
          advance
          return .mapping tag (← readFlowEntries fuel true)
        | some .item =>
          if position = .mapping then return .sequence tag (← readLooseItems fuel)
          else emptyNode title tag
        | some .blockSequence =>
          if position = .flow then emptyNode title tag
          else
            advance
            return .sequence tag (← readBlockItems fuel)
        | some .blockMapping =>
          if position = .flow then emptyNode title tag
          else
            advance
            return .mapping tag (← readBlockEntries fuel)
        | _ => emptyNode title tag

/-- A node without content, which must have an anchor or a tag. -/
def emptyNode (title : Option String) (tag : Option Tag) : Compose Yaml :=
  if title.isNone && tag.isNone then fail
  else return .scalar tag .plain ""

/-- A node, or the empty one if one of those tokens is next. -/
def readNodeUnless : Nat → Position → List Token → Compose Yaml
  | 0, _, _ => fail
  | fuel + 1, position, tokens => do
    if ← isNext tokens then return empty else readNode fuel position

/-- The items of a block sequence, up to its end. -/
def readBlockItems : Nat → Compose (List Yaml)
  | 0 => fail
  | fuel + 1 => do
    if ← accept .item then
      let item ← readNodeUnless fuel .block [.item, .blockEnd]
      return item :: (← readBlockItems fuel)
    else
      expect .blockEnd
      return []

/-- The items of a sequence that is no deeper than the mapping around it. -/
def readLooseItems : Nat → Compose (List Yaml)
  | 0 => fail
  | fuel + 1 => do
    if ← accept .item then
      let item ← readNodeUnless fuel .block [.item, .key, .value, .blockEnd]
      return item :: (← readLooseItems fuel)
    else return []

/-- The entries of a block mapping, up to its end. -/
def readBlockEntries : Nat → Compose (List (Yaml × Yaml))
  | 0 => fail
  | fuel + 1 => do
    if ← accept .key then
      let key ← readNodeUnless fuel .mapping [.key, .value, .blockEnd]
      let value ←
        if ← accept .value then readNodeUnless fuel .mapping [.key, .value, .blockEnd]
        else pure empty
      return (key, value) :: (← readBlockEntries fuel)
    else
      expect .blockEnd
      return []

/-- The items of a flow sequence, up to its end; between two of them stands a comma. -/
def readFlowItems : Nat → Bool → Compose (List Yaml)
  | 0, _ => fail
  | fuel + 1, first => do
    if ← accept .flowSequenceEnd then return []
    if !first then expect .comma
    if ← accept .key then
      let key ←
        if ← isNext [.value, .comma, .flowSequenceEnd] then
          advance
          pure empty
        else readNode fuel .flow
      let value ←
        if ← accept .value then readNodeUnless fuel .flow [.comma, .flowSequenceEnd]
        else pure empty
      return .mapping none [(key, value)] :: (← readFlowItems fuel false)
    else if ← accept .flowSequenceEnd then return []
    else
      let item ← readNode fuel .flow
      return item :: (← readFlowItems fuel false)

/-- The entries of a flow mapping, up to its end; between two of them stands a comma. -/
def readFlowEntries : Nat → Bool → Compose (List (Yaml × Yaml))
  | 0, _ => fail
  | fuel + 1, first => do
    if ← accept .flowMappingEnd then return []
    if !first then expect .comma
    if ← accept .key then
      let key ← readNodeUnless fuel .flow [.value, .comma, .flowMappingEnd]
      let value ←
        if ← accept .value then readNodeUnless fuel .flow [.comma, .flowMappingEnd]
        else pure empty
      return (key, value) :: (← readFlowEntries fuel false)
    else if ← accept .flowMappingEnd then return []
    else
      let key ← readNode fuel .flow
      return (key, empty) :: (← readFlowEntries fuel false)

end

/-! ### Documents -/

/-- What the tag handles of every document stand for. -/
def commonHandles : List (String × Tag) :=
  [("!", Text.Utf8.encode "!"), ("!!", Text.Utf8.encode "tag:yaml.org,2002:")]

/-- The directives of a document: whether there is one, and what its tag handles stand for. Each is
given once, and the language must be of version 1.1 or 1.2. The fuel bounds their number. -/
def readDirectives : Nat → Bool → List (String × Tag) → Compose (Bool × List (String × Tag))
  | 0, _, _ => fail
  | fuel + 1, versioned, handles => do
    match ← peek with
    | some (.version major minor) =>
      if versioned || major != 1 || !(minor == 1 || minor == 2) then fail
      else
        advance
        readDirectives fuel true handles
    | some (.handle title uri) =>
      if (handles.lookup title).isSome then fail
      else
        advance
        readDirectives fuel versioned ((title, uri) :: handles)
    | _ => return (versioned || !handles.isEmpty, handles)

/-- Goes on behind the marks that end a document. -/
def skipDocumentEnds : Compose Unit :=
  modify fun s => { s with tokens := s.tokens.dropWhile (· == .documentEnd) }

/-- The root of the only document, if there is one. A document with directives must be marked as
one. -/
def readStream : Compose (Option Yaml) := do
  let fuel := 3 * (← get).tokens.length + 3
  let (directed, handles) ← readDirectives fuel false []
  modify fun s => { s with handles := handles ++ commonHandles }
  if (← peek).isNone && !directed then return none
  let marked ← accept .documentStart
  if directed && !marked then fail
  let root ← if marked then readNodeUnless fuel .block [.documentEnd] else readNode fuel .block
  skipDocumentEnds
  if (← peek).isSome then fail
  return some root

end Compose

/-- The root of a document and its nodes with anchors. -/
structure Document where
  root : Yaml
  /-- The nodes with anchors by number, the one that starts last first. -/
  anchored : List (Nat × Yaml)

/-- The document of a text; one without content is an empty scalar. -/
def parse (text : String) : Option Document := do
  let (root, s) ← Compose.readStream.run { tokens := ← tokens? text }
  return ⟨root.getD empty, s.anchored⟩

end Yaml

end RepoAccess
