/-
Scalars of YAML.

* `Yaml.readPlain` — a scalar without quotes, which may go on over several lines.
* `Yaml.readQuoted` — a scalar between single or double quotes.
* `Yaml.readBlock` — a scalar of indented lines.

Within a scalar a single end of a line counts as a blank, and each empty line as an end of a line;
only a literal block keeps all of them. A reader answers what it read and the text behind it, or
nothing if the text is no such scalar.
-/
import RepoAccess.Text.Digits

namespace RepoAccess.Yaml

/-! ### Characters -/

/-- A blank or a tab. -/
def isBlank (c : Char) : Bool := c == ' ' || c == '\t'

/-- The character ends a line. -/
def isBreak (c : Char) : Bool :=
  c == '\n' || c == '\r' || c == '\u0085' || c == '\u2028' || c == '\u2029'

/-- The end of a line as scalars keep it. -/
def keptBreak (c : Char) : Char := if c == '\r' || c == '\u0085' then '\n' else c

/-- The end of a line at the start of a text, if there is one, and the text behind it. -/
def cutBreak : List Char → List Char × List Char
  | '\r' :: '\n' :: rest => (['\n'], rest)
  | c :: rest => if isBreak c then ([keptBreak c], rest) else ([], c :: rest)
  | [] => ([], [])

/-- The text starts with a blank, the end of a line, or its own end. -/
def startsBlank : List Char → Bool
  | [] => true
  | c :: _ => isBlank c || isBreak c

/-- A line of three hyphens or of three points, which bounds a document. -/
def isDocumentMark (mark : Char) : List Char → Bool
  | a :: b :: c :: rest => a == mark && b == mark && c == mark && startsBlank rest
  | _ => false

/-- A document is bounded here, at that column of its line. -/
def isBoundary (column : Nat) (cs : List Char) : Bool :=
  column == 0 && (isDocumentMark '-' cs || isDocumentMark '.' cs)

/-! ### Folding -/

/-- The ends of lines at the start of a text, blanks around them left out, with the column behind
them. A tab may not stand in front of the column `floor`. -/
def readBreaks (floor : Nat) (column : Nat) : List Char → Option (List Char × Nat × List Char)
  | [] => some ([], column, [])
  | '\r' :: '\n' :: rest => do
    let (breaks, column, rest) ← readBreaks floor 0 rest
    return ('\n' :: breaks, column, rest)
  | c :: rest =>
    if isBreak c then do
      let (breaks, column, rest) ← readBreaks floor 0 rest
      return (keptBreak c :: breaks, column, rest)
    else if c == '\t' && column < floor then none
    else if isBlank c then readBreaks floor (column + 1) rest
    else some ([], column, c :: rest)

/-- What ends of lines in a row stand for: one is a blank, of more the first does not count. -/
def folded : List Char → List Char
  | ['\n'] => [' ']
  | '\n' :: rest => rest
  | breaks => breaks

/-- What stands between two words of a scalar. -/
structure Gap where
  /-- What it stands for. -/
  text : List Char
  /-- It holds the end of a line. -/
  crossesLine : Bool
  /-- The column behind it. -/
  column : Nat
  rest : List Char

/-- The gap at the start of a text. -/
def readGap (floor column : Nat) (cs : List Char) : Option Gap := do
  let blanks := cs.takeWhile isBlank
  let (breaks, column, rest) ←
    readBreaks floor (column + blanks.length) (cs.drop blanks.length)
  if breaks.isEmpty then return ⟨blanks, false, column, rest⟩
  else return ⟨folded breaks, true, column, rest⟩

/-! ### Plain scalars -/

/-- The character bounds a part of a flow collection. -/
def isFlowMark (c : Char) : Bool :=
  c == ',' || c == '[' || c == ']' || c == '\x7b' || c == '\x7d'

/-- A word of a plain scalar. In a flow collection a colon may not stand right before a mark. -/
def plainWord (inFlow : Bool) : List Char → Option (List Char)
  | [] => some []
  | c :: rest =>
    if isBlank c || isBreak c || (c == ':' && startsBlank rest) || (inFlow && isFlowMark c) then
      some []
    else if inFlow && c == ':' && rest.head?.any (fun d => isFlowMark d || d == '?') then none
    else (c :: ·) <$> plainWord inFlow rest

/-- A plain scalar from a column on, outside flow collections only as long as lines start at column
`floor` or behind it; whether the end of a line stands behind it; and the text behind that. The fuel
bounds the words. -/
def readPlain (inFlow : Bool) (floor : Nat) :
    Nat → Nat → List Char → Option (List Char × Bool × List Char)
  | 0, _, _ => none
  | fuel + 1, column, cs => do
    if isBoundary column cs || cs.head? = some '#' then return ([], false, cs)
    let word ← plainWord inFlow cs
    let behind := cs.drop word.length
    if word.isEmpty || behind.isEmpty || !startsBlank behind then return (word, false, behind)
    let gap ← readGap floor (column + word.length) behind
    if !inFlow && gap.column < floor then return (word, gap.crossesLine, gap.rest)
    let (more, crossesLine, rest) ← readPlain inFlow floor fuel gap.column gap.rest
    if more.isEmpty then return (word, gap.crossesLine, rest)
    else return (word ++ gap.text ++ more, crossesLine, rest)

/-! ### Quoted scalars -/

/-- The character of a code point in hexadecimal digits. -/
def charOfHex? (digits : List Char) : Option Char := do
  let n := (← digits.mapM Text.hexValue?).foldl (fun n d => 16 * n + d) 0
  if n.isValidChar then return Char.ofNat n else none

/-- The character of as many hexadecimal digits. -/
def readHex (width : Nat) (cs : List Char) : Option (Char × List Char) :=
  if cs.length < width then none
  else (charOfHex? (cs.take width)).map fun c => (c, cs.drop width)

/-- The character of an escape, behind its backslash. -/
def readEscape : List Char → Option (Char × List Char)
  | '0' :: rest => some ('\x00', rest)
  | 'a' :: rest => some ('\x07', rest)
  | 'b' :: rest => some ('\x08', rest)
  | 't' :: rest | '\t' :: rest => some ('\t', rest)
  | 'n' :: rest => some ('\n', rest)
  | 'v' :: rest => some ('\x0b', rest)
  | 'f' :: rest => some ('\x0c', rest)
  | 'r' :: rest => some ('\r', rest)
  | 'e' :: rest => some ('\x1b', rest)
  | ' ' :: rest => some (' ', rest)
  | '"' :: rest => some ('"', rest)
  | '/' :: rest => some ('/', rest)
  | '\\' :: rest => some ('\\', rest)
  | 'N' :: rest => some ('\u0085', rest)
  | '_' :: rest => some ('\u00a0', rest)
  | 'L' :: rest => some ('\u2028', rest)
  | 'P' :: rest => some ('\u2029', rest)
  | 'x' :: rest => readHex 2 rest
  | 'u' :: rest => readHex 4 rest
  | 'U' :: rest => readHex 8 rest
  | _ => none

/-- A word of a quoted scalar; whether a backslash at the end of its line joins it to the next line;
and the text behind it. The fuel bounds the characters. -/
def quotedWord (quote : Char) : Nat → List Char → Option (List Char × Bool × List Char)
  | 0, cs => some ([], false, cs)
  | fuel + 1, cs =>
    match cs with
    | [] => some ([], false, [])
    | c :: rest =>
      if isBlank c || isBreak c then some ([], false, cs)
      else if c == quote then
        if quote == '\'' && rest.head? = some '\'' then do
          let (word, joined, rest) ← quotedWord quote fuel (rest.drop 1)
          return ('\'' :: word, joined, rest)
        else some ([], false, cs)
      else if c == '\\' && quote == '"' then
        if rest.head?.any isBreak then some ([], true, (cutBreak rest).2)
        else do
          let (c, rest) ← readEscape rest
          let (word, joined, rest) ← quotedWord quote fuel rest
          return (c :: word, joined, rest)
      else do
        let (word, joined, rest) ← quotedWord quote fuel rest
        return (c :: word, joined, rest)

/-- A quoted scalar behind its opening quote, from a column on. The fuel bounds the words. -/
def readQuoted (quote : Char) : Nat → Nat → List Char → Option (List Char × List Char)
  | 0, _, _ => none
  | fuel + 1, column, cs => do
    if isBoundary column cs then none
    let (word, joined, behind) ← quotedWord quote (cs.length + 1) cs
    if behind.isEmpty then none
    if !joined && behind.head? = some quote then return (word, behind.drop 1)
    let (gap, column, rest) ←
      if joined then readBreaks 0 0 behind
      else (readGap 0 (column + (cs.length - behind.length)) behind).map fun gap =>
        (gap.text, gap.column, gap.rest)
    let (more, rest) ← readQuoted quote fuel column rest
    return (word ++ gap ++ more, rest)

/-! ### Block scalars -/

/-- What becomes of the ends of lines behind the last line of a block. -/
inductive Chomping where
  | strip
  /-- The first one is kept. -/
  | clip
  | keep
deriving DecidableEq, Repr

/-- The sign of a block's header. -/
def readChomping : List Char → Chomping × List Char
  | '+' :: rest => (.keep, rest)
  | '-' :: rest => (.strip, rest)
  | cs => (.clip, cs)

/-- The number of columns in a block's header, which is not zero; zero stands for none. -/
def readWidth : List Char → Option (Nat × List Char)
  | '0' :: _ => none
  | c :: rest => if c.isDigit then some (Text.digitValue c, rest) else some (0, c :: rest)
  | [] => some (0, [])

/-- The header of a block: sign and number in either order, and a comment. -/
def readBlockHeader (cs : List Char) : Option (Chomping × Nat × List Char) := do
  let (chomping, rest) := readChomping cs
  let (width, rest) ← readWidth rest
  let (chomping, rest) := if chomping = .clip then readChomping rest else (chomping, rest)
  let rest := rest.dropWhile isBlank
  let rest := if rest.head? = some '#' then rest.dropWhile fun c => !isBreak c else rest
  if rest.isEmpty || rest.head?.any isBreak then return (chomping, width, (cutBreak rest).2)
  else none

/-- The ends of the empty lines at the start of a text, the widest indentation, the column behind
them and the text there. Lines start at column `indent`, or anywhere if that is zero; a tab is no
indentation. -/
def readEmptyLines (indent : Nat) (widest column : Nat) :
    List Char → Option (List Char × Nat × Nat × List Char)
  | [] => some ([], max widest column, column, [])
  | '\r' :: '\n' :: rest => do
    let (breaks, found) ← readEmptyLines indent (max widest column) 0 rest
    return ('\n' :: breaks, found)
  | c :: rest =>
    if isBreak c then do
      let (breaks, found) ← readEmptyLines indent (max widest column) 0 rest
      return (keptBreak c :: breaks, found)
    else if isBlank c && (indent == 0 || column < indent) then
      if c == '\t' then none else readEmptyLines indent widest (column + 1) rest
    else some ([], max widest column, column, c :: rest)

/-- Lines of a block that have been read, and what stands behind them. -/
structure BlockLines where
  text : List Char
  /-- The end of the last line. -/
  lastBreak : List Char
  /-- The ends of the empty lines behind it. -/
  breaks : List Char
  rest : List Char

/-- The lines of a block. Before them stand the end of the line before, which may have started with
a blank, and ends of empty lines. The fuel bounds the lines. -/
def readBlockLines (literal : Bool) (indent : Nat) :
    Nat → Bool → List Char → List Char → Nat → List Char → Option BlockLines
  | 0, _, _, _, _, _ => none
  | fuel + 1, blankBefore, lastBreak, breaks, column, cs => do
    if cs.isEmpty || column != indent then return ⟨[], lastBreak, breaks, cs⟩
    let blankHere := cs.head?.any isBlank
    let joint :=
      if !literal && lastBreak == ['\n'] && !blankBefore && !blankHere then
        if breaks.isEmpty then [' '] else []
      else lastBreak
    let line := cs.takeWhile fun c => !isBreak c
    let (lineBreak, behind) := cutBreak (cs.drop line.length)
    let column := if lineBreak.isEmpty then column + line.length else 0
    let (more, _, column, rest) ← readEmptyLines indent 0 column behind
    let lines ← readBlockLines literal indent fuel blankHere lineBreak more column rest
    return { lines with text := joint ++ breaks ++ line ++ lines.text }

/-- A block behind its mark, inside a collection at column `outer - 1`. -/
def readBlock (literal : Bool) (outer : Nat) (cs : List Char) : Option (List Char × List Char) := do
  let (chomping, width, rest) ← readBlockHeader cs
  let given := if width = 0 then 0 else outer - 1 + width
  let (breaks, widest, column, rest) ← readEmptyLines given 0 0 rest
  let indent := if width = 0 then max (max widest outer) 1 else given
  let lines ← readBlockLines literal indent (rest.length + 1) false [] breaks column rest
  let ending := match chomping with
    | .strip => []
    | .clip => lines.lastBreak
    | .keep => lines.lastBreak ++ lines.breaks
  return (lines.text ++ ending, lines.rest)

end RepoAccess.Yaml
