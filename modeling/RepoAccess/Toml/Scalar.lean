/-
Keys and scalars of TOML.

* `Toml.readKey` — a dotted key, part by part.
* `Toml.readString` — a string of one of the four kinds.
* `Toml.scalar?` — the value of a word that stands without quotes.
* `Toml.readWord` — such a word; a date and a time may have one blank between them.

A reader answers what it read and the text behind it, or nothing if the text does not start so.
A number need only look like one to be a value; which number it is matters where it is used.
-/
import RepoAccess.Text.Digits
import RepoAccess.Timestamp
import RepoAccess.Toml.Value

namespace RepoAccess.Toml

open Text (digitsValue hexValue? numberIn?)

/-! ### Characters -/

/-- A blank or a tab. -/
def isBlank (c : Char) : Bool := c == ' ' || c == '\t'

/-- The character may stand in a comment and, quotes and backslashes apart, in a string. -/
def isPrintable (c : Char) : Bool := c == '\t' || (32 ≤ c.toNat && c.toNat != 127)

/-- The text from its first character that is no blank. -/
def skipBlanks (cs : List Char) : List Char := cs.dropWhile isBlank

/-- The text behind a mark, if that is next. -/
def skipMark (mark cs : List Char) : Option (List Char) :=
  if mark.isPrefixOf cs then some (cs.drop mark.length) else none

/-- The text behind the end of the line, if that is next; the end of the text ends a line too. -/
def skipLineEnd : List Char → Option (List Char)
  | [] => some []
  | '\n' :: rest | '\r' :: '\n' :: rest => some rest
  | _ => none

/-- The text behind blanks and a comment, if the line ends there. -/
def skipRestOfLine (cs : List Char) : Option (List Char) :=
  match skipBlanks cs with
  | '#' :: rest => skipLineEnd (rest.dropWhile isPrintable)
  | cs => skipLineEnd cs

/-- The text behind blanks, comments and ends of lines. The fuel bounds the lines. -/
def skipLines : Nat → List Char → Option (List Char)
  | 0, cs => some cs
  | fuel + 1, cs =>
    match skipBlanks cs with
    | '#' :: rest => (skipLineEnd (rest.dropWhile isPrintable)).bind (skipLines fuel)
    | '\n' :: rest | '\r' :: '\n' :: rest => skipLines fuel rest
    | cs => some cs

/-! ### Strings -/

/-- The character of a code point in hexadecimal digits. -/
def charOfHex? (digits : List Char) : Option Char := do
  let n := (← digits.mapM hexValue?).foldl (fun n d => 16 * n + d) 0
  if n.isValidChar then return Char.ofNat n else none

/-- The character of as many hexadecimal digits. -/
def readHex (width : Nat) (cs : List Char) : Option (Char × List Char) :=
  if cs.length < width then none
  else (charOfHex? (cs.take width)).map fun c => (c, cs.drop width)

/-- The character of an escape, behind its backslash. -/
def readEscape : List Char → Option (Char × List Char)
  | 'b' :: rest => some ('\x08', rest)
  | 't' :: rest => some ('\t', rest)
  | 'n' :: rest => some ('\n', rest)
  | 'f' :: rest => some ('\x0c', rest)
  | 'r' :: rest => some ('\r', rest)
  | 'e' :: rest => some ('\x1b', rest)
  | '"' :: rest => some ('"', rest)
  | '\\' :: rest => some ('\\', rest)
  | 'x' :: rest => readHex 2 rest
  | 'u' :: rest => readHex 4 rest
  | 'U' :: rest => readHex 8 rest
  | _ => none

/-- A string on one line behind its opening quote; escapes count between double quotes only. The
fuel bounds the characters. -/
def readLine (quote : Char) : Nat → List Char → Option (List Char × List Char)
  | 0, _ => none
  | fuel + 1, cs =>
    match cs with
    | [] => none
    | c :: rest =>
      if c = quote then some ([], rest)
      else if c = '\\' ∧ quote = '"' then do
        let (c, rest) ← readEscape rest
        let (text, rest) ← readLine quote fuel rest
        return (c :: text, rest)
      else if isPrintable c then do
        let (text, rest) ← readLine quote fuel rest
        return (c :: text, rest)
      else none

/-- The text behind blanks and ends of lines. -/
def skipWhitespace : List Char → List Char
  | [] => []
  | '\r' :: '\n' :: rest => skipWhitespace rest
  | c :: rest => if isBlank c || c == '\n' then skipWhitespace rest else c :: rest

/-- The text behind a backslash that ends its line: blanks and ends of lines are skipped. -/
def skipContinuation (cs : List Char) : Option (List Char) :=
  match skipBlanks cs with
  | '\n' :: rest | '\r' :: '\n' :: rest => some (skipWhitespace rest)
  | _ => none

/-- A string of several lines behind its opening quotes. Three quotes end it, and up to two more in
front of them belong to it. The fuel bounds the characters. -/
def readLinesOfText (quote : Char) : Nat → List Char → Option (List Char × List Char)
  | 0, _ => none
  | fuel + 1, cs =>
    let quotes := (cs.takeWhile (· == quote)).length
    if 3 ≤ quotes then
      let kept := min (quotes - 3) 2
      some (List.replicate kept quote, cs.drop (kept + 3))
    else do
      let (c, rest) ← match cs with
        | '\\' :: rest =>
          if quote = '"' then
            match skipContinuation rest with
            | some rest => some ([], rest)
            | none => (readEscape rest).map fun (c, rest) => ([c], rest)
          else some (['\\'], rest)
        | '\n' :: rest => some (['\n'], rest)
        | '\r' :: '\n' :: rest => some (['\r', '\n'], rest)
        | c :: rest => if isPrintable c then some ([c], rest) else none
        | [] => none
      let (text, rest) ← readLinesOfText quote fuel rest
      return (c ++ text, rest)

/-- The text without the end of a line that it starts with. -/
def skipFirstLineEnd : List Char → List Char
  | '\n' :: rest | '\r' :: '\n' :: rest => rest
  | cs => cs

/-- A string: between double or single quotes, one or three of them. -/
def readString (cs : List Char) : Option (String × List Char) :=
  let read := match cs with
    | '"' :: '"' :: '"' :: rest => readLinesOfText '"' (rest.length + 1) (skipFirstLineEnd rest)
    | '\'' :: '\'' :: '\'' :: rest => readLinesOfText '\'' (rest.length + 1) (skipFirstLineEnd rest)
    | '"' :: rest => readLine '"' (rest.length + 1) rest
    | '\'' :: rest => readLine '\'' (rest.length + 1) rest
    | _ => none
  read.map fun (text, rest) => (String.ofList text, rest)

/-! ### Keys -/

/-- The character may stand in a key without quotes. -/
def isKeyChar (c : Char) : Bool := c.isAlphanum || c == '_' || c == '-'

/-- One part of a key. -/
def readKeyPart (cs : List Char) : Option (String × List Char) :=
  match cs with
  | '"' :: '"' :: '"' :: _ | '\'' :: '\'' :: '\'' :: _ => none
  | '"' :: _ | '\'' :: _ => readString cs
  | cs =>
    let bare := cs.takeWhile isKeyChar
    if bare.isEmpty then none else some (String.ofList bare, cs.drop bare.length)

/-- How many parts a key may have, and how deep arrays and inline tables may be nested. -/
def maxNesting : Nat := 80

/-- A key: up to that many parts, with points and blanks between them, and the text behind the
blanks that follow. -/
def readKey : Nat → List Char → Option (List String × List Char)
  | 0, _ => none
  | fuel + 1, cs => do
    let (part, rest) ← readKeyPart (skipBlanks cs)
    match skipBlanks rest with
    | '.' :: rest =>
      let (parts, rest) ← readKey fuel rest
      return (part :: parts, rest)
    | rest => return ([part], rest)

/-! ### Numbers -/

/-- A number without its underscores, each of which must stand between digits; what starts a word
may also be a sign. -/
def ungroup? (isDigit : Char → Bool) (startsWord : Bool) (cs : List Char) : Option (List Char) :=
  let groups := cs.splitOn '_'
  let behind := if startsWord then groups.drop 1 else groups
  let before := groups.dropLast.filter (1 < ·.length)
  if groups.length = 1 then some cs
  else if groups.all (fun group => !group.isEmpty) && behind.all (·.head?.any isDigit) &&
      before.all (·.getLast?.any isDigit) then some groups.flatten
  else none

/-- An integer behind the mark of its base. -/
def based? (base : Nat) (cs : List Char) : Option Toml := do
  if !cs.all fun c => c == '_' || (hexValue? c).any (· < base) then none
  let digits ← ungroup? (fun c => (hexValue? c).isSome) false cs
  return .integer ((numberIn? base digits).map Int.ofNat)

/-- The sign of a number, and the text behind it. -/
def cutSign : List Char → Int × List Char
  | '+' :: rest => (1, rest)
  | '-' :: rest => (-1, rest)
  | cs => (1, cs)

/-- An integer of base ten. -/
def decimal? (word : List Char) : Option Toml := do
  let (sign, digits) := cutSign (← ungroup? (fun c => (hexValue? c).isSome) true word)
  return .integer ((numberIn? 10 digits).map fun n => sign * n)

/-- The number `m` times ten to the power of `exponent` is too large for double precision: it lies
in the middle between the largest number there is and the next power of two, or above. -/
def exceedsDouble (m : Nat) (exponent : Int) : Bool :=
  let size := (Nat.toDigits 10 m).length + exponent
  let middle := (Nat.pow 2 54 - 1) * Nat.pow 2 970
  if m = 0 ∨ size < 309 then false
  else if 309 < size then true
  else if 0 ≤ exponent then middle ≤ m * Nat.pow 10 exponent.toNat
  else middle * Nat.pow 10 (-exponent).toNat ≤ m

/-- The digits at the start of a text, underscores among them left out; there is at least one. -/
def readGroups (cs : List Char) : Option (List Char × List Char) :=
  let groups := cs.takeWhile fun c => c.isDigit || c == '_'
  let digits := groups.filter Char.isDigit
  if digits.isEmpty then none else some (digits, cs.drop groups.length)

/-- The digits of a fraction behind its point, if there is one. -/
def readFraction : List Char → Option (List Char × List Char)
  | '.' :: rest => readGroups rest
  | cs => some ([], cs)

/-- An exponent behind its mark, if there is one. -/
def readExponent : List Char → Option (Int × List Char)
  | [] => some (0, [])
  | c :: rest => do
    if c != 'e' && c != 'E' then none
    let (sign, rest) := cutSign rest
    let (digits, rest) ← readGroups rest
    return (sign * digitsValue digits, rest)

/-- A number with a fraction or an exponent, without its sign; a zero stands alone before them. -/
def float? (cs : List Char) : Option Toml := do
  let (whole, rest) ← readGroups cs
  if cs.head? = some '0' ∧ 1 < whole.length then none
  let (fraction, rest) ← readFraction rest
  let (exponent, rest) ← readExponent rest
  if !rest.isEmpty then none
  return .float !(exceedsDouble (digitsValue (whole ++ fraction)) (exponent - fraction.length))

/-- A number of base ten. -/
def decimalOrFloat? (word : List Char) : Option Toml :=
  let unsigned := (cutSign word).2
  let rest := unsigned.dropWhile Char.isDigit
  if unsigned = ['i', 'n', 'f'] ∨ unsigned = ['n', 'a', 'n'] then some (.float true)
  else if rest.any ['.', 'e', 'E'].contains then
    (ungroup? Char.isDigit true word).bind fun _ => float? unsigned
  else if unsigned.isEmpty || !(rest.isEmpty || rest.head? = some '_') then none
  else if unsigned.head? = some '0' ∧ 1 < unsigned.length then none
  else decimal? word

/-- A number. -/
def number? : List Char → Option Toml
  | '0' :: 'x' :: digits => based? 16 digits
  | '0' :: 'o' :: digits => based? 8 digits
  | '0' :: 'b' :: digits => based? 2 digits
  | word => decimalOrFloat? word

/-! ### Moments -/

/-- A number of exactly that many digits. -/
def readDigits (width : Nat) (cs : List Char) : Option (Nat × List Char) :=
  let digits := (cs.take width).takeWhile Char.isDigit
  if digits.length = width then some (digitsValue digits, cs.drop width) else none

/-- A date of the calendar. -/
def readDate (cs : List Char) : Option (List Char) := do
  let (year, rest) ← readDigits 4 cs
  let (month, rest) ← readDigits 2 (← skipMark ['-'] rest)
  let (day, rest) ← readDigits 2 (← skipMark ['-'] rest)
  if CivilDate.isValid ⟨year, month, day⟩ then return rest else none

/-- A time of the day, to the minute or the second; a minute may have sixty-one seconds. -/
def readTime (cs : List Char) : Option (List Char) := do
  let (hour, rest) ← readDigits 2 cs
  let (minute, rest) ← readDigits 2 (← skipMark [':'] rest)
  if 23 < hour ∨ 59 < minute then none
  match rest with
  | ':' :: rest =>
    let (second, rest) ← readDigits 2 rest
    if 60 < second then none
    match rest with
    | '.' :: rest =>
      if (rest.takeWhile Char.isDigit).isEmpty then none else return rest.dropWhile Char.isDigit
    | rest => return rest
  | rest => return rest

/-- The whole text is an offset from universal time, or nothing. -/
def isOffset (cs : List Char) : Bool :=
  match cs with
  | [] | ['Z'] | ['z'] => true
  | '+' :: rest | '-' :: rest =>
    match readDigits 2 rest with
    | some (hours, ':' :: rest) =>
      match readDigits 2 rest with
      | some (minutes, []) => hours ≤ 23 && minutes ≤ 59
      | _ => false
    | _ => false
  | _ => false

/-- The whole text is a date. -/
def isDate (cs : List Char) : Bool := readDate cs == some []

/-- The whole text is a date, a time, or both, with an offset where there are both. -/
def isMoment (cs : List Char) : Bool :=
  match readDate cs with
  | some [] => true
  | some (mark :: rest) =>
    (mark == 'T' || mark == 't' || mark == ' ') && (readTime rest).any isOffset
  | none => readTime cs == some []

/-! ### Words -/

/-- The character ends a word. -/
def endsWord (c : Char) : Bool :=
  isBlank c || ['\n', '\r', ',', '[', ']', '\x7b', '\x7d', '#', '='].contains c

/-- The value of a word. -/
def scalar? (word : List Char) : Option Toml :=
  if word = "true".toList then some (.boolean true)
  else if word = "false".toList then some (.boolean false)
  else if isMoment word then some .moment
  else number? word

/-- A word and the text behind it. A date goes on behind one blank with a time. -/
def readWord (cs : List Char) : List Char × List Char :=
  let word := cs.takeWhile fun c => !endsWord c
  let rest := cs.drop word.length
  match rest with
  | ' ' :: next :: _ =>
    if isDate word && next.isDigit then
      let behind := (rest.drop 1).takeWhile fun c => !endsWord c
      (word ++ ' ' :: behind, rest.drop (behind.length + 1))
    else (word, rest)
  | _ => (word, rest)

end RepoAccess.Toml
