/-
Moments of universal time and their text.

* `Timestamp` — seconds since 1970 and a fraction of a second.
* `CivilDate` — year, month and day, with `CivilDate.toDays` and `CivilDate.ofDays` between dates
  and days since 1970-01-01.
* `Timestamp.render` — the text in universal time, as RFC 3339 has it.
* `Timestamp.parse` — the moment that a text denotes.

Reading is lenient: blanks may stand between the parts, a letter of either case or a blank between
date and time, and numbers may be short. A minute may have a sixty-first second, which is kept as a
fraction of more than one second.
-/
import RepoAccess.Text.Blank
import RepoAccess.Text.Digits

namespace RepoAccess

/-! ### Dates -/

/-- A date of the Gregorian calendar, carried on before its introduction and before year one. -/
structure CivilDate where
  year : Int
  month : Nat
  day : Nat
deriving DecidableEq, Repr

namespace CivilDate

/-- Every fourth year, but of the full centuries only every fourth. -/
def isLeapYear (year : Int) : Bool :=
  year % 4 == 0 && (year % 100 != 0 || year % 400 == 0)

/-- The number of days of a month. -/
def daysInMonth (year : Int) (month : Nat) : Nat :=
  if month == 2 then (if isLeapYear year then 29 else 28)
  else if month == 4 || month == 6 || month == 9 || month == 11 then 30
  else 31

/-- The date is one of the calendar, within the years that are kept. -/
def isValid (d : CivilDate) : Bool :=
  decide (-262143 ≤ d.year) && decide (d.year ≤ 262142) && decide (1 ≤ d.month) &&
    decide (d.month ≤ 12) && decide (1 ≤ d.day) && decide (d.day ≤ daysInMonth d.year d.month)

/-- Days since 1970-01-01. Years are counted from March, so that a leap day ends its year, and in
groups of four hundred, which have 146097 days each. -/
def toDays (d : CivilDate) : Int :=
  let year := if d.month ≤ 2 then d.year - 1 else d.year
  let monthFromMarch : Int := (d.month + 9) % 12
  let yearOfGroup := year % 400
  let dayOfYear := (153 * monthFromMarch + 2) / 5 + d.day - 1
  let dayOfGroup := 365 * yearOfGroup + yearOfGroup / 4 - yearOfGroup / 100 + dayOfYear
  146097 * (year / 400) + dayOfGroup - 719468

/-- The date that many days after 1970-01-01. -/
def ofDays (days : Int) : CivilDate :=
  let shifted := days + 719468
  let dayOfGroup := shifted % 146097
  let yearOfGroup :=
    (dayOfGroup - dayOfGroup / 1460 + dayOfGroup / 36524 - dayOfGroup / 146096) / 365
  let dayOfYear := dayOfGroup - (365 * yearOfGroup + yearOfGroup / 4 - yearOfGroup / 100)
  let monthFromMarch := (5 * dayOfYear + 2) / 153
  let day := dayOfYear - (153 * monthFromMarch + 2) / 5 + 1
  let month := if monthFromMarch < 10 then monthFromMarch + 3 else monthFromMarch - 9
  let year := yearOfGroup + 400 * (shifted / 146097)
  ⟨if month ≤ 2 then year + 1 else year, month.toNat, day.toNat⟩

end CivilDate

/-! ### Moments -/

/-- A moment of universal time. -/
structure Timestamp where
  /-- Seconds since 1970-01-01T00:00:00, leap seconds not counted. -/
  seconds : Int
  /-- Nanoseconds since the start of that second; from a thousand million on, the moment lies in
  the leap second behind it. -/
  nanos : Nat
deriving DecidableEq, Repr, Inhabited

namespace Timestamp

open Text (digitsValue padded)

/-- A year: four digits, and a sign outside the years 0 to 9999. -/
def renderYear (year : Int) : List Char :=
  if 0 ≤ year ∧ year ≤ 9999 then padded 4 year.toNat
  else if year < 0 then '-' :: padded 4 year.natAbs
  else '+' :: padded 4 year.natAbs

/-- A fraction of a second: no digits, or three, six or nine, as few as keep it exact. -/
def renderFraction (nanos : Nat) : List Char :=
  if nanos == 0 then []
  else if nanos % 1000000 == 0 then '.' :: padded 3 (nanos / 1000000)
  else if nanos % 1000 == 0 then '.' :: padded 6 (nanos / 1000)
  else '.' :: padded 9 nanos

/-- The text of a moment in universal time. -/
def render (t : Timestamp) : String :=
  let date := CivilDate.ofDays (t.seconds / 86400)
  let secondOfDay := (t.seconds % 86400).toNat
  let leap := decide (1000000000 ≤ t.nanos)
  let second := secondOfDay % 60 + if leap then 1 else 0
  let nanos := if leap then t.nanos - 1000000000 else t.nanos
  String.ofList (renderYear date.year ++ '-' :: padded 2 date.month ++ '-' :: padded 2 date.day ++
    'T' :: padded 2 (secondOfDay / 3600) ++ ':' :: padded 2 (secondOfDay / 60 % 60) ++
    ':' :: padded 2 second ++ renderFraction nanos ++ ['Z'])

/-! ### Reading -/

/-- A number of one digit to `width` digits. -/
def readDigits (width : Nat) (cs : List Char) : Option (Nat × List Char) :=
  let digits := (cs.take width).takeWhile Char.isDigit
  if digits.isEmpty then none else some (digitsValue digits, cs.drop digits.length)

/-- A number of one digit or two within bounds, blanks before it. -/
def readField (lo hi : Nat) (cs : List Char) : Option (Nat × List Char) := do
  let (n, rest) ← readDigits 2 (Text.trimLeft cs)
  if lo ≤ n ∧ n ≤ hi then return (n, rest) else none

/-- A year, blanks before it: up to four digits, or any number of them behind a sign. -/
def readYear (cs : List Char) : Option (Int × List Char) :=
  match Text.trimLeft cs with
  | '-' :: rest => (readDigits rest.length rest).map fun (n, rest) => (-(n : Int), rest)
  | '+' :: rest => (readDigits rest.length rest).map fun (n, rest) => ((n : Int), rest)
  | cs => (readDigits 4 cs).map fun (n, rest) => ((n : Int), rest)

/-- The text behind a mark, blanks before it. -/
def readMark (mark : Char) (cs : List Char) : Option (List Char) :=
  match Text.trimLeft cs with
  | c :: rest => if c = mark then some rest else none
  | [] => none

/-- A fraction of a second in nanoseconds; digits behind the ninth do not count. -/
def readFraction : List Char → Option (Nat × List Char)
  | '.' :: rest => do
    let (n, behind) ← readDigits 9 rest
    let width := rest.length - behind.length
    return (n * Nat.pow 10 (9 - width), behind.dropWhile Char.isDigit)
  | cs => some (0, cs)

/-- Whether the text starts with `UTC` in letters of any case. -/
def startsWithUtc (cs : List Char) : Bool :=
  (cs.take 3).map Char.toUpper == ['U', 'T', 'C']

/-- Hours and minutes of an offset, in seconds: two digits each, colons and blanks between. -/
def readOffsetDigits (cs : List Char) : Option (Nat × List Char) :=
  match cs with
  | h :: h' :: rest =>
    if h.isDigit && h'.isDigit then
      match rest.dropWhile fun c => c == ':' || Text.isBlank c with
      | m :: m' :: rest =>
        if m.isDigit && m'.isDigit && digitsValue [m] ≤ 5 then
          some (digitsValue [h, h'] * 3600 + digitsValue [m, m'] * 60, rest)
        else none
      | _ => none
    else none
  | _ => none

/-- An offset from universal time in seconds: `Z`, `UTC`, or a sign with hours and minutes of less
than a day. -/
def readOffset (cs : List Char) : Option (Int × List Char) :=
  if startsWithUtc cs then some (0, cs.drop 3)
  else match cs with
    | 'Z' :: rest | 'z' :: rest => some (0, rest)
    | sign :: rest => do
      let (n, rest) ← readOffsetDigits rest
      if 86400 ≤ n then none
      else if sign = '+' then return ((n : Int), rest)
      else if sign = '-' ∨ sign = '\u2212' then return (-(n : Int), rest)
      else none
    | [] => none

/-- The moment that a text denotes. -/
def parse (text : String) : Option Timestamp := do
  let (year, rest) ← readYear text.toList
  let rest ← readMark '-' rest
  let (month, rest) ← readField 1 12 rest
  let rest ← readMark '-' rest
  let (day, rest) ← readField 1 31 rest
  let rest ← match rest with
    | 'T' :: rest | 't' :: rest | ' ' :: rest => some rest
    | _ => none
  let (hour, rest) ← readField 0 23 rest
  let rest ← readMark ':' rest
  let (minute, rest) ← readField 0 59 rest
  let rest ← readMark ':' rest
  let (second, rest) ← readField 0 60 rest
  let (fraction, rest) ← readFraction rest
  let (offset, rest) ← readOffset (Text.trimLeft rest)
  let date : CivilDate := ⟨year, month, day⟩
  if !date.isValid || !Text.isAllBlank rest then none
  let here : Int := date.toDays * 86400 + hour * 3600 + minute * 60 + min second 59
  let universal := here - offset
  if !(CivilDate.ofDays (universal / 86400)).isValid then none
  return ⟨universal, fraction + if second = 60 then 1000000000 else 0⟩

end Timestamp

end RepoAccess
