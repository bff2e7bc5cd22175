/-
Patterns over slash-separated paths.

* `PathPattern` — a list of tokens: one character each for a literal, `?` and a bracket class; `*`
  for any part of one component; `**` for any number of whole components.
* `PathPattern.parse` — the pattern that a text denotes, or the fault in it and where it is.
* `PathPattern.accepts` — whether a pattern matches a whole path.

No token but `**` and a literal slash ever stands for a slash, so a pattern without `**` stays
within the directory levels it spells out.
-/

namespace RepoAccess

/-! ### Tokens -/

/-- One member of a bracket class. -/
inductive ClassItem where
  | one (c : Char)
  | range (lo hi : Char)
deriving DecidableEq, Repr

/-- Whether the member covers the character; the ends of a range belong to it. -/
def ClassItem.holds : ClassItem → Char → Bool
  | .one d, c => c == d
  | .range lo hi, c => decide (lo ≤ c) && decide (c ≤ hi)

/-- The members that the inside of a bracket class lists: `a-b` is a range wherever a dash stands
between two characters. -/
def ClassItem.ofChars : List Char → List ClassItem
  | lo :: '-' :: hi :: rest => .range lo hi :: ClassItem.ofChars rest
  | c :: rest => .one c :: ClassItem.ofChars rest
  | [] => []

/-- A unit of a pattern. -/
inductive PathToken where
  /-- This character itself. -/
  | literal (c : Char)
  /-- Any one character but a slash. -/
  | anyChar
  /-- One character but a slash that is among the members, or outside them when negated. -/
  | charClass (negated : Bool) (items : List ClassItem)
  /-- Any characters but slashes, also none. -/
  | anySequence
  /-- Any number of whole components, also none. -/
  | anyComponents
deriving DecidableEq, Repr

/-- A pattern is the list of its tokens. -/
abbrev PathPattern := List PathToken

/-! ### Reading a pattern -/

/-- What is wrong with the text of a pattern. -/
inductive PatternFault.Cause where
  /-- Three or more stars in a row. -/
  | tooManyStars
  /-- Two stars beside something that is not a slash. -/
  | partialComponent
  /-- A bracket class that is empty or never closed. -/
  | openClass
deriving DecidableEq, Repr

/-- A fault and the character, counted from zero, at which it is reported. -/
structure PatternFault where
  position : Nat
  cause : PatternFault.Cause
deriving DecidableEq, Repr

/-- The wording of a cause. -/
def PatternFault.Cause.message : PatternFault.Cause → String
  | .tooManyStars => "wildcards are either regular `*` or recursive `**`"
  | .partialComponent => "recursive wildcards must form a single path component"
  | .openClass => "invalid range pattern"

/-- The wording of a fault. -/
def PatternFault.message (fault : PatternFault) : String :=
  "Pattern syntax error near position " ++ toString fault.position ++ ": " ++ fault.cause.message

/-- Reads the tokens of the characters that stand at `position`, after the character `previous`.

Two stars are a token of their own only as a whole component, and take the slash behind them. The
first member of a bracket class may be any character, a closing bracket too. -/
def PathPattern.parseFrom (position : Nat) (previous : Option Char) :
    List Char → Except PatternFault PathPattern
  | [] => .ok []
  | '?' :: rest => do
    return .anyChar :: (← parseFrom (position + 1) (some '?') rest)
  | '*' :: '*' :: '*' :: _ => .error ⟨position + 2, .tooManyStars⟩
  | '*' :: '*' :: rest =>
    if previous.any (· != '/') then .error ⟨position - 1, .partialComponent⟩
    else match rest with
      | [] => .ok [.anyComponents]
      | '/' :: rest => do return .anyComponents :: (← parseFrom (position + 3) (some '/') rest)
      | _ :: _ => .error ⟨position + 2, .partialComponent⟩
  | '*' :: rest => do
    return .anySequence :: (← parseFrom (position + 1) (some '*') rest)
  | '[' :: '!' :: first :: rest =>
    match h : rest.dropWhile (· != ']') with
    | [] => .error ⟨position, .openClass⟩
    | _ :: after =>
      have := (List.dropWhile_sublist (l := rest) (· != ']')).length_le
      let members := first :: rest.takeWhile (· != ']')
      do return .charClass true (ClassItem.ofChars members) ::
          (← parseFrom (position + members.length + 3) (some ']') after)
  | '[' :: first :: rest =>
    match h : rest.dropWhile (· != ']') with
    | [] => .error ⟨position, .openClass⟩
    | _ :: after =>
      have := (List.dropWhile_sublist (l := rest) (· != ']')).length_le
      let members := first :: rest.takeWhile (· != ']')
      do return .charClass false (ClassItem.ofChars members) ::
          (← parseFrom (position + members.length + 2) (some ']') after)
  | ['['] => .error ⟨position, .openClass⟩
  | c :: rest => do
    return .literal c :: (← parseFrom (position + 1) (some c) rest)
termination_by cs => cs.length
decreasing_by all_goals simp_all; try omega

/-- The pattern that a text denotes. -/
def PathPattern.parse (text : List Char) : Except PatternFault PathPattern :=
  PathPattern.parseFrom 0 none text

/-! ### Matching -/

/-- The endings of a text that start in its first component, the text itself first. -/
def endingsInComponent : List Char → List (List Char)
  | [] => [[]]
  | c :: rest => (c :: rest) :: if c = '/' then [] else endingsInComponent rest

/-- The endings of a text that start behind a slash, and the empty one. -/
def endingsAfterSlash : List Char → List (List Char)
  | [] => [[]]
  | c :: rest => if c = '/' then rest :: endingsAfterSlash rest else endingsAfterSlash rest

/-- What is left of a text when a token that stands for one character takes its first. -/
def restIf (accepts : Char → Bool) : List Char → List (List Char)
  | [] => []
  | c :: rest => if accepts c then [rest] else []

/-- What may be left of a text when a token takes its beginning. -/
def PathToken.endings : PathToken → List Char → List (List Char)
  | .literal d => restIf (· == d)
  | .anyChar => restIf (· != '/')
  | .charClass negated items => restIf fun c => c != '/' && (items.any (·.holds c) != negated)
  | .anySequence => endingsInComponent
  | .anyComponents => fun s => s :: endingsAfterSlash s

/-- Whether the tokens, one after another, take the whole text. -/
def PathPattern.accepts : PathPattern → List Char → Bool
  | [], s => s.isEmpty
  | token :: tokens, s => (token.endings s).any fun rest => PathPattern.accepts tokens rest

end RepoAccess
