/-
Path rules: which paths of a repository a user may read.

* `PathRule.compile` — the rule that a text denotes; a leading dash makes it an exclusion.
* `compileRules` — the rules of a list of texts, or the first one that is malformed.
* `isAllowed` — whether rules admit a path: the first rule that matches decides, and a path that no
  rule matches is denied.

Paths and rules are read from the root: a missing leading slash is added to both.
-/
import RepoAccess.Error
import RepoAccess.PathPattern
import RepoAccess.Text.Blank

namespace RepoAccess

/-- A rule on paths. -/
structure PathRule where
  pattern : PathPattern
  /-- The rule denies what it matches. -/
  excludes : Bool
deriving DecidableEq, Repr

/-- The path read from the root. -/
def fromRoot : List Char → List Char
  | '/' :: rest => '/' :: rest
  | path => '/' :: path

/-- Whether a rule's text is an exclusion, and the pattern in it. -/
def splitPolarity : List Char → Bool × List Char
  | '-' :: body => (true, body)
  | body => (false, body)

/-- The rule that a text denotes. -/
def PathRule.compile (text : String) : Except AccessError PathRule :=
  let (excludes, body) := splitPolarity text.toList
  if Text.isAllBlank body then .error (.invalidPattern text "empty pattern")
  else match PathPattern.parse (fromRoot body) with
    | .error fault => .error (.invalidPattern text fault.message)
    | .ok pattern => .ok ⟨pattern, excludes⟩

/-- Whether the rule applies to a path. -/
def PathRule.appliesTo (rule : PathRule) (path : String) : Bool :=
  rule.pattern.accepts (fromRoot path.toList)

/-- The rules of a list of texts; the first malformed one fails the list. -/
def compileRules (texts : List String) : Except AccessError (List PathRule) :=
  texts.mapM PathRule.compile

/-- Whether the rules admit a path. -/
def isAllowed (rules : List PathRule) (path : String) : Bool :=
  match rules.find? (·.appliesTo path) with
  | some rule => !rule.excludes
  | none => false

end RepoAccess
