/-
Numbers written in decimal digits.

* `parseNumber` — the number that a text denotes, below a bound.
* `NumberError` — why a text denotes none.

Of a digit too many and a character that is no digit, the one that comes first is what is wrong.
-/
import RepoAccess.Text.Digits

namespace RepoAccess.Text

/-- Why a text is no number. -/
inductive NumberError where
  | empty
  | badDigit
  | tooLarge
deriving DecidableEq, Repr

/-- The wording of an error. -/
def NumberError.message : NumberError → String
  | .empty => "cannot parse integer from empty string"
  | .badDigit => "invalid digit found in string"
  | .tooLarge => "number too large to fit in target type"

/-- A number below `bound`: digits, a plus sign before them or not. -/
def parseNumber (bound : Nat) (text : String) : Except NumberError Nat :=
  let cs := match text.toList with
    | '+' :: rest => rest
    | cs => cs
  let digits := cs.takeWhile Char.isDigit
  if text.isEmpty then .error .empty
  else if bound ≤ digitsValue digits then .error .tooLarge
  else if digits.isEmpty || digits.length < cs.length then .error .badDigit
  else .ok (digitsValue digits)

end RepoAccess.Text
