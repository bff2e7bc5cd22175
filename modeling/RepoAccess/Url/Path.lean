/-
Paths of URLs.

* `Url.resolvePath` — the path without segments that lead nowhere or back.

A segment of one point leads nowhere, one of two points leads back over the segment before it, and
either leaves an open slash where it comes last. The points may be escaped. A segment that looks
like the name of a drive is not led back over, and neither is the first slash.
-/
import RepoAccess.Url.Escape

namespace RepoAccess.Url

/-- How many points a text consists of, each as it is or escaped, if it consists of nothing else. -/
def pointCount? : List Char → Option Nat
  | [] => some 0
  | '.' :: rest => (pointCount? rest).map (· + 1)
  | '%' :: '2' :: c :: rest =>
    if c == 'e' || c == 'E' then (pointCount? rest).map (· + 1) else none
  | _ => none

/-- The segment looks like the name of a drive: a letter, a colon or a bar, and nothing behind them
but what a backslash starts. -/
def isDrive : List Char → Bool
  | letter :: mark :: rest =>
    letter.isAlpha && (mark == ':' || mark == '|') && (rest.isEmpty || rest.head? = some '\\')
  | _ => false

/-- The segments that are left when two points lead back over the last one. -/
def leadBack : List (List Char) → List (List Char)
  | segment :: above => if isDrive segment then segment :: above else above
  | [] => []

/-- The segments that segments behind `above` lead to, the last one first. -/
def resolveSegments (above : List (List Char)) : List (List Char) → List (List Char)
  | [] => above
  | segment :: rest =>
    let closing : List (List Char) := if rest.isEmpty then [[]] else []
    match pointCount? segment with
    | some 1 => resolveSegments (closing ++ above) rest
    | some 2 => resolveSegments (closing ++ leadBack above) rest
    | _ => resolveSegments (segment :: above) rest

/-- The path that a text which is empty or starts with a slash leads to. -/
def resolvePath : List Char → List Char
  | [] => []
  | path => ((resolveSegments [] (splitAt '/' (path.drop 1))).reverse.map ('/' :: ·)).flatten

end RepoAccess.Url
