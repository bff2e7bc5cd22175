/-
Blank characters.

* `isBlank` — the Unicode property White_Space.
* `trimLeft` — a text without the blanks before it.
* `isAllBlank` — nothing is left once the blanks are gone.
-/

namespace RepoAccess.Text

/-- The Unicode property White_Space. -/
def isBlank (c : Char) : Bool :=
  let n := c.toNat
  (0x9 ≤ n && n ≤ 0xd) || n == 0x20 || n == 0x85 || n == 0xa0 || n == 0x1680 ||
    (0x2000 ≤ n && n ≤ 0x200a) || n == 0x2028 || n == 0x2029 || n == 0x202f || n == 0x205f ||
    n == 0x3000

/-- The text from its first character that is not blank. -/
def trimLeft (cs : List Char) : List Char :=
  cs.dropWhile isBlank

/-- Every character is blank; the empty text counts. -/
def isAllBlank (cs : List Char) : Bool :=
  cs.all isBlank

end RepoAccess.Text
