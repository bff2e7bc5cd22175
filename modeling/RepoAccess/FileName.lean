/-
Names of files, as bytes.

* `FileName.last?` — the last part of a path, if it names a file.
* `FileName.extension?` — what stands behind the last point of that part.
* `FileName.isTooLong` — a path that cannot be looked up.

A part that is empty or a single point leads nowhere and does not count. Bytes need not be text.
-/

namespace RepoAccess.FileName

/-- The byte that separates the parts of a path. -/
def slash : UInt8 := 0x2F

/-- The byte before an extension. -/
def point : UInt8 := 0x2E

/-- The parts of a path that count. -/
def parts (path : List UInt8) : List (List UInt8) :=
  (path.splitOn slash).filter fun part => !part.isEmpty && part != [point]

/-- The last part of a path, unless it leads back to the directory above. -/
def last? (path : List UInt8) : Option (List UInt8) :=
  match (parts path).getLast? with
  | some part => if part = [point, point] then none else some part
  | none => none

/-- What stands behind the last point of a path's last part; a point that starts the part is no mark
of an extension. -/
def extension? (path : List UInt8) : Option (List UInt8) := do
  let file ← last? path
  let behind := (file.reverse.takeWhile (· != point)).reverse
  if behind.length + 1 < file.length then some behind else none

/-- The most bytes that a part of a path may have. -/
def maxPart : Nat := 255

/-- The most bytes that a path may have. -/
def maxPath : Nat := 4095

/-- A path under which nothing is found is too long to be looked up: as a whole, or in the first
part behind those that lead to directories above. Behind that part nothing is looked up. -/
def isTooLong (path : List UInt8) : Bool :=
  let below := (parts path).dropWhile (· == [point, point])
  maxPath < path.length || below.head?.any (maxPart < ·.length)

end RepoAccess.FileName
