/-
Escapes in a URL.

* `Url.percentDecode` — the bytes that a part of a URL stands for.
* `Url.formPairs` — the parameters behind a question mark.

A byte is escaped by a percent sign and its two hexadecimal digits; other percent signs stand for
themselves. In a parameter a plus sign is a blank. Bytes of a parameter that are no text are
replaced, so every parameter can be read.
-/
import RepoAccess.Text.Utf8

namespace RepoAccess.Url

/-- The text before the first mark, and the text behind it if there is one. -/
def cutAt (mark : Char) (cs : List Char) : List Char × Option (List Char) :=
  match cs.dropWhile (· != mark) with
  | [] => (cs, none)
  | _ :: rest => (cs.takeWhile (· != mark), some rest)

/-- The texts between marks. -/
def splitAt (mark : Char) (cs : List Char) : List (List Char) := cs.splitOn mark

/-- Bytes with every percent sign and two hexadecimal digits read as one byte. -/
def percentDecode : List UInt8 → List UInt8
  | [] => []
  | b :: rest =>
    match rest with
    | h :: l :: behind =>
      match Text.hexValue? (Char.ofNat h.toNat), Text.hexValue? (Char.ofNat l.toNat) with
      | some high, some low =>
        if b = 0x25 then (16 * high + low).toUInt8 :: percentDecode behind
        else b :: percentDecode (h :: l :: behind)
      | _, _ => b :: percentDecode (h :: l :: behind)
    | rest => b :: percentDecode rest
termination_by bs => bs.length

/-- The text that a name or a value among parameters stands for. -/
def formText (cs : List Char) : String :=
  let spaced := String.ofList (cs.map fun c => if c = '+' then ' ' else c)
  Text.Utf8.decodeLossy (percentDecode (Text.Utf8.encode spaced))

/-- The parameters in a text: names and values with equals signs between them. -/
def formPairs (query : List Char) : List (String × String) :=
  ((splitAt '&' query).filter (!·.isEmpty)).map fun pair =>
    let (title, assigned) := cutAt '=' pair
    (formText title, formText (assigned.getD []))

end RepoAccess.Url
