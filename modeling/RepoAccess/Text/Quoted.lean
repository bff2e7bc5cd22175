/-
Quoted text, as messages show a text that came from outside.

* `quoted` — the text between double quotes, with what would not be seen written as an escape.
* `quotedBytes` — bytes that should be text, each byte that is none written by its value.

A quote, a backslash, a line feed, a carriage return, a tab and a null character have short
escapes; every other character that is unseen, or that would join the character before it, is
written by its code point in hexadecimal digits.
-/
import RepoAccess.Text.Utf8
import RepoAccess.Text.Visible

namespace RepoAccess.Text

/-- One character of a quoted text. -/
def quotedChar (c : Char) : String :=
  if c = '"' then "\\\""
  else if c = '\\' then "\\\\"
  else if c = '\n' then "\\n"
  else if c = '\r' then "\\r"
  else if c = '\t' then "\\t"
  else if c.toNat = 0 then "\\0"
  else if isUnseen c || extendsGrapheme c then
    "\\u\x7b" ++ String.ofList (hexDigits c.toNat) ++ "\x7d"
  else c.toString

/-- The text between double quotes, its characters escaped where needed. -/
def quoted (s : String) : String :=
  "\"" ++ String.join (s.toList.map quotedChar) ++ "\""

/-- A byte as two hexadecimal digits, upper case. -/
def byteDigits (b : UInt8) : List Char :=
  let digits := (hexDigits b.toNat).map Char.toUpper
  List.replicate (2 - digits.length) '0' ++ digits

/-- One piece of quoted bytes. -/
def quotedPiece : Utf8.Piece → String
  | .char c => quotedChar c
  | .stray bytes _ => String.join (bytes.map fun b => "\\x" ++ String.ofList (byteDigits b))

/-- Bytes between double quotes. -/
def quotedBytes (bytes : List UInt8) : String :=
  "\"" ++ String.join ((Utf8.pieces bytes).map quotedPiece) ++ "\""

/-- Quoted texts between square brackets. -/
def quotedList (items : List String) : String :=
  "[" ++ ", ".intercalate (items.map quoted) ++ "]"

end RepoAccess.Text
