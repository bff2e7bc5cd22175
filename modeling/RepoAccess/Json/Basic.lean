/-
JSON values and their compact text.

* `Json` — a JSON text as a tree. Members of an object keep their order and may repeat a name.
* `Json.render` — the text of a value without blanks.

The only numbers this library writes are integers. A JSON text may hold more: a number with a
fraction or an exponent, a negative zero, or a string with half a surrogate pair. Such a part is
well-formed and may stand where nobody looks at it, but it denotes no value here: it is read as
`Json.unreadable`.
-/
import RepoAccess.Text.Digits

namespace RepoAccess

/-- A JSON text as a tree. -/
inductive Json where
  | null
  | bool (b : Bool)
  | integer (n : Int)
  | string (s : String)
  | array (items : List Json)
  | object (members : List (String × Json))
  /-- A well-formed part that denotes no value. -/
  | unreadable
deriving Inhabited, Repr

namespace Json

/-! ### Text -/

/-- A control character as an escape: four hexadecimal digits. -/
def controlEscape (c : Char) : List Char :=
  let digits := Text.hexDigits c.toNat
  '\\' :: 'u' :: (List.replicate (4 - digits.length) '0' ++ digits)

/-- One character of a string's text. Quotes, backslashes and control characters are escaped. -/
def escaped (c : Char) : List Char :=
  match c with
  | '"' => ['\\', '"']
  | '\\' => ['\\', '\\']
  | '\x08' => ['\\', 'b']
  | '\t' => ['\\', 't']
  | '\n' => ['\\', 'n']
  | '\x0c' => ['\\', 'f']
  | '\r' => ['\\', 'r']
  | c => if c.toNat < 32 then controlEscape c else [c]

/-- The text of a string, quotes included. -/
def renderText (s : String) : List Char :=
  '"' :: (s.toList.flatMap escaped ++ ['"'])

mutual

/-- The characters of a value's compact text. An unreadable part is written as `null`. -/
def renderChars : Json → List Char
  | .null => "null".toList
  | .bool true => "true".toList
  | .bool false => "false".toList
  | .integer n => (toString n).toList
  | .string s => renderText s
  | .array items => '[' :: renderItems items
  | .object members => '\x7b' :: renderMembers members
  | .unreadable => "null".toList

/-- The items of an array and the closing bracket. -/
def renderItems : List Json → List Char
  | [] => [']']
  | [v] => renderChars v ++ [']']
  | v :: rest => renderChars v ++ ',' :: renderItems rest

/-- The members of an object and the closing brace. -/
def renderMembers : List (String × Json) → List Char
  | [] => ['\x7d']
  | [(name, v)] => renderText name ++ ':' :: (renderChars v ++ ['\x7d'])
  | (name, v) :: rest => renderText name ++ ':' :: (renderChars v ++ ',' :: renderMembers rest)

end

/-- The compact text of a value. -/
def render (j : Json) : String :=
  String.ofList j.renderChars

/-! ### Access -/

/-- The first member of that name. -/
def member? (j : Json) (name : String) : Option Json :=
  match j with
  | .object members => members.lookup name
  | _ => none

end Json

end RepoAccess
