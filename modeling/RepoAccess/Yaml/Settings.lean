/-
Settings from a YAML document.

A scalar is read as what is asked for: any scalar is a text, and one without quotes may be a number
or a truth value. Nothing written is a section with nothing in it, but `~` is not. An alternative is
named by a scalar, or by a local tag on one that says nothing.
-/
import RepoAccess.Config.Node
import RepoAccess.Yaml.Node

namespace RepoAccess.Yaml

/-- A node of a document. -/
structure NodeIn where
  node : Yaml
  /-- The document's nodes with anchors. -/
  anchored : List (Nat × Yaml)

/-- The tag of a type that every document knows. -/
def coreTag (type : String) : Tag := Text.Utf8.encode ("tag:yaml.org,2002:" ++ type)

namespace NodeIn

/-- The node that is meant, which is no alias. -/
def meant (n : NodeIn) : Option Yaml :=
  match n.node with
  | .alias number => n.anchored.lookup number
  | node => some node

/-- The node is a scalar with that text. -/
def text? (n : NodeIn) : Option String :=
  match n.meant with
  | some (.scalar _ _ text) => some text
  | _ => none

/-- The text of a scalar that may stand for a value of a type: one without quotes, or a literal
block with the tag of the type. -/
def typedText? (type : String) (n : NodeIn) : Option String :=
  match n.meant with
  | some (.scalar tag style text) =>
    if style = .plain || (style = .literal && tag = some (coreTag type)) then some text
    else none
  | _ => none

end NodeIn

/-! ### Words -/

/-- The word says that there is no value. -/
def isNull (word : String) : Bool := ["null", "Null", "NULL", "~"].contains word

/-- A number from zero on: in decimal digits, no zero before them, or in another base behind its
mark; a plus sign before it or not. -/
def number? (word : List Char) : Option Nat :=
  let unsigned := match word with
    | '+' :: rest => rest
    | cs => cs
  match unsigned with
  | '0' :: 'x' :: rest => Text.numberIn? 16 rest
  | '0' :: 'o' :: rest => Text.numberIn? 8 rest
  | '0' :: 'b' :: rest => Text.numberIn? 2 rest
  | '0' :: _ :: _ => none
  | cs => Text.numberIn? 10 cs

/-- A truth value, in small letters, in capitals, or with a first capital. -/
def truthValue? (word : String) : Option Bool :=
  if ["true", "True", "TRUE"].contains word then some true
  else if ["false", "False", "FALSE"].contains word then some false
  else none

/-! ### Nodes -/

/-- The fields of those names in a mapping, whose keys must all be scalars; none is given twice. -/
def fieldsOf? (names : List String) (anchored : List (Nat × Yaml)) (entries : List (Yaml × Yaml)) :
    Option (List (String × NodeIn)) := do
  let fields ← entries.mapM fun (key, v) =>
    (NodeIn.text? ⟨key, anchored⟩).map fun key => (key, (⟨v, anchored⟩ : NodeIn))
  let known := fields.filter fun (key, _) => names.contains key
  if (known.map Prod.fst).Nodup then some known else none

/-- The local name of a tag: the text behind an exclamation mark. -/
def localName? (tag : Tag) : Option String :=
  match Text.Utf8.decode tag with
  | .ok name => if name.startsWith "!" then some (name.drop 1).toString else none
  | .error _ => none

instance : SettingsNode NodeIn where
  fields? names n :=
    match n.meant with
    | some (.mapping _ entries) => fieldsOf? names n.anchored entries
    | some (.scalar _ .plain "") => some []
    | _ => none
  text? n := n.text?
  number? bound n := do
    let value ← number? (← n.typedText? "int").toList
    if value < bound then return value else none
  truthValue? n := (n.typedText? "bool").bind truthValue?
  choice? n :=
    match n.meant with
    | some (.scalar tag style text) =>
      match tag.bind localName? with
      | some variant =>
        if style = .plain && (text.isEmpty || isNull text) then some variant else none
      | none => some text
    | _ => none
  optional? n :=
    match n.meant with
    | some (.scalar none .plain text) => some (if text.isEmpty || isNull text then none else some n)
    | some (.scalar (some tag) .plain text) =>
      if tag = coreTag "null" then if isNull text then some none else none
      else some (some n)
    | _ => some (some n)

end RepoAccess.Yaml
