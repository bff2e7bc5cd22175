/-
Settings in files.

* `ConfigFormat` — the formats, with `ConfigFormat.ofPath` by the extension of a file's name.
* `parseConfig` — the settings in a text.
* `FileContents`, `loadConfig` — the settings in a file.

A file without an extension has no format, and the extension counts whatever the case of its
letters.
-/
import RepoAccess.Error
import RepoAccess.FileName
import RepoAccess.Toml.Settings
import RepoAccess.Yaml.Settings

namespace RepoAccess

/-! ### Formats -/

/-- A format of settings. -/
inductive ConfigFormat where
  | toml
  | yaml
deriving DecidableEq, Repr

instance : Named ConfigFormat where
  all := [.toml, .yaml]
  name
    | .toml => "Toml"
    | .yaml => "Yaml"

/-- What is wrong with a file of settings. -/
def fileError (path : List UInt8) (reason : String) : AccessError :=
  .configuration (Text.Utf8.decodeLossy path ++ ": " ++ reason)

/-- The format of a path. -/
def ConfigFormat.ofPath (path : List UInt8) : Except AccessError ConfigFormat :=
  match (FileName.extension? path).map Text.Utf8.decode with
  | some (.ok extension) =>
    let extension := String.ofList (extension.toList.map Char.toLower)
    if extension = "toml" then .ok .toml
    else if extension = "yaml" ∨ extension = "yml" then .ok .yaml
    else .error (fileError path ("unsupported format ." ++ extension))
  | _ => .error (fileError path "no file extension")

/-! ### Texts -/

/-- The settings in a text, if it has the format. -/
def parseConfig? (format : ConfigFormat) (text : String) : Option Config :=
  match format with
  | .toml => (Toml.parse text).bind Config.ofNode
  | .yaml => (Yaml.parse text).bind fun document =>
      Config.ofNode (⟨document.root, document.anchored⟩ : Yaml.NodeIn)

/-- What is said of a text that has not the format. -/
def wrongFormat (format : ConfigFormat) : String := "invalid " ++ name format ++ " configuration"

/-- The settings in a text. -/
def parseConfig (format : ConfigFormat) (text : String) : Except AccessError Config :=
  match parseConfig? format text with
  | some config => .ok config
  | none => .error (.configuration (wrongFormat format))

/-! ### Files -/

/-- What is found under a path. -/
inductive FileContents where
  | missing
  | directory
  | bytes (content : List UInt8)
deriving DecidableEq, Repr

/-- Why nothing is found under a path. -/
def missingReason (path : List UInt8) : String :=
  if path.contains 0 then "file name contained an unexpected NUL byte"
  else if FileName.isTooLong path then "File name too long (os error 36)"
  else "No such file or directory (os error 2)"

/-- The text of the file under a path, or why there is none. -/
def FileContents.text (path : List UInt8) : FileContents → Except String String
  | .missing => .error (missingReason path)
  | .directory => .error "Is a directory (os error 21)"
  | .bytes content =>
    match Text.Utf8.decode content with
    | .ok text => .ok text
    | .error _ => .error "stream did not contain valid UTF-8"

/-- The settings in a file. -/
def loadConfig (path : List UInt8) (contents : FileContents) : Except AccessError Config := do
  let format ← ConfigFormat.ofPath path
  let text ← (contents.text path).mapError (fileError path)
  match parseConfig? format text with
  | some config => return config
  | none => throw (fileError path (wrongFormat format))

end RepoAccess
