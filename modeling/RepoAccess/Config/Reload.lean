/-
Following a file of settings.

* `FileEvent`, `BindingMode.follow` — the binding mode after a file was rewritten or removed, or a
  mode was set.
* `WatchedFile`, `WatchedFile.signals` — what a watcher of a file tells.

A file that cannot be read, or whose settings are out of bounds, leaves the mode as it is.
-/
import RepoAccess.Config.File
import RepoAccess.Config.Validity

namespace RepoAccess

/-! ### The binding mode -/

/-- What happens to a file of settings, or to the mode itself. -/
inductive FileEvent where
  | rewritten (bytes : List UInt8)
  | set (mode : BindingMode)
  | removed
deriving DecidableEq, Repr

/-- The binding mode in a file, if its settings can be read and are within bounds. -/
def publishedMode? (path bytes : List UInt8) : Option BindingMode :=
  match loadConfig path (.bytes bytes) with
  | .ok config => if config.isValid then some config.mapping.bindId else none
  | .error _ => none

/-- The binding mode after an event. -/
def BindingMode.follow (path : List UInt8) (mode : BindingMode) : FileEvent → BindingMode
  | .rewritten bytes => (publishedMode? path bytes).getD mode
  | .set mode => mode
  | .removed => mode

/-- The binding mode at the start and after each event. -/
def BindingMode.history (path : List UInt8) (mode : BindingMode) :
    List FileEvent → List BindingMode
  | [] => [mode]
  | event :: events => mode :: (mode.follow path event).history path events

/-! ### Watching -/

/-- What a watcher tells. -/
inductive WatchSignal where
  | ready
  | changed
  | removed
  | failed (reason : String)
deriving DecidableEq, Repr

/-- What happens to a file under a watcher. -/
structure WatchedFile where
  name : String
  /-- The file is there when the watcher starts. -/
  isThere : Bool := true
  /-- It is gone before the watcher is in place. -/
  vanishes : Bool := false
  isRewritten : Bool := false
  isRemoved : Bool := false
deriving DecidableEq, Repr

/-- What the watcher tells, or why it cannot start. Removing a file changes it first. -/
def WatchedFile.signals (f : WatchedFile) : Except String (List WatchSignal) :=
  if !f.isThere then .error ("Config file not found: " ++ Text.quoted f.name)
  else if f.vanishes then
    .ok [.failed ("Failed to watch config file: No path was found. about " ++
      Text.quotedList [f.name])]
  else
    .ok (.ready :: (if f.isRewritten || f.isRemoved then [.changed] else []) ++
      if f.isRemoved then [.removed] else [])

end RepoAccess
