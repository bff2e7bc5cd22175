/-
A followed file is one layer of several.

* `givenMode?`, `mode_mergeLayers` — of the layers that give a binding mode the highest one decides;
* `FileEvent.config?`, `BindingMode.foldl_follow` — whatever happens to a file, the mode becomes
  that of the last settings that could be read from it;
* `followed_mode_agrees_iff` — which is what all layers together give exactly if no layer above the
  file gives another one.

At the start the mode is taken from all layers. A watcher then reads the file, so the layers above
it have no more say once the file has been rewritten, even where its own mode stays the same.
-/
import RepoAccess.Config.Environment
import RepoAccess.Config.Reload
import RepoAccess.Proofs.Layers

namespace RepoAccess

/-! ### What layers give -/

/-- The binding mode that layers give, the highest layer last; unset is as good as not given. -/
def givenMode? : List (String × Config) → Option BindingMode
  | [] => none
  | (_, layer) :: higher =>
    (givenMode? higher).or
      (if layer.mapping.bindId = .unset then none else some layer.mapping.bindId)

theorem mode_overlay (below layer : Config) :
    (below.overlay layer).mapping.bindId =
      if layer.mapping.bindId = .unset then below.mapping.bindId else layer.mapping.bindId := by
  have hgives : layer.gives .bindId = true ↔ layer.mapping.bindId ≠ .unset := Config.gives_iff
  refine (below.get_overlay layer .bindId).trans ?_
  simp only [hgives, ite_not]
  rfl

theorem mode_mergeLayers (lowest : Config) (layers : List (String × Config)) :
    (mergeLayers lowest layers).1.mapping.bindId =
      (givenMode? layers).getD lowest.mapping.bindId := by
  induction layers generalizing lowest with
  | nil => rfl
  | cons layer higher ih =>
    rw [mergeLayers_cons, ih, mode_overlay, givenMode?]
    cases givenMode? higher with
    | some mode => rfl
    | none => split <;> rfl

/-- Above the defaults, a file gives its own mode where the layers above it give none. -/
theorem mode_mergeLayers_file (label : String) (file : Config) (above : List (String × Config)) :
    (mergeLayers {} ((label, file) :: above)).1.mapping.bindId =
      (givenMode? above).getD file.mapping.bindId := by
  rw [mode_mergeLayers, givenMode?]
  cases givenMode? above with
  | some mode => rfl
  | none =>
    by_cases hunset : file.mapping.bindId = .unset
    · rw [if_pos hunset, hunset]
      rfl
    · rw [if_neg hunset]
      rfl

/-! ### What a file gives -/

/-- The settings that a rewritten file holds, if they can be read and are within bounds. -/
def FileEvent.config? (path : List UInt8) : FileEvent → Option Config
  | .rewritten bytes => (loadConfig path (.bytes bytes)).toOption.filter Config.isValid
  | .set _ | .removed => none

namespace BindingMode

variable {path : List UInt8}

/-- Settings that can be read bring their mode, and nothing else that happens to a file does. -/
theorem follow_eq {event : FileEvent} (hset : ∀ mode, event ≠ .set mode) (mode : BindingMode) :
    mode.follow path event = ((event.config? path).map (·.mapping.bindId)).getD mode := by
  cases event with
  | set mode' => exact absurd rfl (hset mode')
  | removed => rfl
  | rewritten bytes =>
    rw [follow, publishedMode?, FileEvent.config?]
    cases loadConfig path (.bytes bytes) with
    | error error => rfl
    | ok config => cases hvalid : config.isValid <;> simp [Except.toOption, Option.filter, hvalid]

/-- The last settings that could be read bring their mode. -/
theorem foldl_follow {events : List FileEvent} (hset : ∀ mode, .set mode ∉ events)
    (mode : BindingMode) :
    events.foldl (follow path) mode =
      ((events.filterMap (·.config? path)).getLast?.map (·.mapping.bindId)).getD mode := by
  induction events generalizing mode with
  | nil => rfl
  | cons event events ih =>
    have hevent : ∀ mode, event ≠ .set mode := fun mode heq => hset mode (heq ▸ List.mem_cons_self)
    rw [List.foldl_cons, ih fun mode hmem => hset mode (List.mem_cons_of_mem _ hmem),
      follow_eq hevent]
    cases hconfig : event.config? path with
    | none => rw [List.filterMap_cons_none hconfig]; rfl
    | some config =>
      rw [List.filterMap_cons_some hconfig, List.getLast?_cons]
      cases (events.filterMap (·.config? path)).getLast? <;> rfl

/-- The last of the modes that are passed through. -/
theorem getLast?_history (mode : BindingMode) (events : List FileEvent) :
    (mode.history path events).getLast? = some (events.foldl (follow path) mode) := by
  induction events generalizing mode with
  | nil => rfl
  | cons event events ih => rw [history, List.getLast?_cons, ih, List.foldl_cons]; rfl

end BindingMode

/-! ### Both together -/

/-- The mode is taken from the defaults, a file and the layers above it, and the file is followed
from then on. As long as none of its settings can be read, the mode stays; afterwards it is that of
the last ones that could be read, and then it is what all layers together give with those settings
exactly if the layers above the file give no other mode. The same holds where only other settings
were changed and the mode should have stayed what it was. -/
theorem followed_mode_agrees_iff (path : List UInt8) (label : String) (file : Config)
    (above : List (String × Config)) {events : List FileEvent}
    (hset : ∀ mode, .set mode ∉ events) :
    let start config := (mergeLayers {} ((label, config) :: above)).1.mapping.bindId
    ∃ mode, ((start file).history path events).getLast? = some mode ∧
      (events.filterMap (·.config? path) = [] → mode = start file) ∧
      ∀ last, (events.filterMap (·.config? path)).getLast? = some last →
        mode = last.mapping.bindId ∧
        (mode = start last ↔
          ∀ given, givenMode? above = some given → given = last.mapping.bindId) ∧
        (last.mapping = file.mapping → (mode = start file ↔
          ∀ given, givenMode? above = some given → given = file.mapping.bindId)) := by
  intro start
  -- Both equivalences compare the mode of the file alone with that of all layers.
  have hagrees : ∀ config : Config, config.mapping.bindId = start config ↔
      ∀ given, givenMode? above = some given → given = config.mapping.bindId := by
    intro config
    have hstart : start config = (givenMode? above).getD config.mapping.bindId :=
      mode_mergeLayers_file label config above
    rw [hstart]
    cases givenMode? above with
    | none => simp
    | some given => simp [eq_comm]
  refine ⟨_, BindingMode.getLast?_history _ events, ?_, ?_⟩
  · intro hnone
    rw [BindingMode.foldl_follow hset, hnone]
    rfl
  · intro last hlast
    rw [BindingMode.foldl_follow hset, hlast]
    refine ⟨rfl, hagrees last, ?_⟩
    intro hsame
    simp only [Option.map_some, Option.getD_some, hsame]
    exact hagrees file

/-- Where the environment gives no mode, a file that is rewritten twice, the second time out of
bounds, is in step with all layers. -/
theorem followed_mode_agrees_iff_of_silent_environment :
    let path := Text.Utf8.encode "authz.toml"
    let good := Text.Utf8.encode "[permissions_user_mapping]\nbind_id = \"username\"\n"
    let bad := Text.Utf8.encode "[observability]\nlogging_level = \"loud\"\n"
    ∃ env last : Config, Config.ofEnvironment [] = .ok env ∧
      (FileEvent.rewritten good).config? path = some last ∧
      (BindingMode.history path .email [.rewritten good, .rewritten bad]).getLast? =
        some (mergeLayers {} [("file", last), ("env", env)]).1.mapping.bindId := by
  intro path good bad
  let last : Config := { mapping := ⟨.username⟩ }
  have hgood : (FileEvent.rewritten good).config? path = some last := by decide +kernel
  have hbad : (FileEvent.rewritten bad).config? path = none := by decide +kernel
  have hset : ∀ mode, FileEvent.set mode ∉ [FileEvent.rewritten good, .rewritten bad] := by simp
  obtain ⟨mode, hmode, -, hread⟩ :=
    followed_mode_agrees_iff path "file" { mapping := ⟨.email⟩ } [("env", {})] hset
  obtain ⟨-, hagrees, -⟩ := hread last (by simp [hgood, hbad])
  refine ⟨{}, last, rfl, hgood, hmode.trans (congrArg some (hagrees.2 ?_))⟩
  intro given hgiven
  cases hgiven

/-- Where the environment gives a mode and the file does not, a change of something else in the file
takes the mode away. -/
theorem unrelated_edit_takes_mode_away :
    let path := Text.Utf8.encode "authz.toml"
    let old := Text.Utf8.encode "# nothing yet\n"
    let new := Text.Utf8.encode "[observability]\nmetrics_enabled = false\n"
    let start config env := (mergeLayers {} [("file", config), ("env", env)]).1.mapping.bindId
    ∃ env file file' : Config,
      (Config.ofEnvironment [("AUTHZ_BIND_ID", Text.Utf8.encode "email")]).toOption = some env ∧
      (FileEvent.rewritten old).config? path = some file ∧
      (FileEvent.rewritten new).config? path = some file' ∧ file'.mapping = file.mapping ∧
      start file env = .email ∧ start file' env = .email ∧
      (start file env).follow path (.rewritten new) = .unset := by
  intro path old new start
  refine ⟨{ mapping := ⟨.email⟩ }, {}, { observability := { metricsEnabled := false } }, ?_, ?_, ?_,
    rfl, rfl, rfl, ?_⟩
  · decide +kernel
  · decide +kernel
  · decide +kernel
  · decide +kernel

end RepoAccess
