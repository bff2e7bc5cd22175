/-
The last good file decides the binding mode.

* `FileEvent.Decides` — an event decides the mode: it sets it, or it leaves settings in the file
  that can be read and are within bounds;
* `FileEvent.mode?_eq_some_iff`, `BindingMode.follow_eq_getD` — a followed file takes the mode from
  such an event, and from no other;
* `BindingMode.SettledBy`, `BindingMode.settledBy_iff` — the last event that decides the mode, and
  that a run of events leaves what it decides;
* `last_good_file_decides` — at every moment the mode is the one that the last such event decides.

Settings are read as a whole: one value out of bounds, in whatever field, and the file says nothing
about the mode. No mode is out of bounds itself.
-/
import Mathlib.Data.List.Induction
import RepoAccess.Proofs.FollowedLayer
import RepoAccess.Proofs.Utf8

namespace RepoAccess

/-! ### One event -/

/-- The event decides the mode: it sets the mode, or the file now holds a text in the format of its
name whose settings are all within bounds. -/
inductive FileEvent.Decides (path : List UInt8) : FileEvent → BindingMode → Prop
  | set (mode : BindingMode) : Decides path (.set mode) mode
  | rewritten {format : ConfigFormat} {text : String} {config : Config}
      (hformat : ConfigFormat.ofPath path = .ok format)
      (hparse : parseConfig format text = .ok config)
      (hbounds : ∀ s : Setting, s.Admits (config.get s)) :
      Decides path (.rewritten (Text.Utf8.encode text)) (config.get .bindId)

theorem parseConfig_eq_ok_iff {format : ConfigFormat} {text : String} {config : Config} :
    parseConfig format text = .ok config ↔ parseConfig? format text = some config := by
  rw [parseConfig]
  cases parseConfig? format text <;> simp

/-- A file gives settings if its name has a format and its bytes are a text in that format. -/
theorem loadConfig_bytes_eq_ok_iff {path bytes : List UInt8} {config : Config} :
    loadConfig path (.bytes bytes) = .ok config ↔
      ∃ format text, ConfigFormat.ofPath path = .ok format ∧ bytes = Text.Utf8.encode text ∧
        parseConfig format text = .ok config := by
  simp only [parseConfig_eq_ok_iff, ← Text.Utf8.decode_eq_ok_iff, loadConfig, FileContents.text]
  cases ConfigFormat.ofPath path with
  | error error => simp [bind, Except.bind]
  | ok format =>
    cases Text.Utf8.decode bytes with
    | error invalid => simp [bind, Except.bind, Except.mapError]
    | ok text =>
      cases hparse : parseConfig? format text <;>
        simp [bind, Except.bind, Except.mapError, pure, Except.pure, throw, throwThe,
          MonadExceptOf.throw, hparse]

namespace FileEvent

variable {path : List UInt8} {event : FileEvent} {m : BindingMode}

/-- The mode that the event brings. -/
def mode? (path : List UInt8) : FileEvent → Option BindingMode
  | .set mode => some mode
  | event => (event.config? path).map (·.get .bindId)

theorem config?_rewritten_eq_some_iff {bytes : List UInt8} {config : Config} :
    (FileEvent.rewritten bytes).config? path = some config ↔
      loadConfig path (.bytes bytes) = .ok config ∧ ∀ s : Setting, s.Admits (config.get s) := by
  rw [config?, Option.filter_eq_some_iff, Config.isValid_iff]
  refine and_congr_left' ?_
  cases loadConfig path (.bytes bytes) <;> simp [Except.toOption]

theorem mode?_eq_some_iff : event.mode? path = some m ↔ event.Decides path m := by
  cases event with
  | set mode =>
    refine Option.some_inj.trans ⟨?_, ?_⟩
    · rintro rfl
      exact .set mode
    · rintro ⟨⟩
      rfl
  | removed => exact ⟨nofun, nofun⟩
  | rewritten bytes =>
    refine Option.map_eq_some_iff.trans ⟨?_, ?_⟩
    · rintro ⟨config, hconfig, rfl⟩
      obtain ⟨hload, hbounds⟩ := config?_rewritten_eq_some_iff.1 hconfig
      obtain ⟨format, text, hformat, rfl, hparse⟩ := loadConfig_bytes_eq_ok_iff.1 hload
      exact .rewritten hformat hparse hbounds
    · rintro (_ | ⟨hformat, hparse, hbounds⟩)
      exact ⟨_, config?_rewritten_eq_some_iff.2
        ⟨loadConfig_bytes_eq_ok_iff.2 ⟨_, _, hformat, rfl, hparse⟩, hbounds⟩, rfl⟩

theorem mode?_eq_none_iff : event.mode? path = none ↔ ∀ m, ¬event.Decides path m := by
  rw [Option.eq_none_iff_forall_ne_some]
  exact forall_congr' fun m => not_congr mode?_eq_some_iff

end FileEvent

namespace BindingMode

variable {path : List UInt8} {mode m : BindingMode} {events : List FileEvent} {event : FileEvent}

/-- A mode gives way to the one that an event brings. -/
theorem follow_eq_getD (mode : BindingMode) (event : FileEvent) :
    mode.follow path event = (event.mode? path).getD mode := by
  cases event with
  | set mode' => rfl
  | removed => rfl
  | rewritten bytes => exact follow_eq (fun _ => FileEvent.noConfusion) mode

theorem follow_of_decides (h : event.Decides path m) (mode : BindingMode) :
    mode.follow path event = m := by
  rw [follow_eq_getD, FileEvent.mode?_eq_some_iff.2 h, Option.getD_some]

theorem follow_of_not_decides (h : ∀ m, ¬event.Decides path m) (mode : BindingMode) :
    mode.follow path event = mode := by
  rw [follow_eq_getD, FileEvent.mode?_eq_none_iff.2 h, Option.getD_none]

/-! ### The last event that decides -/

/-- Of these events the last one that decides the mode decides it so; if there is none, it is still
the first mode. -/
def SettledBy (path : List UInt8) (mode : BindingMode) (events : List FileEvent)
    (m : BindingMode) : Prop :=
  (∃ earlier event later, events = earlier ++ event :: later ∧ event.Decides path m ∧
    ∀ event' ∈ later, ∀ m', ¬event'.Decides path m') ∨
  m = mode ∧ ∀ event ∈ events, ∀ m', ¬event.Decides path m'

/-- Events that do not decide the mode leave it as it is. -/
theorem foldl_follow_of_not_decides (h : ∀ event ∈ events, ∀ m, ¬event.Decides path m)
    (mode : BindingMode) : events.foldl (follow path) mode = mode := by
  induction events generalizing mode with
  | nil => rfl
  | cons event events ih =>
    rw [List.foldl_cons, follow_of_not_decides (h event List.mem_cons_self)]
    exact ih (fun event' hmem => h event' (List.mem_cons_of_mem _ hmem)) mode

/-- Nothing that happened before the last event that decides the mode matters. -/
theorem SettledBy.foldl_follow_eq (h : SettledBy path mode events m) :
    events.foldl (follow path) mode = m := by
  obtain ⟨earlier, event, later, rfl, hdecides, hlater⟩ | ⟨rfl, hnone⟩ := h
  · rw [List.foldl_append, List.foldl_cons, follow_of_decides hdecides,
      foldl_follow_of_not_decides hlater]
  · exact foldl_follow_of_not_decides hnone _

theorem settledBy_foldl_follow (path : List UInt8) (mode : BindingMode)
    (events : List FileEvent) :
    SettledBy path mode events (events.foldl (follow path) mode) := by
  induction events using List.reverseRecOn with
  | nil => exact .inr ⟨rfl, nofun⟩
  | append_singleton events event ih =>
    rw [List.foldl_append, List.foldl_cons, List.foldl_nil]
    by_cases hevent : ∀ m, ¬event.Decides path m
    · -- One more event that decides nothing comes behind the others.
      rw [follow_of_not_decides hevent]
      obtain ⟨earlier, decider, later, rfl, hdecides, hlater⟩ | ⟨hsame, hnone⟩ := ih
      · refine .inl ⟨earlier, decider, later ++ [event], by simp, hdecides, ?_⟩
        simp only [List.forall_mem_append, List.forall_mem_singleton]
        exact ⟨hlater, hevent⟩
      · refine .inr ⟨hsame, ?_⟩
        simp only [List.forall_mem_append, List.forall_mem_singleton]
        exact ⟨hnone, hevent⟩
    · rw [not_forall_not] at hevent
      obtain ⟨m, hdecides⟩ := hevent
      rw [follow_of_decides hdecides]
      exact .inl ⟨events, event, [], rfl, hdecides, nofun⟩

theorem settledBy_iff : SettledBy path mode events m ↔ events.foldl (follow path) mode = m :=
  ⟨SettledBy.foldl_follow_eq, fun h => h ▸ settledBy_foldl_follow path mode events⟩

/-! ### Every moment -/

theorem length_history (mode : BindingMode) (events : List FileEvent) :
    (mode.history path events).length = events.length + 1 := by
  induction events generalizing mode with
  | nil => rfl
  | cons event events ih => rw [history, List.length_cons, ih, List.length_cons]

/-- The mode after the first events, as many as one likes. -/
theorem getElem?_history (mode : BindingMode) {events : List FileEvent} {count : Nat}
    (h : count ≤ events.length) :
    (mode.history path events)[count]? = some ((events.take count).foldl (follow path) mode) := by
  induction events generalizing mode count with
  | nil =>
    obtain rfl := Nat.le_zero.1 h
    rfl
  | cons event events ih =>
    cases count with
    | zero => rfl
    | succ count =>
      rw [history, List.getElem?_cons_succ, ih _ (Nat.le_of_succ_le_succ h), List.take_succ_cons,
        List.foldl_cons]

end BindingMode

/-- A path under which there is no file gives no settings. -/
theorem loadConfig_missing_ne_ok (path : List UInt8) (config : Config) :
    loadConfig path .missing ≠ .ok config := by
  rw [loadConfig]
  cases ConfigFormat.ofPath path <;> exact nofun

/-- A file is followed from whatever mode. After every event the mode is the one that the latest
event decides that decides any, by setting it or by leaving settings in the file that can be read
and are within bounds; until then it is the first mode. Bytes that are no text in the format of the
file leave the mode as it is, and so do settings of which another one than the mode is out of
bounds. Where the file has been removed there is nothing to be read. -/
theorem last_good_file_decides (path : List UInt8) (mode : BindingMode)
    (events : List FileEvent) :
    (mode.history path events).length = events.length + 1 ∧
    (∀ count, count ≤ events.length → ∀ m,
      (mode.history path events)[count]? = some m ↔
        BindingMode.SettledBy path mode (events.take count) m) ∧
    (∀ bytes, (∀ format text config, ConfigFormat.ofPath path = .ok format →
        bytes = Text.Utf8.encode text → parseConfig format text = .ok config →
          ∃ s : Setting, s ≠ .bindId ∧ ¬s.Admits (config.get s)) →
      ∀ m : BindingMode, m.follow path (.rewritten bytes) = m) ∧
    ∀ config, loadConfig path .missing ≠ .ok config := by
  refine ⟨BindingMode.length_history mode events, fun count hcount m => ?_, fun bytes hbad m => ?_,
    loadConfig_missing_ne_ok path⟩
  · rw [BindingMode.getElem?_history mode hcount, Option.some_inj, BindingMode.settledBy_iff]
  · refine BindingMode.follow_of_not_decides ?_ m
    rintro m' (_ | ⟨hformat, hparse, hbounds⟩)
    obtain ⟨s, -, hs⟩ := hbad _ _ _ hformat rfl hparse
    exact hs (hbounds s)

/-- A good file, bytes that are no text, a mode that is set, settings of which one is out of bounds,
and a removal. -/
theorem last_good_file_decides_amid_bad_ones :
    let path := Text.Utf8.encode "authz.toml"
    let good := Text.Utf8.encode "[permissions_user_mapping]\nbind_id = \"username\"\n"
    let loud := Text.Utf8.encode
      "[observability]\nlogging_level = \"loud\"\n[permissions_user_mapping]\nbind_id = \"email\"\n"
    let events : List FileEvent :=
      [.rewritten good, .rewritten [0xFF], .set .unset, .rewritten loud, .removed]
    BindingMode.history path .email events =
      [.email, .username, .username, .unset, .unset, .unset] ∧
    BindingMode.SettledBy path .email (events.take 2) .username ∧
    BindingMode.SettledBy path .email (events.take 5) .unset ∧
    ∀ mode, BindingMode.follow path mode (.rewritten [0xFF]) = mode := by
  intro path good loud events
  have hhistory : BindingMode.history path .email events =
      [.email, .username, .username, .unset, .unset, .unset] := by decide +kernel
  obtain ⟨-, hsettled, hbad, -⟩ := last_good_file_decides path .email events
  refine ⟨hhistory, (hsettled 2 (by decide) _).1 (by rw [hhistory]; rfl),
    (hsettled 5 (by decide) _).1 (by rw [hhistory]; rfl), ?_⟩
  refine hbad _ fun format text config _ htext => ?_
  -- These bytes are those of no text.
  have hbytes : Text.Utf8.decode [0xFF] ≠ .ok text := by
    simp [Text.Utf8.decode, Text.Utf8.pieces, Text.Utf8.piece, Text.Utf8.follow?, Text.Utf8.textOf]
  exact absurd (Text.Utf8.decode_eq_ok_iff.2 htext) hbytes

end RepoAccess
