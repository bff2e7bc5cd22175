/-
Settings one by one.

* `Setting` — the twelve fields of a configuration, in their order, each under the names of the
  parts that lead to it; `Config.get` — the value of one of them;
* `Config.ext_get` — a configuration is made up of its settings, and nothing else;
* `Setting.Admits`, `isValid_iff` — a configuration is valid exactly if every setting on its own is
  within its bounds;
* `FieldRule.run_merge`, `Config.run_merge` — what is told of a merge are the settings in which the
  merged ones differ from those below, each with the value it has now.

The fields have values of seven types, so a statement about all of them is one about a dependent
function. Whatever is done to a configuration field by field is described here by what it does to a
setting, and the cases are gone through once.
-/
import RepoAccess.Config.Merge
import RepoAccess.Config.Validity

namespace RepoAccess

/-- A field of a configuration. -/
inductive Setting where
  | bindId
  | backend
  | host
  | port
  | database
  | username
  | password
  | poolSize
  | timeoutSeconds
  | operationTimeoutMs
  | metricsEnabled
  | loggingLevel
deriving DecidableEq, Repr

namespace Setting

/-- What a field holds. -/
abbrev Value : Setting → Type
  | bindId => BindingMode
  | backend => StoreBackend
  | host | database | username | password | loggingLevel => String
  | port => UInt16
  | poolSize => UInt32
  | timeoutSeconds => UInt64
  | operationTimeoutMs => Option UInt64
  | metricsEnabled => Bool

instance : (s : Setting) → DecidableEq s.Value
  | bindId => inferInstanceAs (DecidableEq BindingMode)
  | backend => inferInstanceAs (DecidableEq StoreBackend)
  | host | database | username | password | loggingLevel => inferInstanceAs (DecidableEq String)
  | port => inferInstanceAs (DecidableEq UInt16)
  | poolSize => inferInstanceAs (DecidableEq UInt32)
  | timeoutSeconds => inferInstanceAs (DecidableEq UInt64)
  | operationTimeoutMs => inferInstanceAs (DecidableEq (Option UInt64))
  | metricsEnabled => inferInstanceAs (DecidableEq Bool)

instance : Named Setting where
  all := [bindId, backend, host, port, database, username, password, poolSize, timeoutSeconds,
    operationTimeoutMs, metricsEnabled, loggingLevel]
  name
    | bindId => "permissions_user_mapping.bind_id"
    | backend => "store.backend"
    | host => "store.postgres.host"
    | port => "store.postgres.port"
    | database => "store.postgres.database"
    | username => "store.postgres.username"
    | password => "store.postgres.password"
    | poolSize => "store.postgres.pool_size"
    | timeoutSeconds => "store.postgres.timeout_seconds"
    | operationTimeoutMs => "engine.operation_timeout_ms"
    | metricsEnabled => "observability.metrics_enabled"
    | loggingLevel => "observability.logging_level"

theorem mem_all (s : Setting) : s ∈ (Named.all : List Setting) := by
  cases s <;> decide

/-- What a value is shown as; a password is not shown. -/
def shown : (s : Setting) → s.Value → String
  | bindId, mode => name mode
  | backend, store => name store
  | host, text | database, text | username, text | loggingLevel, text => text
  | port, n => toString n
  | poolSize, n => toString n
  | timeoutSeconds, n => toString n
  | password, text => hidden text
  | operationTimeoutMs, ms => toString (ms.getD 0)
  | metricsEnabled, truth => toString truth

/-- The values within the bounds of a field. -/
def Admits : (s : Setting) → s.Value → Prop
  | host, text => 1 ≤ text.length ∧ text.length ≤ 255
  | database, text | username, text => 1 ≤ text.length ∧ text.length ≤ 63
  | port, n => 1 ≤ n.toNat ∧ n.toNat ≤ 65535
  | poolSize, n => 1 ≤ n.toNat ∧ n.toNat ≤ 100
  | timeoutSeconds, n => 1 ≤ n.toNat ∧ n.toNat ≤ 300
  | operationTimeoutMs, limit => ∀ ms ∈ limit, 1 ≤ ms.toNat ∧ ms.toNat ≤ 600000
  | loggingLevel, level => level ∈ loggingLevels
  | bindId, _ | backend, _ | password, _ | metricsEnabled, _ => True

end Setting

namespace Config

/-! ### Values -/

/-- The value of a field. -/
def get (c : Config) : (s : Setting) → s.Value
  | .bindId => c.mapping.bindId
  | .backend => c.store.backend
  | .host => c.store.postgres.host
  | .port => c.store.postgres.port
  | .database => c.store.postgres.database
  | .username => c.store.postgres.username
  | .password => c.store.postgres.password
  | .poolSize => c.store.postgres.poolSize
  | .timeoutSeconds => c.store.postgres.timeoutSeconds
  | .operationTimeoutMs => c.engine.operationTimeoutMs
  | .metricsEnabled => c.observability.metricsEnabled
  | .loggingLevel => c.observability.loggingLevel

variable {c c' : Config}

/-- A configuration is made up of its settings. -/
theorem ext_get (h : ∀ s, c.get s = c'.get s) : c = c' := by
  obtain ⟨⟨mode⟩, ⟨backend, postgres⟩, ⟨limit⟩, ⟨metrics, level⟩⟩ := c
  obtain ⟨⟨mode'⟩, ⟨backend', postgres'⟩, ⟨limit'⟩, ⟨metrics', level'⟩⟩ := c'
  have hpostgres : postgres = postgres' := by
    obtain ⟨host, port, database, username, password, poolSize, timeout⟩ := postgres
    obtain ⟨host', port', database', username', password', poolSize', timeout'⟩ := postgres'
    obtain rfl : host = host' := h .host
    obtain rfl : port = port' := h .port
    obtain rfl : database = database' := h .database
    obtain rfl : username = username' := h .username
    obtain rfl : password = password' := h .password
    obtain rfl : poolSize = poolSize' := h .poolSize
    obtain rfl : timeout = timeout' := h .timeoutSeconds
    rfl
  obtain rfl : mode = mode' := h .bindId
  obtain rfl : backend = backend' := h .backend
  obtain rfl : limit = limit' := h .operationTimeoutMs
  obtain rfl : metrics = metrics' := h .metricsEnabled
  obtain rfl : level = level' := h .loggingLevel
  rw [hpostgres]

theorem eq_iff_get : c = c' ↔ ∀ s, c.get s = c'.get s :=
  ⟨fun h _ => h ▸ rfl, ext_get⟩

/-! ### Bounds -/

theorem checkRange_eq_nil_iff {field : String} {low high value : Nat} :
    checkRange field low high value = [] ↔ low ≤ value ∧ value ≤ high := by
  simp [checkRange]

theorem checkLength_eq_nil_iff {field : String} {low high : Nat} {value : String} :
    checkLength field low high value = [] ↔ low ≤ value.length ∧ value.length ≤ high := by
  simp [checkLength]

theorem checkLevel_eq_nil_iff {field value : String} :
    checkLevel field value = [] ↔ value ∈ loggingLevels := by
  simp [checkLevel]

theorem operationTimeout_eq_nil_iff {engine : EngineConfig} :
    engine.violations = [] ↔ Setting.operationTimeoutMs.Admits engine.operationTimeoutMs := by
  obtain ⟨limit⟩ := engine
  cases limit with
  | none => simp [EngineConfig.violations, Setting.Admits]
  | some ms => simp [EngineConfig.violations, Setting.Admits, checkRange_eq_nil_iff]

/-- Every setting is held to bounds of its own, whatever the others are. -/
theorem isValid_iff : c.isValid = true ↔ ∀ s : Setting, s.Admits (c.get s) := by
  rw [isValid, List.isEmpty_iff, violations, PostgresConfig.violations]
  simp only [List.append_eq_nil_iff, operationTimeout_eq_nil_iff, checkRange_eq_nil_iff,
    checkLength_eq_nil_iff, checkLevel_eq_nil_iff]
  constructor
  · rintro ⟨⟨hlimit, hlevel⟩, ⟨⟨⟨⟨hdatabase, hhost⟩, hpool⟩, hport⟩, htimeout⟩, husername⟩ s
    cases s <;> first | assumption | trivial
  · intro h
    exact ⟨⟨h .operationTimeoutMs, h .loggingLevel⟩,
      ⟨⟨⟨⟨h .database, h .host⟩, h .poolSize⟩, h .port⟩, h .timeoutSeconds⟩, h .username⟩

/-! ### Differences -/

/-- The settings in which configurations differ, in the order of the fields. -/
def changed (old new : Config) : List Setting :=
  (Named.all : List Setting).filter fun s => old.get s ≠ new.get s

/-- How a setting is told. -/
def line (c : Config) (s : Setting) : String :=
  name s ++ " = " ++ s.shown (c.get s)

theorem mem_changed_iff {old new : Config} {s : Setting} :
    s ∈ old.changed new ↔ old.get s ≠ new.get s := by
  simp [changed, s.mem_all]

theorem changed_eq_nil_iff {old new : Config} : old.changed new = [] ↔ old = new := by
  rw [List.eq_nil_iff_forall_not_mem, eq_iff_get]
  refine forall_congr' fun s => ?_
  rw [mem_changed_iff, Decidable.not_not]

end Config

/-! ### What a merge does -/

/-- The line of a field, if it differs. -/
def changeLine {α : Type} [DecidableEq α] (field : String) (shown : α → String) (old new : α) :
    List String :=
  if old = new then [] else [field ++ " = " ++ shown new]

namespace FieldRule

variable {α : Type} [DecidableEq α]

/-- The value of a field once a layer is merged: the layer's if it is given there. -/
def pick (rule : FieldRule α) (below layer : α) : α :=
  if rule.gives layer then layer else below

/-- A field that is merged is told exactly if it differs afterwards. -/
theorem run_merge (rule : FieldRule α) (below layer : α) (lines : List String) :
    (rule.merge below layer).run lines =
      pure (rule.pick below layer,
        lines ++ changeLine rule.field rule.shown below (rule.pick below layer)) := by
  rw [merge, pick, changeLine]
  by_cases hgives : rule.gives layer = true
  · by_cases hsame : layer = below
    · subst hsame
      simp
    · simp [hgives, hsame, Ne.symm hsame]
  · simp [hgives]

end FieldRule

namespace Config

/-- The settings in which the merged ones differ are told one after another, and no others. -/
theorem run_merge (below layer : Config) :
    (below.merge layer).run [] = pure (below.overlay layer,
      (below.changed (below.overlay layer)).map (below.overlay layer).line) := by
  have hline : ∀ (old new : Config) (ss : List Setting),
      ss.flatMap (fun s => changeLine (name s) s.shown (old.get s) (new.get s)) =
        (ss.filter fun s => old.get s ≠ new.get s).map new.line := by
    intro old new ss
    induction ss with
    | nil => rfl
    | cons s ss ih =>
      rw [List.flatMap_cons, ih, changeLine]
      by_cases hsame : old.get s = new.get s <;> simp [hsame, line]
  rw [changed, ← hline]
  simp only [overlay, merge, MappingConfig.merge, StoreConfig.merge, PostgresConfig.merge,
    EngineConfig.merge, ObservabilityConfig.merge, StateT.run_bind, StateT.run_pure,
    FieldRule.run_merge, pure_bind, List.append_assoc, Named.all, List.flatMap_cons,
    List.flatMap_nil, List.append_nil]
  rfl

end Config

end RepoAccess
