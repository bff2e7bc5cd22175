/-
Layers of settings, field by field.

* `Config.gives`, `decidingLayer` — a layer gives a field, and the highest one that does;
* `overlay_assoc`, `overlay_self`, `overlay_default`, `default_overlay` — layers can be laid over
  each other in groups, and a layer that is there already, or gives nothing, adds nothing;
* `told` — what is told of a layer, and `notices_mergeLayers` — it is told of every layer by the
  settings before and after it;
* `layers_merge_by_field` — every field is that of the layer that decides it, so valid layers merge
  to valid settings, and a layer is told exactly if it changed something.

A layer that gives a field decides it whatever is below, so a merge needs no look at the settings it
is laid over. Only what is told depends on them: the same value given twice is told once.
-/
import RepoAccess.Proofs.Settings

namespace RepoAccess

namespace Config

/-! ### One layer -/

/-- The layer gives the field: a time limit by having one, a password by not being empty, and any
other field by differing from the default. -/
def gives (layer : Config) : Setting → Bool
  | .operationTimeoutMs => layer.engine.operationTimeoutMs.isSome
  | .password => !layer.store.postgres.password.isEmpty
  | s => decide (layer.get s ≠ ({} : Config).get s)

/-- The three ways to be given come to the same. -/
theorem gives_iff {layer : Config} {s : Setting} :
    layer.gives s = true ↔ layer.get s ≠ ({} : Config).get s := by
  cases s with
  | operationTimeoutMs =>
    show layer.engine.operationTimeoutMs.isSome = true ↔ layer.engine.operationTimeoutMs ≠ none
    exact Option.isSome_iff_ne_none
  | password =>
    show (!layer.store.postgres.password.isEmpty) = true ↔ layer.store.postgres.password ≠ ""
    simp
  | _ => exact decide_eq_true_iff

/-- A field is the layer's where the layer gives it. -/
theorem get_overlay (below layer : Config) (s : Setting) :
    (below.overlay layer).get s = if layer.gives s then layer.get s else below.get s := by
  simp only [overlay, merge, MappingConfig.merge, StoreConfig.merge, PostgresConfig.merge,
    EngineConfig.merge, ObservabilityConfig.merge, StateT.run_bind, StateT.run_pure,
    FieldRule.run_merge, pure_bind]
  cases s <;> rfl

theorem get_of_not_gives {layer : Config} {s : Setting} (h : ¬layer.gives s = true) :
    layer.get s = ({} : Config).get s :=
  Decidable.byContradiction fun hne => h (gives_iff.2 hne)

theorem not_gives_default (s : Setting) : ¬({} : Config).gives s = true :=
  fun h => gives_iff.1 h rfl

/-- Two layers give what one of them gives. -/
theorem gives_overlay (below layer : Config) (s : Setting) :
    (below.overlay layer).gives s = (layer.gives s || below.gives s) := by
  rw [Bool.eq_iff_iff, gives_iff, get_overlay]
  by_cases hlayer : layer.gives s = true
  · simpa [hlayer] using gives_iff.1 hlayer
  · simp [hlayer, gives_iff]

/-! ### Laws -/

theorem overlay_assoc (a b c : Config) :
    (a.overlay b).overlay c = a.overlay (b.overlay c) := by
  apply ext_get
  intro s
  simp only [get_overlay, gives_overlay]
  cases hc : c.gives s <;> cases hb : b.gives s <;> simp

theorem overlay_self (a : Config) : a.overlay a = a := by
  apply ext_get
  intro s
  rw [get_overlay, ite_self]

/-- A layer of defaults gives nothing. -/
theorem overlay_default (a : Config) : a.overlay {} = a := by
  apply ext_get
  intro s
  rw [get_overlay, if_neg (not_gives_default s)]

theorem default_overlay (a : Config) : ({} : Config).overlay a = a := by
  apply ext_get
  intro s
  rw [get_overlay]
  split
  · rfl
  · next hgives => exact (get_of_not_gives hgives).symm

/-- Each bound is on one field alone, so settings from valid layers are valid. -/
theorem isValid_overlay {below layer : Config} (hbelow : below.isValid = true)
    (hlayer : layer.isValid = true) : (below.overlay layer).isValid = true := by
  rw [isValid_iff] at *
  intro s
  rw [get_overlay]
  split
  · exact hlayer s
  · exact hbelow s

end Config

/-! ### All layers -/

/-- What is told of a layer that makes one configuration of another. -/
def told (label : String) (below merged : Config) : List Notice :=
  if below = merged then [] else [.configured label ((below.changed merged).map merged.line)]

theorem addLayer_eq (below : Config) (notices : List Notice) (layer : String × Config) :
    addLayer (below, notices) layer =
      (below.overlay layer.2, notices ++ told layer.1 below (below.overlay layer.2)) := by
  rw [addLayer, told, Config.run_merge]
  dsimp only [pure]
  by_cases hsame : below = below.overlay layer.2
  · simp [Config.changed_eq_nil_iff.2 hsame, if_pos hsame]
  · have hchanged : below.changed (below.overlay layer.2) ≠ [] :=
      fun hnil => hsame (Config.changed_eq_nil_iff.1 hnil)
    simp [hchanged, if_neg hsame]

/-- What was told before stays in front. -/
theorem foldl_addLayer (below : Config) (notices : List Notice) (layers : List (String × Config)) :
    layers.foldl addLayer (below, notices) =
      ((mergeLayers below layers).1, notices ++ (mergeLayers below layers).2) := by
  induction layers generalizing below notices with
  | nil => simp [mergeLayers]
  | cons layer higher ih =>
    rw [mergeLayers, List.foldl_cons, List.foldl_cons, addLayer_eq, addLayer_eq, ih,
      ih (below.overlay _), List.nil_append, List.append_assoc]

theorem mergeLayers_cons (below : Config) (layer : String × Config)
    (higher : List (String × Config)) :
    mergeLayers below (layer :: higher) =
      ((mergeLayers (below.overlay layer.2) higher).1,
        told layer.1 below (below.overlay layer.2) ++
          (mergeLayers (below.overlay layer.2) higher).2) := by
  rw [mergeLayers, List.foldl_cons, addLayer_eq, foldl_addLayer, List.nil_append]

/-- The settings of the lowest so many layers. -/
def stage (lowest : Config) (layers : List (String × Config)) (count : Nat) : Config :=
  (mergeLayers lowest (layers.take count)).1

theorem stage_zero (lowest : Config) (layers : List (String × Config)) :
    stage lowest layers 0 = lowest := rfl

theorem stage_cons (lowest : Config) (layer : String × Config) (higher : List (String × Config))
    (count : Nat) :
    stage lowest (layer :: higher) (count + 1) = stage (lowest.overlay layer.2) higher count := by
  rw [stage, List.take_succ_cons, mergeLayers_cons, stage]

/-- Every layer is told by the settings before and after it. -/
theorem notices_mergeLayers (lowest : Config) (layers : List (String × Config)) :
    (mergeLayers lowest layers).2 =
      (layers.mapIdx fun i layer =>
        told layer.1 (stage lowest layers i) (stage lowest layers (i + 1))).flatten := by
  induction layers generalizing lowest with
  | nil => rfl
  | cons layer higher ih =>
    rw [mergeLayers_cons, List.mapIdx_cons, List.flatten_cons, ih]
    simp only [stage_cons, stage_zero]

theorem mergeLayers_eq_foldl (lowest : Config) (layers : List (String × Config)) :
    (mergeLayers lowest layers).1 = (layers.map Prod.snd).foldl Config.overlay lowest := by
  induction layers generalizing lowest with
  | nil => rfl
  | cons layer higher ih => rw [mergeLayers_cons, ih, List.map_cons, List.foldl_cons]

/-- The highest layer that gives a field; the lowest one of all, if no other does. -/
def decidingLayer (s : Setting) (lowest : Config) (layers : List (String × Config)) : Config :=
  ((layers.map Prod.snd).reverse.find? (·.gives s)).getD lowest

/-- A field is that of the layer that decides it. -/
theorem get_mergeLayers (lowest : Config) (layers : List (String × Config)) (s : Setting) :
    (mergeLayers lowest layers).1.get s = (decidingLayer s lowest layers).get s := by
  induction layers generalizing lowest with
  | nil => rfl
  | cons layer higher ih =>
    rw [mergeLayers_cons, ih, decidingLayer, decidingLayer, List.map_cons, List.reverse_cons,
      List.find?_append]
    -- The layers above the first one decide if they can, in both merges alike.
    cases hfound : (higher.map Prod.snd).reverse.find? (·.gives s) with
    | some decider => rfl
    | none =>
      rw [Option.getD_none, Config.get_overlay, Option.none_or, List.find?_singleton]
      split <;> rfl

/-- The settings of several layers are, field by field, those of the highest layer that gives the
field, and of the lowest one if none does. A layer is told exactly if the settings before and after
it differ, and then by the settings in which they do, in the order of the fields. -/
theorem layers_merge_by_field (lowest : Config) (layers : List (String × Config)) :
    let merged := (mergeLayers lowest layers).1
    (∀ s, merged.get s = (decidingLayer s lowest layers).get s) ∧
    merged = (layers.map Prod.snd).foldl Config.overlay lowest ∧
    (∀ a b c : Config, (a.overlay b).overlay c = a.overlay (b.overlay c)) ∧
    (∀ a : Config, a.overlay a = a ∧ a.overlay {} = a ∧ ({} : Config).overlay a = a) ∧
    (lowest.isValid = true → (∀ layer ∈ layers, layer.2.isValid = true) →
      merged.isValid = true) ∧
    (mergeLayers lowest layers).2 = (layers.mapIdx fun i layer =>
      let below := stage lowest layers i
      let above := stage lowest layers (i + 1)
      if below = above then []
      else [.configured layer.1 ((below.changed above).map above.line)]).flatten := by
  refine ⟨get_mergeLayers lowest layers, mergeLayers_eq_foldl lowest layers, Config.overlay_assoc,
    fun a => ⟨a.overlay_self, a.overlay_default, a.default_overlay⟩, ?_,
    notices_mergeLayers lowest layers⟩
  intro hlowest hlayers
  rw [mergeLayers_eq_foldl]
  refine List.foldlRecOn (motive := fun c : Config => c.isValid = true) _ _ hlowest ?_
  intro below hbelow layer hmem
  obtain ⟨named, hnamed, rfl⟩ := List.mem_map.1 hmem
  exact Config.isValid_overlay hbelow (hlayers named hnamed)

/-- A mode that is given twice is told once, and what only one of two valid layers gives stays. -/
theorem layers_merge_by_field_of_repeated_mode :
    let file : Config := { mapping := ⟨.username⟩, store := { postgres := { host := "db" } } }
    let env : Config := { mapping := ⟨.username⟩, engine := ⟨some 750⟩ }
    let layers := [("file", file), ("env", env)]
    (mergeLayers {} layers).1.isValid = true ∧ (mergeLayers {} layers).1.get .host = "db" ∧
      (mergeLayers {} layers).2 =
        [.configured "file"
            ["permissions_user_mapping.bind_id = username", "store.postgres.host = db"],
          .configured "env" ["engine.operation_timeout_ms = 750"]] := by
  intro file env layers
  obtain ⟨hfields, -, -, -, hvalid, -⟩ := layers_merge_by_field {} layers
  exact ⟨hvalid (by decide) (by decide), hfields .host, by decide⟩

end RepoAccess
