/-
What is told of layers does not give passwords away.

* `Config.SameButPassword` — two configurations differ in the password at most;
* `sameButPassword_overlay` — a layer keeps them so, and `told_eq_of_same` — the same is told of it,
  if it replaces both passwords or neither of them;
* `notices_hide_password` — the same for any number of layers.

The password of one layer is below the next one, so whether the next layer replaces it may depend
on it, and that is told. Two runs are compared in which the same layers do; nothing else of the
passwords can be told, because a replaced password is shown as three stars whatever it is.
-/
import Mathlib.Data.List.Forall2
import RepoAccess.Proofs.Layers

namespace RepoAccess

namespace Config

/-- The configurations differ in the password at most. -/
def SameButPassword (c c' : Config) : Prop :=
  ∀ s, s ≠ .password → c.get s = c'.get s

variable {below below' layer layer' merged merged' : Config}

/-- Such layers give the same fields, apart from the password. -/
theorem SameButPassword.gives_eq (h : layer.SameButPassword layer') {s : Setting}
    (hs : s ≠ .password) : layer.gives s = layer'.gives s := by
  rw [Bool.eq_iff_iff, gives_iff, gives_iff, h s hs]

/-- The password of a layer has no influence on other fields. -/
theorem sameButPassword_overlay (hbelow : below.SameButPassword below')
    (hlayer : layer.SameButPassword layer') :
    (below.overlay layer).SameButPassword (below'.overlay layer') := by
  intro s hs
  rw [get_overlay, get_overlay, hlayer.gives_eq hs, hlayer s hs, hbelow s hs]

/-- A setting is told the same way, even the password. -/
theorem line_eq_of_same (h : merged.SameButPassword merged') (s : Setting) :
    merged.line s = merged'.line s := by
  by_cases hs : s = .password
  · subst hs
    rfl
  · rw [line, line, h s hs]

theorem changed_eq_of_same (hbelow : below.SameButPassword below')
    (hmerged : merged.SameButPassword merged')
    (hpassword : below.get .password ≠ merged.get .password ↔
      below'.get .password ≠ merged'.get .password) :
    below.changed merged = below'.changed merged' := by
  refine List.filter_congr fun s _ => ?_
  by_cases hs : s = .password
  · subst hs
    exact decide_eq_decide.2 hpassword
  · rw [hbelow s hs, hmerged s hs]

end Config

/-- The same is told of layers that replace both passwords or neither. -/
theorem told_eq_of_same {below below' merged merged' : Config} (label : String)
    (hbelow : below.SameButPassword below') (hmerged : merged.SameButPassword merged')
    (hpassword : below.get .password ≠ merged.get .password ↔
      below'.get .password ≠ merged'.get .password) :
    told label below merged = told label below' merged' := by
  have hchanged : below.changed merged = below'.changed merged' :=
    Config.changed_eq_of_same hbelow hmerged hpassword
  have hline : merged.line = merged'.line :=
    funext (Config.line_eq_of_same hmerged)
  have hsame : below = merged ↔ below' = merged' := by
    rw [← Config.changed_eq_nil_iff, hchanged, Config.changed_eq_nil_iff]
  simp only [told, hchanged, hline, hsame]

/-- That layer replaces the password of the settings below it. -/
def ReplacesPassword (lowest : Config) (layers : List (String × Config)) (i : Nat) : Prop :=
  (stage lowest layers i).get .password ≠ (stage lowest layers (i + 1)).get .password

instance (lowest : Config) (layers : List (String × Config)) (i : Nat) :
    Decidable (ReplacesPassword lowest layers i) :=
  inferInstanceAs (Decidable (_ ≠ _))

/-- The layers have the same label and differ in the password at most. -/
def SameLayer (layer layer' : String × Config) : Prop :=
  layer.1 = layer'.1 ∧ layer.2.SameButPassword layer'.2

/-- Two stacks of layers that differ in their passwords at most give settings that differ in the
password at most. If in both stacks the same layers replace the password, then the same is told of
them. -/
theorem notices_hide_password {lowest lowest' : Config} {layers layers' : List (String × Config)}
    (hlowest : lowest.SameButPassword lowest') (hlayers : List.Forall₂ SameLayer layers layers') :
    (mergeLayers lowest layers).1.SameButPassword (mergeLayers lowest' layers').1 ∧
    ((∀ i < layers.length,
      ReplacesPassword lowest layers i ↔ ReplacesPassword lowest' layers' i) →
      (mergeLayers lowest layers).2 = (mergeLayers lowest' layers').2) := by
  -- The settings below the layers that are left differ in the password at most.
  induction hlayers generalizing lowest lowest' with
  | nil => exact ⟨hlowest, fun _ => rfl⟩
  | @cons layer layer' higher higher' hlayer _ ih =>
    obtain ⟨hlabel, hlayer⟩ := hlayer
    have hmerged : (lowest.overlay layer.2).SameButPassword (lowest'.overlay layer'.2) :=
      Config.sameButPassword_overlay hlowest hlayer
    obtain ⟨hsettings, hnotices⟩ := ih hmerged
    rw [mergeLayers_cons, mergeLayers_cons]
    refine ⟨hsettings, fun hreplaces => ?_⟩
    have hfirst : told layer.1 lowest (lowest.overlay layer.2) =
        told layer'.1 lowest' (lowest'.overlay layer'.2) := by
      rw [hlabel]
      exact told_eq_of_same _ hlowest hmerged (hreplaces 0 (Nat.zero_lt_succ _))
    have hothers : (mergeLayers (lowest.overlay layer.2) higher).2 =
        (mergeLayers (lowest'.overlay layer'.2) higher').2 := by
      refine hnotices fun i hi => ?_
      have hnext := hreplaces (i + 1) (Nat.succ_lt_succ hi)
      simpa only [ReplacesPassword, stage_cons] using hnext
    rw [hfirst, hothers]

/-- Of two layers that replace the password one after the other, the stars are told twice, whatever
the passwords are. -/
theorem notices_hide_password_of_two_layers :
    let file (password : String) : Config :=
      { store := { postgres := { host := "db", password } } }
    let env (password : String) : Config := { store := { postgres := { password } } }
    let layers (p q : String) := [("file", file p), ("env", env q)]
    (mergeLayers {} (layers "long" "longer")).2 = (mergeLayers {} (layers "a" "b")).2 ∧
      (mergeLayers {} (layers "a" "b")).2 =
        [.configured "file" ["store.postgres.host = db", "store.postgres.password = ***"],
          .configured "env" ["store.postgres.password = ***"]] := by
  intro file env layers
  have hfile : ∀ p q : String, (file p).SameButPassword (file q) := by
    intro p q s hs
    cases s <;> first | rfl | exact absurd rfl hs
  have henv : ∀ p q : String, (env p).SameButPassword (env q) := by
    intro p q s hs
    cases s <;> first | rfl | exact absurd rfl hs
  have hlayers : List.Forall₂ SameLayer (layers "long" "longer") (layers "a" "b") :=
    .cons ⟨rfl, hfile _ _⟩ (.cons ⟨rfl, henv _ _⟩ .nil)
  exact ⟨(notices_hide_password (fun _ _ => rfl) hlayers).2 (by decide), by decide⟩

end RepoAccess
