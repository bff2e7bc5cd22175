/-
What a path check decides.

* `Malformed` — a text that denotes no rule, and `PathRule.compile_eq_ok_iff` — what a text that
  denotes one is like;
* `compileRules_of_denote` and `compileRules_of_first` — a list of texts has rules if each text has
  one, and fails with the first malformed text otherwise; `FirstMalformed` names that text;
* `Admits` — the first rule that matches a path is one that lets it through, and
  `isAllowed_eq_true_iff` — that is what rules are asked;
* `Tables.Decides` — the answer to a list of paths, by the four things that may be found in the
  tables, and `Tables.judged_eq_iff` — a check gives exactly this answer;
* `path_decisions_are_exact` — so it does in the store, path by path as well as in one call.

A missing row means two things here: without a row of access nothing may be read, and without a row
of path rules everything may. Rules never give access; they only take paths away.
-/
import Mathlib.Data.List.Forall2
import RepoAccess.Proofs.PathChecks

namespace RepoAccess

open Std

/-! ### Texts and their rules -/

/-- The text denotes no rule. -/
def Malformed (text : String) : Prop := ∀ rule, PathRule.compile text ≠ .ok rule

instance (text : String) : Decidable (Malformed text) :=
  decidable_of_iff ((PathRule.compile text).toOption.isNone = true) <| by
    unfold Malformed
    cases PathRule.compile text with
    | error error => simp [Except.toOption]
    | ok rule => simp [Except.toOption]

/-- Each rule is denoted by the text in its place. -/
abbrev Denote (texts : List String) (rules : List PathRule) : Prop :=
  List.Forall₂ (fun text rule => PathRule.compile text = .ok rule) texts rules

/-- The text of a rule's pattern, read from the root. -/
def patternText (text : String) : List Char := fromRoot (splitPolarity text.toList).2

/-- A text denotes a rule if there is a pattern in it, and its first character is the polarity. -/
theorem PathRule.compile_eq_ok_iff {text : String} {rule : PathRule} :
    compile text = .ok rule ↔
      Text.isAllBlank (splitPolarity text.toList).2 = false ∧
      PathPattern.parse (patternText text) = .ok rule.pattern ∧
      rule.excludes = (splitPolarity text.toList).1 := by
  unfold compile patternText
  dsimp only
  split
  · next hblank => simp [hblank]
  · next hblank =>
    rw [Bool.not_eq_true] at hblank
    split
    · next hparse => simp [hparse]
    · next pattern hparse =>
      rw [hparse, Except.ok.injEq, Except.ok.injEq]
      constructor
      · rintro rfl
        exact ⟨hblank, rfl, rfl⟩
      · rintro ⟨-, hpattern, hexcludes⟩
        rw [hpattern, ← hexcludes]

/-- A text is named in the failure to read it. -/
theorem PathRule.exists_reason_of_malformed {text : String} (h : Malformed text) :
    ∃ reason, compile text = .error (.invalidPattern text reason) := by
  have hnone : ∀ rule, compile text ≠ .ok rule := h
  unfold compile at hnone ⊢
  dsimp only at hnone ⊢
  split
  · exact ⟨_, rfl⟩
  · next hblank =>
    rw [if_neg hblank] at hnone
    split
    · exact ⟨_, rfl⟩
    · next pattern hparse =>
      rw [hparse] at hnone
      exact absurd rfl (hnone _)

theorem compileRules_cons (text : String) (texts : List String) :
    compileRules (text :: texts) =
      (PathRule.compile text).bind fun rule =>
        (compileRules texts).map fun rules => rule :: rules := by
  rw [compileRules, List.mapM_cons, compileRules]
  cases PathRule.compile text with
  | error error => rfl
  | ok rule => cases texts.mapM PathRule.compile <;> rfl

theorem compileRules_of_denote {texts : List String} {rules : List PathRule}
    (h : Denote texts rules) : compileRules texts = .ok rules := by
  induction h with
  | nil => rfl
  | cons hrule _ ih =>
    rw [compileRules_cons, hrule, ih]
    rfl

/-- The first malformed text fails the list. -/
theorem compileRules_of_first {before : List String} {text : String}
    (hbefore : ∀ earlier ∈ before, ¬ Malformed earlier) (htext : Malformed text)
    (after : List String) :
    ∃ reason, PathRule.compile text = .error (.invalidPattern text reason) ∧
      compileRules (before ++ text :: after) = .error (.invalidPattern text reason) := by
  obtain ⟨reason, hreason⟩ := PathRule.exists_reason_of_malformed htext
  refine ⟨reason, hreason, ?_⟩
  induction before with
  | nil =>
    rw [List.nil_append, compileRules_cons, hreason]
    rfl
  | cons earlier before ih =>
    obtain ⟨hearlier, hbefore⟩ := List.forall_mem_cons.1 hbefore
    obtain ⟨rule, hrule⟩ : ∃ rule, PathRule.compile earlier = .ok rule := by
      simpa [Malformed] using hearlier
    rw [List.cons_append, compileRules_cons, hrule, ih hbefore]
    rfl

/-- Either all texts have rules, or one of them is the first that has none. -/
theorem denote_or_first (texts : List String) :
    (∃ rules, Denote texts rules) ∨
      ∃ before text after, texts = before ++ text :: after ∧
        (∀ earlier ∈ before, ¬ Malformed earlier) ∧ Malformed text := by
  induction texts with
  | nil => exact .inl ⟨[], .nil⟩
  | cons text texts ih =>
    by_cases htext : Malformed text
    · exact .inr ⟨[], text, texts, rfl, by simp, htext⟩
    · obtain ⟨rule, hrule⟩ : ∃ rule, PathRule.compile text = .ok rule := by
        simpa [Malformed] using htext
      obtain ⟨rules, hrules⟩ | ⟨before, bad, after, rfl, hbefore, hbad⟩ := ih
      · exact .inl ⟨rule :: rules, .cons hrule hrules⟩
      · refine .inr ⟨text :: before, bad, after, rfl, ?_, hbad⟩
        exact List.forall_mem_cons.2 ⟨htext, hbefore⟩

theorem exists_rule_of_denote {texts : List String} {rules : List PathRule}
    (h : Denote texts rules) {text : String} (hmem : text ∈ texts) :
    ∃ rule, PathRule.compile text = .ok rule := by
  induction h with
  | nil => cases hmem
  | cons hrule _ ih =>
    rcases List.mem_cons.1 hmem with rfl | hlater
    · exact ⟨_, hrule⟩
    · exact ih hlater

theorem denote_of_compileRules {texts : List String} {rules : List PathRule}
    (h : compileRules texts = .ok rules) : Denote texts rules := by
  obtain ⟨rules', hrules⟩ | ⟨before, text, after, rfl, hbefore, htext⟩ := denote_or_first texts
  · obtain rfl := Except.ok.inj ((compileRules_of_denote hrules).symm.trans h)
    exact hrules
  · obtain ⟨reason, -, hfailed⟩ := compileRules_of_first hbefore htext after
    rw [hfailed] at h
    cases h

/-- The text is the first one of the list that is malformed, for that reason. -/
def FirstMalformed (texts : List String) (text reason : String) : Prop :=
  ∃ before after, texts = before ++ text :: after ∧ (∀ earlier ∈ before, ¬ Malformed earlier) ∧
    PathRule.compile text = .error (.invalidPattern text reason)

theorem compileRules_eq_error_iff {texts : List String} {text reason : String} :
    compileRules texts = .error (.invalidPattern text reason) ↔
      FirstMalformed texts text reason := by
  constructor
  · intro h
    obtain ⟨rules, hrules⟩ | ⟨before, bad, after, rfl, hbefore, hbad⟩ := denote_or_first texts
    · rw [compileRules_of_denote hrules] at h
      cases h
    · obtain ⟨reason', hreason, hfailed⟩ := compileRules_of_first hbefore hbad after
      rw [hfailed] at h
      cases h
      exact ⟨before, after, rfl, hbefore, hreason⟩
  · rintro ⟨before, after, rfl, hbefore, hreason⟩
    have htext : Malformed text := by
      intro rule hrule
      rw [hreason] at hrule
      cases hrule
    obtain ⟨reason', hreason', hfailed⟩ := compileRules_of_first hbefore htext after
    rw [hreason] at hreason'
    cases hreason'
    exact hfailed

theorem exists_firstMalformed_iff {texts : List String} :
    (∃ text reason, FirstMalformed texts text reason) ↔ ∃ text ∈ texts, Malformed text := by
  constructor
  · rintro ⟨text, reason, before, after, rfl, -, hreason⟩
    refine ⟨text, by simp, fun rule hrule => ?_⟩
    rw [hreason] at hrule
    cases hrule
  · rintro ⟨text, hmem, hbad⟩
    obtain ⟨rules, hrules⟩ | ⟨before, first, after, rfl, hbefore, hfirst⟩ := denote_or_first texts
    · obtain ⟨rule, hrule⟩ := exists_rule_of_denote hrules hmem
      exact absurd hrule (hbad rule)
    · obtain ⟨reason, hreason⟩ := PathRule.exists_reason_of_malformed hfirst
      exact ⟨first, reason, before, after, rfl, hbefore, hreason⟩

/-- No other failure comes from reading a list of texts. -/
theorem compileRules_cases (texts : List String) :
    (∃ rules, compileRules texts = .ok rules) ∨
      ∃ text reason, compileRules texts = .error (.invalidPattern text reason) := by
  obtain ⟨rules, hrules⟩ | ⟨before, text, after, rfl, hbefore, htext⟩ := denote_or_first texts
  · exact .inl ⟨rules, compileRules_of_denote hrules⟩
  · obtain ⟨reason, -, hfailed⟩ := compileRules_of_first hbefore htext after
    exact .inr ⟨text, reason, hfailed⟩

theorem exists_compileRules_iff {texts : List String} :
    (∃ rules, compileRules texts = .ok rules) ↔ ∀ text ∈ texts, ¬ Malformed text := by
  constructor
  · rintro ⟨rules, hrules⟩ text hmem hbad
    obtain ⟨rule, hrule⟩ := exists_rule_of_denote (denote_of_compileRules hrules) hmem
    exact hbad rule hrule
  · intro hgood
    obtain ⟨rules, hrules⟩ | ⟨before, text, after, rfl, -, htext⟩ := denote_or_first texts
    · exact ⟨rules, compileRules_of_denote hrules⟩
    · exact absurd htext (hgood text (by simp))

/-! ### The first rule that matches -/

/-- The first rule that matches the path is there and lets the path through. -/
def Admits (rules : List PathRule) (path : String) : Prop :=
  ∃ before rule after, rules = before ++ rule :: after ∧
    (∀ earlier ∈ before, earlier.appliesTo path = false) ∧
    rule.appliesTo path = true ∧ rule.excludes = false

theorem isAllowed_eq_true_iff {rules : List PathRule} {path : String} :
    isAllowed rules path = true ↔ Admits rules path := by
  constructor
  · intro h
    unfold isAllowed at h
    split at h
    · next rule hfound =>
      obtain ⟨happlies, before, after, hrules, hbefore⟩ := List.find?_eq_some_iff_append.1 hfound
      exact ⟨before, rule, after, hrules, by simpa using hbefore, happlies, by simpa using h⟩
    · cases h
  · rintro ⟨before, rule, after, rfl, hbefore, happlies, hincludes⟩
    have hfound : (before ++ rule :: after).find? (·.appliesTo path) = some rule :=
      List.find?_eq_some_iff_append.2
        ⟨happlies, before, after, rfl, fun earlier hmem => by rw [hbefore earlier hmem]; rfl⟩
    rw [isAllowed, hfound]
    simp [hincludes]

instance (rules : List PathRule) (path : String) : Decidable (Admits rules path) :=
  decidable_of_iff _ isAllowed_eq_true_iff

/-! ### What the tables decide -/

/-- The answer to a list of paths, by what is found in the tables. -/
inductive Tables.Decides (t : Tables) (user : UserId) (perm : Permission) (repo : RepoId)
    (paths : List String) : Except Stop (List String) → Prop where
  /-- Nothing is asked, and nothing is looked up. -/
  | nothingAsked (hnone : paths = []) : t.Decides user perm repo paths (.ok [])
  /-- The user has no access to the repository. -/
  | notGranted (hgranted : repo ∉ t.reposOf user perm) : t.Decides user perm repo paths (.ok [])
  /-- There is access, and there are no path rules. -/
  | unrestricted (hgranted : repo ∈ t.reposOf user perm)
      (hoverlay : t.overlayOf user repo = none) : t.Decides user perm repo paths (.ok paths)
  /-- There is access, and the text is the first one among the path rules that is malformed. -/
  | malformed {before after : List String} {text reason : String}
      (hgranted : repo ∈ t.reposOf user perm)
      (hoverlay : t.overlayOf user repo = some ⟨before ++ text :: after⟩)
      (hbefore : ∀ earlier ∈ before, ¬ Malformed earlier)
      (htext : PathRule.compile text = .error (.invalidPattern text reason))
      (hasked : paths ≠ []) :
      t.Decides user perm repo paths (.error (.failed (.invalidPattern text reason)))
  /-- There is access, and each path rule is well-formed. -/
  | ruled {overlay : Overlay} {rules : List PathRule} (hgranted : repo ∈ t.reposOf user perm)
      (hoverlay : t.overlayOf user repo = some overlay) (hrules : Denote overlay.paths rules) :
      t.Decides user perm repo paths (.ok (paths.filter fun path => Admits rules path))

namespace Tables

variable {t : Tables} {user : UserId} {perm : Permission} {repo : RepoId}

/-- Path rules that can be read leave the paths that they admit. -/
theorem leftBy_of_denote {overlay : Overlay} {rules : List PathRule}
    (h : Denote overlay.paths rules) (paths : List String) :
    Engine.leftBy (some overlay) paths = .ok (paths.filter fun path => Admits rules path) := by
  simp only [Engine.leftBy, compileRules_of_denote h]
  refine congrArg Except.ok (List.filter_congr fun path _ => ?_)
  rw [Bool.eq_iff_iff, isAllowed_eq_true_iff, decide_eq_true_iff]

/-- What is found in the tables always decides. -/
theorem decides_judged (t : Tables) (user : UserId) (perm : Permission) (repo : RepoId)
    (paths : List String) : t.Decides user perm repo paths (t.judged t user perm repo paths) := by
  by_cases hgranted : repo ∈ t.reposOf user perm
  · rw [judged_of_mem hgranted]
    split
    · next hnone => exact .nothingAsked (List.isEmpty_iff.1 hnone)
    · next hasked =>
      rw [List.isEmpty_iff] at hasked
      cases hoverlay : t.overlayOf user repo with
      | none => exact .unrestricted hgranted hoverlay
      | some overlay =>
        obtain ⟨texts⟩ := overlay
        obtain ⟨rules, hrules⟩ | ⟨before, text, after, rfl, hbefore, htext⟩ :=
          denote_or_first texts
        · rw [leftBy_of_denote hrules]
          exact .ruled hgranted hoverlay hrules
        · obtain ⟨reason, hreason, hfailed⟩ := compileRules_of_first hbefore htext after
          simp only [Engine.leftBy, hfailed]
          exact .malformed hgranted hoverlay hbefore hreason hasked
  · rw [judged_of_not_mem hgranted]
    exact .notGranted hgranted

/-- What is found in the tables decides in one way only. -/
theorem Decides.judged_eq {paths : List String} {result : Except Stop (List String)}
    (h : t.Decides user perm repo paths result) :
    t.judged t user perm repo paths = result := by
  cases h with
  | nothingAsked hnone =>
    subst hnone
    rfl
  | notGranted hgranted => exact judged_of_not_mem hgranted paths
  | unrestricted hgranted hoverlay =>
    rw [judged_of_mem hgranted, hoverlay]
    cases paths <;> rfl
  | malformed hgranted hoverlay hbefore htext hasked =>
    have hmalformed : Malformed _ := fun rule hrule => by
      rw [htext] at hrule
      cases hrule
    obtain ⟨reason, hreason, hfailed⟩ := compileRules_of_first hbefore hmalformed _
    rw [htext] at hreason
    cases hreason
    rw [judged_of_mem hgranted, hoverlay, if_neg (mt List.isEmpty_iff.1 hasked), Engine.leftBy,
      hfailed]
  | ruled hgranted hoverlay hrules =>
    rw [judged_of_mem hgranted, hoverlay, leftBy_of_denote hrules]
    cases paths <;> rfl

theorem judged_eq_iff {paths : List String} {result : Except Stop (List String)} :
    t.judged t user perm repo paths = result ↔ t.Decides user perm repo paths result := by
  constructor
  · rintro rfl
    exact decides_judged t user perm repo paths
  · exact Decides.judged_eq

/-- Nothing but the access to the repository and the rules in it has a say. -/
theorem judged_congr {t' : Tables}
    (haccess : repo ∈ t'.reposOf user perm ↔ repo ∈ t.reposOf user perm)
    (hoverlay : t'.overlayOf user repo = t.overlayOf user repo) (paths : List String) :
    t'.judged t' user perm repo paths = t.judged t user perm repo paths := by
  by_cases hgranted : repo ∈ t.reposOf user perm
  · rw [judged_of_mem (haccess.2 hgranted), judged_of_mem hgranted, hoverlay]
  · rw [judged_of_not_mem (mt haccess.1 hgranted), judged_of_not_mem hgranted]

end Tables

/-! ### The leading slash -/

theorem fromRoot_slash {path : List Char} (h : path.head? ≠ some '/') :
    fromRoot ('/' :: path) = fromRoot path := by
  cases path with
  | nil => rfl
  | cons c rest =>
    have hc : c ≠ '/' := by simpa using h
    have hmissing : fromRoot (c :: rest) = '/' :: c :: rest := by
      unfold fromRoot
      split
      · next heq => exact absurd (List.cons.inj heq).1 hc
      · rfl
    rw [hmissing, fromRoot]

/-- Rules see no difference between a path and the same path from the root. -/
theorem isAllowed_slash {rules : List PathRule} {path : String}
    (h : path.toList.head? ≠ some '/') : isAllowed rules ("/" ++ path) = isAllowed rules path := by
  have happlies : ∀ rule : PathRule, rule.appliesTo ("/" ++ path) = rule.appliesTo path := by
    intro rule
    have hchars : ("/" ++ path).toList = '/' :: path.toList := String.toList_append
    rw [PathRule.appliesTo, hchars, fromRoot_slash h, PathRule.appliesTo]
  simp only [isAllowed, happlies]

/-! ### Path by path -/

/-- Answers that are all there are looked at one by one. -/
theorem filterM_of_ok {α : Type} {look : α → Except Stop Bool} {keep : α → Bool}
    (h : ∀ a, look a = .ok (keep a)) (xs : List α) : xs.filterM look = .ok (xs.filter keep) := by
  have haux : ∀ kept, xs.filterAuxM look kept = .ok ((xs.filter keep).reverse ++ kept) := by
    induction xs with
    | nil => exact fun kept => rfl
    | cons x xs ih =>
      intro kept
      rw [List.filterAuxM, h]
      refine (ih _).trans ?_
      cases hkeep : keep x <;> simp [hkeep]
  rw [List.filterM, haux]
  simp [bind, Except.bind, pure, Except.pure]

/-- The first failure ends the look at one after another. -/
theorem filterM_of_error {α : Type} {look : α → Except Stop Bool} {stop : Stop}
    (h : ∀ a, look a = .error stop) {xs : List α} (hsome : xs ≠ []) :
    xs.filterM look = .error stop := by
  cases xs with
  | nil => exact absurd rfl hsome
  | cons x xs =>
    rw [List.filterM, List.filterAuxM, h]
    rfl

namespace Tables

variable {t : Tables} {user : UserId} {perm : Permission} {repo : RepoId}

/-- Either each path is kept or dropped for itself, with a missing slash or without, or every list
of paths fails in the same way. -/
theorem judged_cases (t : Tables) (user : UserId) (perm : Permission) (repo : RepoId) :
    (∃ keep : String → Bool,
      (∀ path, path.toList.head? ≠ some '/' → keep ("/" ++ path) = keep path) ∧
      ∀ paths, t.judged t user perm repo paths = .ok (paths.filter keep)) ∨
    ∃ stop, ∀ paths, paths ≠ [] → t.judged t user perm repo paths = .error stop := by
  by_cases hgranted : repo ∈ t.reposOf user perm
  · simp only [judged_of_mem hgranted]
    cases t.overlayOf user repo with
    | none =>
      refine .inl ⟨fun _ => true, fun _ _ => rfl, fun paths => ?_⟩
      cases paths <;> simp [Engine.leftBy]
    | some overlay =>
      cases hrules : compileRules overlay.paths with
      | ok rules =>
        refine .inl ⟨isAllowed rules, fun _ => isAllowed_slash, fun paths => ?_⟩
        cases paths <;> simp only [Engine.leftBy, hrules] <;> rfl
      | error error =>
        refine .inr ⟨.failed error, fun paths hsome => ?_⟩
        rw [if_neg (mt List.isEmpty_iff.1 hsome)]
        simp only [Engine.leftBy, hrules]
  · refine .inl ⟨fun _ => false, fun _ _ => rfl, fun paths => ?_⟩
    rw [judged_of_not_mem hgranted, List.filter_false]

/-- What a list of one path comes to. -/
theorem map_judged_singleton {keep : String → Bool}
    (h : ∀ paths, t.judged t user perm repo paths = .ok (paths.filter keep)) (path : String) :
    ((t.judged t user perm repo [path]).map fun readable => !readable.isEmpty) =
      .ok (keep path) := by
  rw [h]
  cases hpath : keep path <;> simp [hpath, Except.map]

/-- A list of paths is judged as each of its paths is. -/
theorem judged_eq_filterM (t : Tables) (user : UserId) (perm : Permission) (repo : RepoId)
    (paths : List String) :
    t.judged t user perm repo paths =
      paths.filterM fun path =>
        (t.judged t user perm repo [path]).map fun readable => !readable.isEmpty := by
  obtain ⟨keep, -, hkeep⟩ | ⟨stop, hstop⟩ := t.judged_cases user perm repo
  · rw [hkeep, filterM_of_ok (map_judged_singleton hkeep)]
  · by_cases hsome : paths = []
    · subst hsome
      rfl
    · have hlook : ∀ path, ((t.judged t user perm repo [path]).map fun readable =>
          !readable.isEmpty) = .error stop := by
        intro path
        rw [hstop [path] (List.cons_ne_nil path [])]
        rfl
      rw [hstop paths hsome, filterM_of_error hlook hsome]

/-- A path is judged as the same path from the root. -/
theorem judged_slash {path : String} (h : path.toList.head? ≠ some '/') :
    ((t.judged t user perm repo ["/" ++ path]).map fun readable => !readable.isEmpty) =
      (t.judged t user perm repo [path]).map fun readable => !readable.isEmpty := by
  obtain ⟨keep, hslash, hkeep⟩ | ⟨stop, hstop⟩ := t.judged_cases user perm repo
  · rw [map_judged_singleton hkeep, map_judged_singleton hkeep, hslash path h]
  · rw [hstop _ (List.cons_ne_nil _ _), hstop _ (List.cons_ne_nil _ _)]

/-- Path rules only take paths away. -/
theorem sublist_of_judged {t' : Tables} {paths readable : List String}
    (haccess : repo ∈ t'.reposOf user perm ↔ repo ∈ t.reposOf user perm)
    (hunruled : t'.overlayOf user repo = none)
    (h : t.judged t user perm repo paths = .ok readable) :
    ∃ unruled, t'.judged t' user perm repo paths = .ok unruled ∧ readable.Sublist unruled := by
  by_cases hgranted : repo ∈ t.reposOf user perm
  · have hall : t'.judged t' user perm repo paths = .ok paths :=
      judged_eq_iff.2 (.unrestricted (haccess.2 hgranted) hunruled)
    refine ⟨paths, hall, ?_⟩
    obtain ⟨keep, -, hkeep⟩ | ⟨stop, hstop⟩ := t.judged_cases user perm repo
    · rw [hkeep] at h
      cases h
      exact List.filter_sublist
    · by_cases hsome : paths = []
      · subst hsome
        cases h
        exact .slnil
      · rw [hstop paths hsome] at h
        cases h
  · rw [judged_of_not_mem hgranted] at h
    cases h
    exact ⟨[], judged_of_not_mem (mt haccess.1 hgranted) paths, .slnil⟩

end Tables

/-! ### A check in the store -/

/-- A path check that nobody interferes with gives the answer that the tables decide: nothing
without access, everything with access and without path rules, the failure of the first malformed
rule if there is one, and otherwise the paths whose first matching rule lets them through, in their
order and as often as they are asked for. Its answer to a list is that of the checks of its paths one
by one, a missing leading slash makes no difference, and neither does anything in the store but the
access to the repository and the rules in it. What is answered with rules would be answered without
them. -/
theorem path_decisions_are_exact (s : MemoryStore) (hfree : s.Free) (setup : Setup)
    (now : Timestamp) (user : UserId) (perm : Permission) (repo : RepoId) :
    let ask := fun (setup : Setup) (now : Timestamp) (s : MemoryStore) paths =>
      ((setup.engine.filterPaths now user perm repo paths).start s).1
    let look := fun path => ((setup.engine.canReadPath now user perm repo path).start s).1
    (∀ paths result, ask setup now s paths = result ↔
      s.shared.Decides user perm repo paths result) ∧
    (∀ paths, ask setup now s paths = paths.filterM look) ∧
    (∀ path, ((setup.engine.canReadPath now user perm repo path).start s).2.1 = s) ∧
    (∀ path, path.toList.head? ≠ some '/' → look ("/" ++ path) = look path) ∧
    ∀ (s' : MemoryStore), s'.Free →
      (repo ∈ s'.shared.reposOf user perm ↔ repo ∈ s.shared.reposOf user perm) →
      (s'.shared.overlayOf user repo = s.shared.overlayOf user repo →
        ∀ setup' now' paths, ask setup' now' s' paths = ask setup now s paths) ∧
      (s'.shared.overlayOf user repo = none → ∀ paths readable,
        ask setup now s paths = .ok readable →
          ∃ unruled, ask setup now s' paths = .ok unruled ∧ readable.Sublist unruled) := by
  intro ask look
  have hask : ∀ setup now s', s'.Free → ∀ paths,
      ask setup now s' paths = s'.shared.judged s'.shared user perm repo paths :=
    fun setup now s' hfree' => filterPaths_undisturbed hfree' setup now user perm repo
  have hlook : ∀ path, look path =
      (s.shared.judged s.shared user perm repo [path]).map fun readable => !readable.isEmpty :=
    fun path => by
      rw [← hask setup now s hfree]
      exact Engine.canReadPath_eq_map path s
  refine ⟨fun paths result => ?_, fun paths => ?_,
    fun path => Question.ask_eq now s (.canReadPath setup user perm repo path),
    fun path hslash => ?_, fun s' hfree' haccess => ⟨fun hoverlay setup' now' paths => ?_,
      fun hunruled paths readable hreadable => ?_⟩⟩
  · rw [hask setup now s hfree, Tables.judged_eq_iff]
  · rw [hask setup now s hfree, Tables.judged_eq_filterM]
    exact congrArg (paths.filterM ·) (funext fun path => (hlook path).symm)
  · rw [hlook, hlook, Tables.judged_slash hslash]
  · rw [hask setup' now' s' hfree', hask setup now s hfree, Tables.judged_congr haccess hoverlay]
  · rw [hask setup now s hfree] at hreadable
    rw [hask setup now s' hfree']
    exact Tables.sublist_of_judged haccess hunruled hreadable

/-- One repository with an exclusion in front of a rule for everything, and one with a malformed rule
behind a well-formed one. -/
theorem path_decisions_are_exact_with_exclusion :
    let setup : Setup := { identityOf := fun user => .ok (.unknown user) }
    let s := (Chronicle.of [.write ⟨0, 0⟩ (.replaceAccount ⟨7⟩ ⟨3⟩ {⟨1⟩, ⟨2⟩}),
      .write ⟨0, 0⟩ (.saveOverlay ⟨7⟩ ⟨1⟩ ⟨["-s/**", "/**"]⟩),
      .write ⟨0, 0⟩ (.saveOverlay ⟨7⟩ ⟨2⟩ ⟨["/a", "["]⟩),
      .write ⟨0, 0⟩ (.saveOverlay ⟨8⟩ ⟨1⟩ ⟨[]⟩)]).store
    let ask := fun repo paths =>
      ((setup.engine.filterPaths ⟨1, 0⟩ ⟨7⟩ .read repo paths).start s).1
    s.Free ∧ ask ⟨1⟩ ["a", "/s/k", "s", "a"] = .ok ["a", "s", "a"] ∧
    (∃ reason, ask ⟨2⟩ ["/a"] = .error (.failed (.invalidPattern "[" reason))) ∧
    ask ⟨3⟩ ["/a"] = .ok [] := by
  intro setup s ask
  have hfree : s.Free := by decide +kernel
  have hdecides := fun repo =>
    (path_decisions_are_exact s hfree setup ⟨1, 0⟩ ⟨7⟩ .read repo).1
  refine ⟨hfree, ?_, ?_, (hdecides _ _ _).2 (.notGranted (by decide +kernel))⟩
  · have hrules : Denote ["-s/**", "/**"]
        [⟨[.literal '/', .literal 's', .literal '/', .anyComponents], true⟩,
          ⟨[.literal '/', .anyComponents], false⟩] :=
      .cons (ok_of_toOption (by decide +kernel)) (.cons (ok_of_toOption (by decide +kernel)) .nil)
    have hoverlay : s.shared.overlayOf ⟨7⟩ ⟨1⟩ = some ⟨["-s/**", "/**"]⟩ := by decide +kernel
    have hanswer := (hdecides ⟨1⟩ ["a", "/s/k", "s", "a"] _).2
      (.ruled (by decide +kernel) hoverlay hrules)
    refine hanswer.trans (congrArg Except.ok ?_)
    decide +kernel
  · have hfirst : (PathRule.compile "/a").toOption.isSome = true := by decide +kernel
    have hsecond : (PathRule.compile "[").toOption = none := by decide +kernel
    have hmalformed : Malformed "[" := fun rule hrule => by
      rw [hrule] at hsecond
      cases hsecond
    have hoverlay : s.shared.overlayOf ⟨7⟩ ⟨2⟩ = some ⟨["/a"] ++ "[" :: []⟩ := by decide +kernel
    obtain ⟨reason, hreason⟩ := PathRule.exists_reason_of_malformed hmalformed
    refine ⟨reason, (hdecides ⟨2⟩ ["/a"] _).2
      (.malformed (by decide +kernel) hoverlay ?_ hreason (by decide))⟩
    intro earlier hmem hbad
    cases List.mem_singleton.1 hmem
    obtain ⟨reason, hreason⟩ := PathRule.exists_reason_of_malformed hbad
    rw [hreason] at hfirst
    cases hfirst

end RepoAccess
