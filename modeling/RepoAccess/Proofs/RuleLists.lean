/-
Longer and shorter lists of path rules.

* `verdict?` — what one text says of a path: nothing, if it is malformed or its rule does not match;
* `IsExclusion` — the text denies what it matches, and `eq_of_verdict?` — a verdict is against the
  path exactly if the text is an exclusion;
* `ruling` — what a list of texts decides of a path, and `ruling_eq` — the first verdict decides, and
  without any verdict the path is denied;
* `rule_lists_are_monotone` — what follows for lists that grow, that are joined, and that change
  places.

A verdict is asked of every text in turn until there is one. So joining two lists is trying the second
one where the first one has no verdict, and all of it is about the first verdict of two.
-/
import RepoAccess.Proofs.PathDecisions

namespace RepoAccess

/-! ### Verdicts -/

/-- What a text says of a path; malformed texts and those that do not match say nothing. -/
def verdict? (text path : String) : Option Bool :=
  match PathRule.compile text with
  | .ok rule => if rule.appliesTo path then some (!rule.excludes) else none
  | .error _ => none

/-- The text denotes a rule that matches the path. -/
def Matches (text path : String) : Prop :=
  ∃ rule, PathRule.compile text = .ok rule ∧ rule.appliesTo path = true

/-- The text is one of an exclusion: it starts with a dash. -/
abbrev IsExclusion (text : String) : Prop := text.toList.head? = some '-'

theorem splitPolarity_fst (text : List Char) :
    (splitPolarity text).1 = decide (text.head? = some '-') := by
  unfold splitPolarity
  split
  · rfl
  · next hdash =>
    rw [eq_comm, decide_eq_false_iff_not]
    intro hhead
    obtain ⟨body, rfl⟩ : ∃ body, text = '-' :: body := by
      cases text with
      | nil => cases hhead
      | cons c body => exact ⟨body, by rw [Option.some.inj hhead]⟩
    exact hdash body rfl

/-- A rule takes its polarity from the dash. -/
theorem PathRule.excludes_of_compile {text : String} {rule : PathRule}
    (h : compile text = .ok rule) : rule.excludes = decide (IsExclusion text) := by
  rw [← splitPolarity_fst]
  exact (compile_eq_ok_iff.1 h).2.2

theorem isSome_verdict?_iff {text path : String} :
    (verdict? text path).isSome = true ↔ Matches text path := by
  unfold verdict? Matches
  cases PathRule.compile text with
  | error error => simp
  | ok rule => cases happlies : rule.appliesTo path <;> simp [happlies]

/-- A verdict is against the path exactly if the text is an exclusion. -/
theorem eq_of_verdict? {text path : String} {allowed : Bool}
    (h : verdict? text path = some allowed) : allowed = !decide (IsExclusion text) := by
  unfold verdict? at h
  split at h
  · next rule hrule =>
    split at h
    · rw [← PathRule.excludes_of_compile hrule]
      exact (Option.some.inj h).symm
    · cases h
  · cases h

/-! ### The first verdict -/

/-- What a list of texts decides of a path. -/
def ruling (texts : List String) (path : String) : Except AccessError Bool :=
  (compileRules texts).map fun rules => isAllowed rules path

/-- The verdict of the first text of the list that has one. -/
def firstVerdict? (texts : List String) (path : String) : Option Bool :=
  texts.findSome? (verdict? · path)

theorem firstVerdict?_append (a b : List String) (path : String) :
    firstVerdict? (a ++ b) path = (firstVerdict? a path).or (firstVerdict? b path) :=
  List.findSome?_append

theorem firstVerdict?_cons (text : String) (texts : List String) (path : String) :
    firstVerdict? (text :: texts) path = (verdict? text path).or (firstVerdict? texts path) := by
  rw [firstVerdict?, List.findSome?_cons, firstVerdict?]
  cases verdict? text path <;> rfl

theorem isAllowed_cons (rule : PathRule) (rules : List PathRule) (path : String) :
    isAllowed (rule :: rules) path =
      if rule.appliesTo path then !rule.excludes else isAllowed rules path := by
  rw [isAllowed, List.find?_cons]
  cases rule.appliesTo path <;> rfl

/-- The first verdict decides, and without any verdict the path is denied. -/
theorem isAllowed_of_denote {texts : List String} {rules : List PathRule} (h : Denote texts rules)
    (path : String) : isAllowed rules path = (firstVerdict? texts path).getD false := by
  induction h with
  | nil => rfl
  | cons hrule _ ih =>
    rw [isAllowed_cons, firstVerdict?_cons, ih, verdict?, hrule]
    split
    · next happlies => simp [happlies]
    · next happlies => simp [happlies]

theorem ruling_eq {texts : List String} (h : ∀ text ∈ texts, ¬ Malformed text) (path : String) :
    ruling texts path = .ok ((firstVerdict? texts path).getD false) := by
  obtain ⟨rules, hrules⟩ := exists_compileRules_iff.2 h
  rw [ruling, hrules, ← isAllowed_of_denote (denote_of_compileRules hrules)]
  rfl

/-- A list in which some text matches has a verdict. -/
theorem isSome_firstVerdict?_iff {texts : List String} {path : String} :
    (firstVerdict? texts path).isSome = true ↔ ∃ text ∈ texts, Matches text path := by
  rw [firstVerdict?, List.findSome?_isSome_iff]
  simp only [isSome_verdict?_iff]

/-! ### Lists that change -/

section Lists

variable {a b : List String} {text text' path : String}

theorem wellFormed_append (ha : ∀ t ∈ a, ¬ Malformed t) (hb : ∀ t ∈ b, ¬ Malformed t) :
    ∀ t ∈ a ++ b, ¬ Malformed t := by
  intro t hmem
  rcases List.mem_append.1 hmem with hmem | hmem
  · exact ha t hmem
  · exact hb t hmem

theorem wellFormed_cons (htext : ¬ Malformed text) (hb : ∀ t ∈ b, ¬ Malformed t) :
    ∀ t ∈ text :: b, ¬ Malformed t := List.forall_mem_cons.2 ⟨htext, hb⟩

/-- One more text changes a decision only where it has the first verdict, and then it decides. -/
theorem getD_firstVerdict?_insert (a b : List String) (text path : String) :
    (firstVerdict? (a ++ text :: b) path).getD false =
        (firstVerdict? (a ++ b) path).getD false ∨
      (firstVerdict? (a ++ text :: b) path).getD false = !decide (IsExclusion text) := by
  rw [firstVerdict?_append, firstVerdict?_append, firstVerdict?_cons]
  cases firstVerdict? a path with
  | some allowed => exact .inl rfl
  | none =>
    cases htext : verdict? text path with
    | none => exact .inl rfl
    | some allowed => exact .inr (eq_of_verdict? htext)

/-- Two texts of one polarity never disagree, so their order does not matter. -/
theorem firstVerdict?_swap (h : IsExclusion text' ↔ IsExclusion text) (a b : List String)
    (path : String) :
    firstVerdict? (a ++ text :: text' :: b) path = firstVerdict? (a ++ text' :: text :: b) path := by
  simp only [firstVerdict?_append, firstVerdict?_cons]
  cases hfirst : verdict? text path with
  | none => rfl
  | some allowed =>
    cases hsecond : verdict? text' path with
    | none => rfl
    | some allowed' =>
      rw [eq_of_verdict? hfirst, eq_of_verdict? hsecond]
      simp only [h]

end Lists

/-- Among well-formed rules, an exclusion that is put in anywhere lets no further path through, and
another rule that is put in anywhere takes no path away. Of two lists the first one decides where one
of its rules matches, and otherwise the second one. Two neighbours of the same polarity may change
places. And two lists are well-formed together exactly if each of them is. -/
theorem rule_lists_are_monotone (a b : List String) (text path : String)
    (ha : ∀ t ∈ a, ¬ Malformed t) (hb : ∀ t ∈ b, ¬ Malformed t) (htext : ¬ Malformed text) :
    (IsExclusion text → ruling (a ++ b) path = .ok false →
      ruling (a ++ text :: b) path = .ok false) ∧
    (¬ IsExclusion text → ruling (a ++ b) path = .ok true →
      ruling (a ++ text :: b) path = .ok true) ∧
    ((∃ t ∈ a, Matches t path) → ruling (a ++ b) path = ruling a path) ∧
    ((∀ t ∈ a, ¬ Matches t path) → ruling (a ++ b) path = ruling b path) ∧
    (∀ text', ¬ Malformed text' → (IsExclusion text' ↔ IsExclusion text) →
      ruling (a ++ text :: text' :: b) path = ruling (a ++ text' :: text :: b) path) ∧
    (∃ allowed, ruling (a ++ b) path = .ok allowed) ∧
    ∀ a' b', (∃ rules, compileRules (a' ++ b') = .ok rules) ↔
      (∃ rules, compileRules a' = .ok rules) ∧ ∃ rules, compileRules b' = .ok rules := by
  have hab := wellFormed_append ha hb
  have hatextb := wellFormed_append ha (wellFormed_cons htext hb)
  have hmore := getD_firstVerdict?_insert a b text path
  refine ⟨fun hexclusion hdenied => ?_, fun hinclusion hallowed => ?_, fun hmatch => ?_,
    fun hnone => ?_, fun text' htext' hpolarity => ?_, ⟨_, ruling_eq hab path⟩, fun a' b' => ?_⟩
  · rw [ruling_eq hab] at hdenied
    rw [ruling_eq hatextb]
    rcases hmore with hsame | hdecided
    · rw [hsame]
      exact hdenied
    · rw [hdecided, decide_eq_true hexclusion]
      rfl
  · rw [ruling_eq hab] at hallowed
    rw [ruling_eq hatextb]
    rcases hmore with hsame | hdecided
    · rw [hsame]
      exact hallowed
    · rw [hdecided, decide_eq_false hinclusion]
      rfl
  · obtain ⟨allowed, hallowed⟩ := Option.isSome_iff_exists.1 (isSome_firstVerdict?_iff.2 hmatch)
    rw [ruling_eq hab, ruling_eq ha, firstVerdict?_append, hallowed]
    rfl
  · have hsilent : firstVerdict? a path = none := by
      refine Option.not_isSome_iff_eq_none.1 fun hsome => ?_
      obtain ⟨t, hmem, hmatch⟩ := isSome_firstVerdict?_iff.1 hsome
      exact hnone t hmem hmatch
    rw [ruling_eq hab, ruling_eq hb, firstVerdict?_append, hsilent]
    rfl
  · have hboth := wellFormed_append ha (wellFormed_cons htext (wellFormed_cons htext' hb))
    have hswapped := wellFormed_append ha (wellFormed_cons htext' (wellFormed_cons htext hb))
    rw [ruling_eq hboth, ruling_eq hswapped, firstVerdict?_swap hpolarity]
  · simp only [exists_compileRules_iff, List.forall_mem_append]

/-- An exclusion between an exclusion that matches the path and rules that let it through. -/
theorem rule_lists_are_monotone_of_overlap :
    let a := ["-/a/**"]
    let b := ["/a/b", "/**"]
    let text := "-/b/*"
    let text' := "-/a/*"
    (∀ t ∈ a, ¬ Malformed t) ∧ (∀ t ∈ b, ¬ Malformed t) ∧ ¬ Malformed text ∧
    IsExclusion text ∧ (∃ t ∈ a, Matches t "/a/b") ∧
    ruling (a ++ b) "/a/b" = .ok false ∧ ruling (a ++ text :: b) "/a/b" = .ok false ∧
    ruling (a ++ b) "/a/b" = ruling a "/a/b" ∧
    ruling (a ++ text :: text' :: b) "/a/b" = ruling (a ++ text' :: text :: b) "/a/b" := by
  intro a b text text'
  have ha : ∀ t ∈ a, ¬ Malformed t := by decide +kernel
  have hb : ∀ t ∈ b, ¬ Malformed t := by decide +kernel
  have htext : ¬ Malformed text := by decide +kernel
  have htext' : ¬ Malformed text' := by decide +kernel
  have hmatch : ∃ t ∈ a, Matches t "/a/b" :=
    ⟨"-/a/**", List.mem_singleton_self _, isSome_verdict?_iff.1 (by decide +kernel)⟩
  have hdenied : ruling (a ++ b) "/a/b" = .ok false := ok_of_toOption (by decide +kernel)
  obtain ⟨hexclude, -, hfirst, -, hswap, -, -⟩ :=
    rule_lists_are_monotone a b text "/a/b" ha hb htext
  exact ⟨ha, hb, htext, by decide, hmatch, hdenied, hexclude (by decide) hdenied, hfirst hmatch,
    hswap text' htext' (by decide)⟩

end RepoAccess
