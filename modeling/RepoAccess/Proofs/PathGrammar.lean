/-
The texts of path patterns, as a grammar.

* `PathPattern.Spells` — the texts of a pattern, token by token, and `parseFrom_eq_ok_iff` — reading
  gives exactly the patterns that the grammar gives;
* `PathPattern.components` — a text cut at its slashes outside of bracket classes, and
  `PathPattern.slashes` — how many of those there are;
* `mem_components_of_spells` — `**` stands in a pattern only as a component of its text;
* `spells_components` — without it, each component is the text of a pattern by itself, and these are
  the pieces between the slashes of the whole pattern.

A slash inside of a bracket class is a member of the class and no end of a component, and the first
member may be a closing bracket. So a text is cut by walking through it and minding where in a class,
if in any, each character stands.
-/
import Mathlib.Data.List.Forall2
import RepoAccess.PathPattern

namespace RepoAccess

/-! ### First members -/

/-- What relates two lists still does after a change of the first members. -/
theorem forall₂_modifyHead {α β : Type} {R : α → β → Prop} {f : α → α} {g : β → β} {as : List α}
    {bs : List β} (h : List.Forall₂ R as bs)
    (hhead : ∀ a ∈ as.head?, ∀ b, R a b → R (f a) (g b)) :
    List.Forall₂ R (as.modifyHead f) (bs.modifyHead g) := by
  cases h with
  | nil => exact .nil
  | cons hab hrest => exact .cons (hhead _ rfl _ hab) hrest

/-! ### Where a character of a pattern stands -/

/-- Where the next character of a pattern stands. -/
inductive PatternPlace where
  /-- Outside of bracket classes. -/
  | outside
  /-- Behind an opening bracket. -/
  | opened
  /-- Where the first member of a negated class is due. -/
  | negated
  /-- Behind the first member of a class. -/
  | inClass
deriving DecidableEq, Repr

/-- The place behind a character. -/
def PatternPlace.next : PatternPlace → Char → PatternPlace
  | .outside, c => if c = '[' then .opened else .outside
  | .opened, c => if c = '!' then .negated else .inClass
  | .negated, _ => .inClass
  | .inClass, c => if c = ']' then .outside else .inClass

/-- The text cut at the slashes outside of bracket classes. -/
def PathPattern.componentsFrom : PatternPlace → List Char → List (List Char)
  | _, [] => [[]]
  | place, c :: rest =>
    if place = .outside ∧ c = '/' then [] :: componentsFrom .outside rest
    else (componentsFrom (place.next c) rest).modifyHead fun component => c :: component

/-- The number of slashes outside of bracket classes. -/
def PathPattern.slashesFrom : PatternPlace → List Char → Nat
  | _, [] => 0
  | place, c :: rest =>
    if place = .outside ∧ c = '/' then slashesFrom .outside rest + 1
    else slashesFrom (place.next c) rest

/-- The components of a pattern's text. -/
abbrev PathPattern.components (text : List Char) : List (List Char) :=
  componentsFrom .outside text

/-- The slashes of a pattern's text that are not members of a class. -/
abbrev PathPattern.slashes (text : List Char) : Nat := slashesFrom .outside text

namespace PathPattern

theorem length_componentsFrom (place : PatternPlace) (text : List Char) :
    (componentsFrom place text).length = slashesFrom place text + 1 := by
  induction text generalizing place with
  | nil => rfl
  | cons c rest ih =>
    rw [componentsFrom, slashesFrom]
    split
    · rw [List.length_cons, ih]
    · rw [List.length_modifyHead, ih]

theorem componentsFrom_ne_nil (place : PatternPlace) (text : List Char) :
    componentsFrom place text ≠ [] := by
  intro hnil
  have hlength := length_componentsFrom place text
  rw [hnil] at hlength
  simp at hlength

theorem components_slash (rest : List Char) :
    components ('/' :: rest) = [] :: components rest := rfl

/-- Any other character outside of classes belongs to the first component. -/
theorem components_cons {c : Char} (hslash : c ≠ '/') (hopen : c ≠ '[') (rest : List Char) :
    components (c :: rest) = (components rest).modifyHead fun component => c :: component := by
  simp [components, componentsFrom, PatternPlace.next, hslash, hopen]

/-- The text begins with its first component. -/
theorem head_of_mem_components {text component : List Char} {c : Char}
    (hmem : component ∈ (components text).head?) (hhead : component.head? = some c) :
    text.head? = some c := by
  cases text with
  | nil =>
    cases Option.mem_some_iff.1 hmem
    cases hhead
  | cons d rest =>
    unfold components componentsFrom at hmem
    split at hmem
    · cases Option.mem_some_iff.1 hmem
      cases hhead
    · obtain ⟨first, later, hrest⟩ :=
        List.exists_cons_of_ne_nil (componentsFrom_ne_nil (PatternPlace.outside.next d) rest)
      rw [hrest] at hmem
      cases Option.mem_some_iff.1 hmem
      exact hhead

/-! ### Bracket classes -/

/-- The text of a bracket class. -/
def classText (negated : Bool) (first : Char) (members : List Char) : List Char :=
  '[' :: ((if negated then ['!'] else []) ++ first :: (members ++ [']']))

/-- The first bracket behind the first member closes the class. -/
theorem componentsFrom_inClass {members : List Char} (hmembers : ']' ∉ members)
    (rest : List Char) :
    componentsFrom .inClass (members ++ ']' :: rest) =
      (components rest).modifyHead fun component => members ++ ']' :: component := by
  induction members with
  | nil => simp [componentsFrom, PatternPlace.next]
  | cons c members ih =>
    obtain ⟨hne, hmembers⟩ := not_or.1 (mt List.mem_cons.2 hmembers)
    simp [componentsFrom, PatternPlace.next, Ne.symm hne, ih hmembers, List.modifyHead_modifyHead,
      Function.comp_def]

/-- A class lies within one component. -/
theorem components_classText {negated : Bool} {first : Char} {members : List Char}
    (hmembers : ']' ∉ members) (hfirst : negated = false → first ≠ '!') (rest : List Char) :
    components (classText negated first members ++ rest) =
      (components rest).modifyHead fun component =>
        classText negated first members ++ component := by
  have hinside := componentsFrom_inClass hmembers rest
  cases negated with
  | true =>
    simp [components, classText, componentsFrom, PatternPlace.next, hinside,
      List.modifyHead_modifyHead, Function.comp_def]
  | false =>
    simp [components, classText, componentsFrom, PatternPlace.next, hfirst rfl, hinside,
      List.modifyHead_modifyHead, Function.comp_def]

/-! ### The grammar -/

/-- The texts of a pattern. The flag tells that the text stands at the start of a component, where
alone there may be two stars. -/
inductive Spells : Bool → List Char → PathPattern → Prop where
  | nil {start : Bool} : Spells start [] []
  | literal {start : Bool} {c : Char} {text : List Char} {tokens : PathPattern}
      (hmark : c ≠ '?') (hstar : c ≠ '*') (hopen : c ≠ '[')
      (hrest : Spells (c == '/') text tokens) : Spells start (c :: text) (.literal c :: tokens)
  | anyChar {start : Bool} {text : List Char} {tokens : PathPattern}
      (hrest : Spells false text tokens) : Spells start ('?' :: text) (.anyChar :: tokens)
  | charClass {start negated : Bool} {first : Char} {members text : List Char}
      {tokens : PathPattern} (hmembers : ']' ∉ members) (hfirst : negated = false → first ≠ '!')
      (hrest : Spells false text tokens) :
      Spells start (classText negated first members ++ text)
        (.charClass negated (ClassItem.ofChars (first :: members)) :: tokens)
  | anySequence {start : Bool} {text : List Char} {tokens : PathPattern}
      (hstar : text.head? ≠ some '*') (hrest : Spells false text tokens) :
      Spells start ('*' :: text) (.anySequence :: tokens)
  | anyComponents {text : List Char} {tokens : PathPattern} (hrest : Spells true text tokens) :
      Spells true ('*' :: '*' :: '/' :: text) (.anyComponents :: tokens)
  | lastComponents : Spells true ['*', '*'] [.anyComponents]

/-! ### Reading and the grammar -/

theorem exists_of_cons_eq_ok {token : PathToken} {read : Except PatternFault PathPattern}
    {tokens : PathPattern} (h : (do return token :: (← read)) = .ok tokens) :
    ∃ later, read = .ok later ∧ tokens = token :: later := by
  cases read with
  | error fault => cases h
  | ok later => exact ⟨later, rfl, (Except.ok.inj h).symm⟩

theorem notMem_takeWhile (text : List Char) : ']' ∉ text.takeWhile (· != ']') := by
  intro hmem
  have hall := List.all_eq_true.1 (List.all_takeWhile (p := (· != ']')) (l := text)) _ hmem
  simp at hall

theorem eq_append_of_dropWhile {text after : List Char} {c : Char}
    (h : text.dropWhile (· != ']') = c :: after) :
    text = text.takeWhile (· != ']') ++ ']' :: after := by
  have hc : (c != ']') = false := by
    have hhead := List.head?_dropWhile_not (· != ']') text
    simpa [h] using hhead
  have hsplit := List.takeWhile_append_dropWhile (p := (· != ']')) (l := text)
  rw [h, show c = ']' by simpa using hc] at hsplit
  exact hsplit.symm

/-- Two stars may stand where nothing but a slash has been. -/
theorem not_any_iff_all {previous : Option Char} :
    ¬ previous.any (· != '/') = true ↔ previous.all (· == '/') = true := by
  cases previous with
  | none => simp
  | some c => simp

/-- A class as it is read: its members reach up to the first closing bracket behind the first. -/
theorem Spells.charClass_of_dropWhile {start : Bool} (negated : Bool) {first c : Char}
    {rest after : List Char} {tokens : PathPattern}
    (hclose : rest.dropWhile (· != ']') = c :: after) (hfirst : negated = false → first ≠ '!')
    (hafter : Spells false after tokens) :
    Spells start ('[' :: ((if negated then ['!'] else []) ++ first :: rest))
      (.charClass negated (ClassItem.ofChars (first :: rest.takeWhile (· != ']'))) :: tokens) := by
  have hmembers := notMem_takeWhile rest
  have htext := eq_append_of_dropWhile hclose
  generalize rest.takeWhile (· != ']') = members at hmembers htext ⊢
  subst htext
  have hclass : Spells start (classText negated first members ++ after) _ :=
    .charClass hmembers hfirst hafter
  simpa [classText] using hclass

/-- What is read is in the grammar. -/
theorem spells_of_parseFrom {position : Nat} {previous : Option Char} {text : List Char}
    {tokens : PathPattern} (h : parseFrom position previous text = .ok tokens) :
    Spells (previous.all (· == '/')) text tokens := by
  fun_induction parseFrom position previous text generalizing tokens with
  | case1 =>
    cases h
    exact .nil
  | case2 position previous rest ih =>
    obtain ⟨later, hrest, rfl⟩ := exists_of_cons_eq_ok h
    exact .anyChar (ih hrest)
  | case3 | case4 | case7 | case9 | case11 | case13 => cases h
  | case5 position previous hbegins =>
    cases h
    rw [not_any_iff_all.1 hbegins]
    exact .lastComponents
  | case6 position previous hbegins rest _ ih =>
    obtain ⟨later, hrest, rfl⟩ := exists_of_cons_eq_ok h
    rw [not_any_iff_all.1 hbegins]
    exact .anyComponents (ih hrest)
  | case8 position previous rest _ hstar ih =>
    obtain ⟨later, hrest, rfl⟩ := exists_of_cons_eq_ok h
    refine .anySequence (fun hhead => ?_) (ih hrest)
    obtain ⟨_, hrest⟩ := List.head?_eq_some_iff.1 hhead
    exact hstar _ hrest
  | case10 position previous first rest c after hclose _ members =>
    rename_i ih
    obtain ⟨later, hrest, rfl⟩ := exists_of_cons_eq_ok h
    exact .charClass_of_dropWhile true hclose nofun (ih hrest)
  | case12 position previous first rest hfirst c after hclose _ members =>
    rename_i ih
    obtain ⟨later, hrest, rfl⟩ := exists_of_cons_eq_ok h
    -- An exclamation mark with members behind it would have been read as a negation.
    have hfirst : first ≠ '!' := by
      intro heq
      cases rest with
      | nil => cases hclose
      | cons d rest => exact hfirst d rest heq rfl
    exact .charClass_of_dropWhile false hclose (fun _ => hfirst) (ih hrest)
  | case14 position previous c rest hmark _ _ hstar _ hclass hopen ih =>
    obtain ⟨later, hrest, rfl⟩ := exists_of_cons_eq_ok h
    have hbracket : c ≠ '[' := by
      intro heq
      cases rest with
      | nil => exact hopen heq rfl
      | cons d rest => exact hclass d rest heq rfl
    exact .literal hmark hstar hbracket (ih hrest)

/-- A class is read as one token. -/
theorem parseFrom_classText {negated : Bool} {first : Char} {members : List Char}
    (hmembers : ']' ∉ members) (hfirst : negated = false → first ≠ '!') (position : Nat)
    (previous : Option Char) (text : List Char) :
    ∃ position', parseFrom position previous (classText negated first members ++ text) = do
      return .charClass negated (ClassItem.ofChars (first :: members)) ::
        (← parseFrom position' (some ']') text) := by
  have hlist : ∀ c ∈ members, (c != ']') = true := by
    intro c hc
    simpa using ne_of_mem_of_not_mem hc hmembers
  have htake : (members ++ ']' :: text).takeWhile (· != ']') = members := by
    simp [List.takeWhile_append_of_pos hlist]
  have hdrop : (members ++ ']' :: text).dropWhile (· != ']') = ']' :: text := by
    simp [List.dropWhile_append_of_pos hlist]
  cases negated with
  | true =>
    refine ⟨position + (first :: members).length + 3, ?_⟩
    simp only [classText, if_true, List.cons_append, List.append_assoc, List.nil_append]
    rw [parseFrom]
    split
    · next hopen => cases hopen.symm.trans hdrop
    · next c after hclose =>
      cases hclose.symm.trans hdrop
      rw [htake]
  | false =>
    refine ⟨position + (first :: members).length + 2, ?_⟩
    simp only [classText, Bool.false_eq_true, if_false, List.cons_append, List.append_assoc,
      List.nil_append]
    rw [parseFrom.eq_9 _ _ _ _ fun _ _ heq _ => hfirst rfl heq]
    split
    · next hopen => cases hopen.symm.trans hdrop
    · next c after hclose =>
      cases hclose.symm.trans hdrop
      rw [htake]

/-- What is in the grammar is read, wherever it stands. -/
theorem parseFrom_of_spells {start : Bool} {text : List Char} {tokens : PathPattern}
    (h : Spells start text tokens) (position : Nat) {previous : Option Char}
    (hprevious : previous.all (· == '/') = start) :
    parseFrom position previous text = .ok tokens := by
  induction h generalizing position previous with
  | nil => rw [parseFrom]
  | literal hmark hstar hopen _ ih =>
    rw [parseFrom, ih (position + 1) rfl]
    · rfl
    all_goals simp [hmark, hstar, hopen]
  | anyChar _ ih =>
    rw [parseFrom, ih (position + 1) rfl]
    rfl
  | charClass hmembers hfirst _ ih =>
    obtain ⟨position', hread⟩ := parseFrom_classText hmembers hfirst position previous _
    rw [hread, ih position' rfl]
    rfl
  | anySequence hstar _ ih =>
    rw [parseFrom, ih (position + 1) rfl]
    · rfl
    · rintro tail rfl
      exact hstar rfl
    · rintro tail rfl
      exact hstar rfl
  | anyComponents _ ih =>
    rw [parseFrom, if_neg (not_any_iff_all.2 hprevious), ih (position + 3) rfl]
    rfl
  | lastComponents => rw [parseFrom, if_neg (not_any_iff_all.2 hprevious)]

theorem parseFrom_eq_ok_iff {position : Nat} {previous : Option Char} {text : List Char}
    {tokens : PathPattern} :
    parseFrom position previous text = .ok tokens ↔
      Spells (previous.all (· == '/')) text tokens :=
  ⟨spells_of_parseFrom, fun h => parseFrom_of_spells h position rfl⟩

/-- A text denotes the pattern that it spells from the start of a component. -/
theorem parse_eq_ok_iff {text : List Char} {tokens : PathPattern} :
    parse text = .ok tokens ↔ Spells true text tokens :=
  parseFrom_eq_ok_iff

/-! ### Components of a text and of its pattern -/

/-- Two stars stand in a pattern only as a component of its text. It is the first component only if
the text stands at the start of one. -/
theorem mem_components_of_spells {start : Bool} {text : List Char} {tokens : PathPattern}
    (h : Spells start text tokens) (hmem : .anyComponents ∈ tokens) :
    (start = true ∧ ['*', '*'] ∈ components text) ∨ ['*', '*'] ∈ (components text).tail := by
  induction h with
  | nil => cases hmem
  | @literal start c text tokens _ _ hopen _ ih =>
    have hlater := ih (by simpa using hmem)
    by_cases hslash : c = '/'
    · -- A component starts behind the slash, so the first one there counts as well.
      subst hslash
      right
      rw [components_slash, List.tail_cons]
      exact hlater.elim And.right List.mem_of_mem_tail
    · rw [components_cons hslash hopen, List.tail_modifyHead]
      exact .inr (hlater.resolve_left (by simp [hslash]))
  | anyChar _ ih =>
    rw [components_cons (by decide) (by decide), List.tail_modifyHead]
    exact .inr ((ih (by simpa using hmem)).resolve_left (by simp))
  | charClass hmembers hfirst _ ih =>
    rw [components_classText hmembers hfirst, List.tail_modifyHead]
    exact .inr ((ih (by simpa using hmem)).resolve_left (by simp))
  | anySequence _ _ ih =>
    rw [components_cons (by decide) (by decide), List.tail_modifyHead]
    exact .inr ((ih (by simpa using hmem)).resolve_left (by simp))
  | anyComponents => exact .inl ⟨rfl, by simp [components, componentsFrom, PatternPlace.next]⟩
  | lastComponents => exact .inl ⟨rfl, by decide⟩

/-- Without two stars, the components of a text spell what its pattern has between its slashes, and
do so anywhere. -/
theorem spells_components {start : Bool} {text : List Char} {tokens : PathPattern}
    (h : Spells start text tokens) (hplain : .anyComponents ∉ tokens) :
    List.Forall₂ (fun component part => ∀ start, Spells start component part) (components text)
      (tokens.splitOn (.literal '/')) := by
  induction h with
  | nil => exact .cons (fun _ => .nil) .nil
  | @literal start c text tokens hmark hstar hopen _ ih =>
    have hlater := ih (by simpa using hplain)
    rw [List.splitOn_cons_eq_if_modifyHead]
    by_cases hslash : c = '/'
    · subst hslash
      rw [components_slash, if_pos (by simp)]
      exact .cons (fun _ => .nil) hlater
    · rw [components_cons hslash hopen, if_neg (by simp [hslash])]
      exact forall₂_modifyHead hlater fun _ _ _ hspells _ =>
        .literal hmark hstar hopen (hspells _)
  | anyChar _ ih =>
    rw [components_cons (by decide) (by decide), List.splitOn_cons_eq_if_modifyHead,
      if_neg (by simp)]
    exact forall₂_modifyHead (ih (by simpa using hplain)) fun _ _ _ hspells _ =>
      .anyChar (hspells _)
  | charClass hmembers hfirst _ ih =>
    rw [components_classText hmembers hfirst, List.splitOn_cons_eq_if_modifyHead, if_neg (by simp)]
    exact forall₂_modifyHead (ih (by simpa using hplain)) fun _ _ _ hspells _ =>
      .charClass hmembers hfirst (hspells _)
  | anySequence hstar _ ih =>
    rw [components_cons (by decide) (by decide), List.splitOn_cons_eq_if_modifyHead,
      if_neg (by simp)]
    refine forall₂_modifyHead (ih (by simpa using hplain)) fun component hmem _ hspells _ => ?_
    -- A second star in the component would be one in the text.
    exact .anySequence (fun hhead => hstar (head_of_mem_components hmem hhead)) (hspells _)
  | anyComponents | lastComponents => simp at hplain

end PathPattern

end RepoAccess
