/-
Rules and directory levels.

* `PathToken.Takes` — what a token takes of a text, and `mem_endings_iff` — these are the beginnings
  that matching tries;
* `PathPattern.Branch` — tokens that matching has tried one after another, each with its piece of the
  text, and `accepts_iff_branch` — a pattern matches where a branch takes the whole text;
* `accepts_iff_levels` — a pattern without `**` matches level by level;
* `rules_keep_to_their_levels` — so does a rule, by the components of its text.

A token but `**` takes the same pieces whatever comes behind them. So what tokens take together is
what they take apart, put together, and a literal slash is the only one that ends a level.
-/
import RepoAccess.Proofs.PathDecisions
import RepoAccess.Proofs.PathGrammar

namespace RepoAccess

/-! ### What a token takes -/

/-- The token takes this piece where that rest comes behind it. Only `**` minds the rest. -/
def PathToken.Takes : PathToken → List Char → List Char → Prop
  | .literal d, piece, _ => piece = [d]
  | .anyChar, piece, _ => ∃ c, piece = [c] ∧ c ≠ '/'
  | .charClass negated items, piece, _ =>
    ∃ c, piece = [c] ∧ c ≠ '/' ∧ items.any (·.holds c) ≠ negated
  | .anySequence, piece, _ => '/' ∉ piece
  | .anyComponents, piece, rest => piece = [] ∨ rest = [] ∨ piece.getLast? = some '/'

theorem mem_restIf_iff {accepts : Char → Bool} {text rest : List Char} :
    rest ∈ restIf accepts text ↔ ∃ c, text = c :: rest ∧ accepts c = true := by
  cases text with
  | nil => simp [restIf]
  | cons c later =>
    rw [restIf]
    split
    · next haccepts =>
      rw [List.mem_singleton]
      constructor
      · rintro rfl
        exact ⟨c, rfl, haccepts⟩
      · rintro ⟨_, htext, -⟩
        exact (List.cons.inj htext).2.symm
    · next haccepts => simp [haccepts]

theorem mem_endingsInComponent_iff {text rest : List Char} :
    rest ∈ endingsInComponent text ↔ ∃ piece, text = piece ++ rest ∧ '/' ∉ piece := by
  induction text with
  | nil => simp [endingsInComponent]
  | cons c later ih =>
    rw [endingsInComponent, List.mem_cons]
    constructor
    · rintro (rfl | hlater)
      · exact ⟨[], rfl, List.not_mem_nil⟩
      · split at hlater
        · cases hlater
        · next hslash =>
          obtain ⟨piece, rfl, hpiece⟩ := ih.1 hlater
          exact ⟨c :: piece, rfl, by simp [hpiece, Ne.symm hslash]⟩
    · rintro ⟨piece, htext, hpiece⟩
      cases piece with
      | nil => exact .inl htext.symm
      | cons d piece =>
        obtain ⟨rfl, hlater⟩ := List.cons.inj htext
        obtain ⟨hslash, hpiece⟩ := not_or.1 (mt List.mem_cons.2 hpiece)
        rw [if_neg (Ne.symm hslash)]
        exact .inr (ih.2 ⟨piece, hlater, hpiece⟩)

theorem mem_endingsAfterSlash_iff {text rest : List Char} :
    rest ∈ endingsAfterSlash text ↔
      ∃ piece, text = piece ++ rest ∧ (rest = [] ∨ piece.getLast? = some '/') := by
  induction text with
  | nil => simp [endingsAfterSlash]
  | cons c later ih =>
    have hcons : rest ∈ endingsAfterSlash (c :: later) ↔
        (c = '/' ∧ rest = later) ∨ rest ∈ endingsAfterSlash later := by
      rw [endingsAfterSlash]
      split
      · next hslash => simp [hslash]
      · next hslash => simp [hslash]
    rw [hcons, ih]
    constructor
    · rintro (⟨rfl, rfl⟩ | ⟨piece, rfl, hpiece⟩)
      · exact ⟨['/'], rfl, .inr rfl⟩
      · refine ⟨c :: piece, rfl, hpiece.imp_right fun hlast => ?_⟩
        rw [List.getLast?_cons, hlast]
        rfl
    · rintro ⟨piece, htext, hpiece⟩
      cases piece with
      | nil =>
        obtain rfl | hlast := hpiece
        · cases htext
        · cases hlast
      | cons d piece =>
        obtain ⟨rfl, rfl⟩ := List.cons.inj htext
        by_cases hempty : piece = []
        · subst hempty
          obtain rfl | hlast := hpiece
          · exact .inr ⟨[], rfl, .inl rfl⟩
          · exact .inl ⟨Option.some.inj hlast, rfl⟩
        · right
          refine ⟨piece, rfl, hpiece.imp_right fun hlast => ?_⟩
          rwa [List.getLast?_cons_of_ne_nil hempty] at hlast

theorem PathToken.mem_endings_iff {token : PathToken} {text rest : List Char} :
    rest ∈ token.endings text ↔ ∃ piece, text = piece ++ rest ∧ token.Takes piece rest := by
  cases token with
  | literal d => simp [endings, mem_restIf_iff, Takes]
  | anyChar => simp [endings, mem_restIf_iff, Takes]
  | charClass negated items => simp [endings, mem_restIf_iff, Takes]
  | anySequence => exact mem_endingsInComponent_iff
  | anyComponents =>
    rw [endings, List.mem_cons, mem_endingsAfterSlash_iff]
    constructor
    · rintro (rfl | ⟨piece, htext, hpiece⟩)
      · exact ⟨[], rfl, .inl rfl⟩
      · exact ⟨piece, htext, .inr hpiece⟩
    · rintro ⟨piece, htext, rfl | hpiece⟩
      · exact .inl htext.symm
      · exact .inr ⟨piece, htext, hpiece⟩

/-- Only a literal slash and `**` take a slash. -/
theorem PathToken.Takes.slash_notMem {token : PathToken} {piece rest : List Char}
    (h : token.Takes piece rest) (hslash : token ≠ .literal '/')
    (hcomponents : token ≠ .anyComponents) : '/' ∉ piece := by
  cases token with
  | literal d =>
    obtain rfl : piece = [d] := h
    intro hmem
    rw [List.mem_singleton.1 hmem] at hslash
    exact hslash rfl
  | anyChar =>
    obtain ⟨c, rfl, hc⟩ := h
    exact fun hmem => hc (List.mem_singleton.1 hmem).symm
  | charClass negated items =>
    obtain ⟨c, rfl, hc, -⟩ := h
    exact fun hmem => hc (List.mem_singleton.1 hmem).symm
  | anySequence => exact h
  | anyComponents => exact absurd rfl hcomponents

/-- What comes behind a piece matters to `**` only. -/
theorem PathToken.Takes.before {token : PathToken} {piece rest : List Char}
    (h : token.Takes piece rest) (hcomponents : token ≠ .anyComponents) (rest' : List Char) :
    token.Takes piece rest' := by
  cases token with
  | anyComponents => exact absurd rfl hcomponents
  | literal | anyChar | charClass | anySequence => exact h

namespace PathPattern

/-! ### Branches of a match -/

/-- Matching comes this far into the text: the tokens take the pieces, one after another, and the
rest is left. -/
inductive Branch : PathPattern → List Char → List (List Char) → List Char → Prop where
  | nil {text : List Char} : Branch [] text [] text
  | cons {token : PathToken} {tokens : PathPattern} {piece text later rest : List Char}
      {pieces : List (List Char)} (htext : text = piece ++ later)
      (htoken : later ∈ token.endings text) (htokens : Branch tokens later pieces rest) :
      Branch (token :: tokens) text (piece :: pieces) rest

theorem accepts_cons_iff {token : PathToken} {tokens : PathPattern} {text : List Char} :
    accepts (token :: tokens) text = true ↔
      ∃ piece rest, text = piece ++ rest ∧ token.Takes piece rest ∧ accepts tokens rest = true := by
  rw [accepts, List.any_eq_true]
  constructor
  · rintro ⟨rest, hrest, htokens⟩
    obtain ⟨piece, htext, htakes⟩ := PathToken.mem_endings_iff.1 hrest
    exact ⟨piece, rest, htext, htakes, htokens⟩
  · rintro ⟨piece, rest, htext, htakes, htokens⟩
    exact ⟨rest, PathToken.mem_endings_iff.2 ⟨piece, htext, htakes⟩, htokens⟩

/-- A pattern matches where some branch takes the whole text. -/
theorem accepts_iff_branch {tokens : PathPattern} {text : List Char} :
    accepts tokens text = true ↔ ∃ pieces, Branch tokens text pieces [] := by
  induction tokens generalizing text with
  | nil =>
    rw [accepts, List.isEmpty_iff]
    constructor
    · rintro rfl
      exact ⟨[], .nil⟩
    · rintro ⟨_, ⟨⟩⟩
      rfl
  | cons token tokens ih =>
    rw [accepts, List.any_eq_true]
    constructor
    · rintro ⟨rest, hrest, htokens⟩
      obtain ⟨piece, htext, -⟩ := PathToken.mem_endings_iff.1 hrest
      obtain ⟨pieces, hpieces⟩ := ih.1 htokens
      exact ⟨piece :: pieces, .cons htext hrest hpieces⟩
    · rintro ⟨_, _ | ⟨htext, htoken, htokens⟩⟩
      exact ⟨_, htoken, ih.2 ⟨_, htokens⟩⟩

/-- A branch takes the text apart. -/
theorem Branch.flatten {tokens : PathPattern} {text rest : List Char}
    {pieces : List (List Char)} (h : Branch tokens text pieces rest) :
    text = pieces.flatten ++ rest := by
  induction h with
  | nil => rfl
  | cons htext _ _ ih => rw [htext, ih, List.flatten_cons, List.append_assoc]

/-- On no branch a token but these two takes a slash. -/
theorem Branch.slash_notMem {tokens : PathPattern} {text rest : List Char}
    {pieces : List (List Char)} (h : Branch tokens text pieces rest) :
    List.Forall₂ (fun token piece =>
      token ≠ .literal '/' → token ≠ .anyComponents → '/' ∉ piece) tokens pieces := by
  induction h with
  | nil => exact .nil
  | @cons token _ piece _ later _ _ htext htoken _ ih =>
    obtain ⟨piece', htext', htakes⟩ := PathToken.mem_endings_iff.1 htoken
    -- The piece is the one that the token takes, since both leave the same text.
    obtain rfl : piece = piece' := List.append_cancel_right (htext.symm.trans htext')
    exact .cons htakes.slash_notMem ih

/-! ### Levels -/

theorem accepts_append {first : PathPattern} (hplain : .anyComponents ∉ first)
    {second : PathPattern} {text : List Char} :
    accepts (first ++ second) text = true ↔
      ∃ front back, text = front ++ back ∧ accepts first front = true ∧
        accepts second back = true := by
  induction first generalizing text with
  | nil => simp [accepts]
  | cons token first ih =>
    obtain ⟨htoken, hfirst⟩ := not_or.1 (mt List.mem_cons.2 hplain)
    simp only [List.cons_append, accepts_cons_iff, ih hfirst]
    -- The token takes its piece with the back behind it and without.
    constructor
    · rintro ⟨piece, _, rfl, htakes, front, back, rfl, hfront, hback⟩
      exact ⟨piece ++ front, back, by simp, ⟨piece, front, rfl,
        htakes.before (Ne.symm htoken) front, hfront⟩, hback⟩
    · rintro ⟨_, back, rfl, ⟨piece, front, rfl, htakes, hfront⟩, hback⟩
      exact ⟨piece, front ++ back, by simp, htakes.before (Ne.symm htoken) _, front, back, rfl,
        hfront, hback⟩

/-- A pattern without slashes matches none. -/
theorem slash_notMem_of_accepts {tokens : PathPattern} (hplain : .anyComponents ∉ tokens)
    (hslash : .literal '/' ∉ tokens) {text : List Char} (h : accepts tokens text = true) :
    '/' ∉ text := by
  induction tokens generalizing text with
  | nil =>
    rw [accepts, List.isEmpty_iff] at h
    rw [h]
    exact List.not_mem_nil
  | cons token tokens ih =>
    obtain ⟨htoken, hplain⟩ := not_or.1 (mt List.mem_cons.2 hplain)
    obtain ⟨hliteral, hslash⟩ := not_or.1 (mt List.mem_cons.2 hslash)
    obtain ⟨piece, rest, rfl, htakes, hrest⟩ := accepts_cons_iff.1 h
    rw [List.mem_append, not_or]
    exact ⟨htakes.slash_notMem (Ne.symm hliteral) (Ne.symm htoken), ih hplain hslash hrest⟩

/-- What stands before the first slash is the first level. -/
theorem levels_cases (text : List Char) :
    ('/' ∉ text ∧ text.splitOn '/' = [text]) ∨
      ∃ level below, text = level ++ '/' :: below ∧ '/' ∉ level ∧
        text.splitOn '/' = level :: below.splitOn '/' := by
  by_cases hslash : '/' ∈ text
  · obtain ⟨level, below, rfl, hlevel⟩ := List.eq_append_cons_of_mem hslash
    exact .inr ⟨level, below, rfl, hlevel, List.splitOn_append_cons_self_of_not_mem hlevel below⟩
  · exact .inl ⟨hslash, List.splitOn_eq_singleton hslash⟩

/-- A text has one level only if there is no slash in it. -/
theorem forall₂_level_iff {α : Type} {R : α → List Char → Prop} {part : α} {text : List Char} :
    List.Forall₂ R [part] (text.splitOn '/') ↔ '/' ∉ text ∧ R part text := by
  obtain ⟨hslash, hsplit⟩ | ⟨level, below, rfl, -, hsplit⟩ := levels_cases text
  · simp [hsplit, hslash]
  · simp [hsplit, List.splitOn_ne_nil]

/-- More levels than one are cut apart by the first slash. -/
theorem forall₂_levels_iff {α : Type} {R : α → List Char → Prop} {part : α} {parts : List α}
    (hparts : parts ≠ []) {text : List Char} :
    List.Forall₂ R (part :: parts) (text.splitOn '/') ↔
      ∃ level below, text = level ++ '/' :: below ∧ '/' ∉ level ∧ R part level ∧
        List.Forall₂ R parts (below.splitOn '/') := by
  constructor
  · intro hlevels
    obtain ⟨-, hsplit⟩ | ⟨level, below, htext, hlevel, hsplit⟩ := levels_cases text
    · rw [hsplit] at hlevels
      simp [hparts] at hlevels
    · rw [hsplit, List.forall₂_cons] at hlevels
      exact ⟨level, below, htext, hlevel, hlevels.1, hlevels.2⟩
  · rintro ⟨level, below, rfl, hlevel, hpart, hbelow⟩
    rw [List.splitOn_append_cons_self_of_not_mem hlevel]
    exact .cons hpart hbelow

theorem accepts_slash_iff {first later : PathPattern} (hfirst : .anyComponents ∉ first)
    {text : List Char} :
    accepts (first ++ .literal '/' :: later) text = true ↔
      ∃ level below, text = level ++ '/' :: below ∧ accepts first level = true ∧
        accepts later below = true := by
  rw [accepts_append hfirst]
  constructor
  · rintro ⟨level, _, rfl, hlevel, hlater⟩
    obtain ⟨_, below, rfl, rfl, hbelow⟩ := accepts_cons_iff.1 hlater
    exact ⟨level, below, rfl, hlevel, hbelow⟩
  · rintro ⟨level, below, rfl, hlevel, hbelow⟩
    exact ⟨level, _, rfl, hlevel, accepts_cons_iff.2 ⟨['/'], below, rfl, rfl, hbelow⟩⟩

/-- A pattern without `**` matches level by level. The induction is on what stands behind its first
slash: tokens before it take no slash, so the text's first slash is the one it takes. -/
theorem accepts_iff_levels {tokens : PathPattern} (hplain : .anyComponents ∉ tokens)
    {text : List Char} :
    accepts tokens text = true ↔
      List.Forall₂ (fun part level => accepts part level = true)
        (tokens.splitOn (.literal '/')) (text.splitOn '/') := by
  by_cases hslash : .literal '/' ∈ tokens
  · obtain ⟨first, later, rfl, hfirst⟩ := List.eq_append_cons_of_mem hslash
    have hparts : .anyComponents ∉ first ∧ .anyComponents ∉ later := by simpa using hplain
    have ih := @accepts_iff_levels later hparts.2
    rw [List.splitOn_append_cons_self_of_not_mem hfirst, accepts_slash_iff hparts.1,
      forall₂_levels_iff (List.splitOn_ne_nil _ _)]
    constructor
    · rintro ⟨level, below, htext, hlevel, hbelow⟩
      have hnone := slash_notMem_of_accepts hparts.1 hfirst hlevel
      exact ⟨level, below, htext, hnone, hlevel, ih.1 hbelow⟩
    · rintro ⟨level, below, htext, -, hlevel, hbelow⟩
      exact ⟨level, below, htext, hlevel, ih.2 hbelow⟩
  · rw [List.splitOn_eq_singleton hslash, forall₂_level_iff]
    exact ⟨fun h => ⟨slash_notMem_of_accepts hplain hslash h, h⟩, And.right⟩
termination_by tokens.length
decreasing_by
  subst_vars
  simp only [List.length_append, List.length_cons]
  omega

theorem length_levels (text : List Char) :
    (text.splitOn '/').length = text.count '/' + 1 := by
  induction text with
  | nil => rfl
  | cons c text ih =>
    rw [List.splitOn_cons_eq_if_modifyHead, List.count_cons]
    split
    · rw [List.length_cons, ih]
    · rw [List.length_modifyHead, ih]

end PathPattern

/-! ### Rules -/

/-- Parts match what their texts match, each read by itself. -/
theorem PathPattern.forall₂_accepts_iff {texts levels : List (List Char)}
    {parts : List PathPattern}
    (h : List.Forall₂ (fun text part => ∀ start, Spells start text part) texts parts) :
    List.Forall₂ (fun part level => accepts part level = true) parts levels ↔
      List.Forall₂ (fun text level =>
        ∃ pattern, parse text = .ok pattern ∧ accepts pattern level = true) texts levels := by
  induction h generalizing levels with
  | nil => simp
  | cons hspells _ ih =>
    cases levels with
    | nil => simp
    | cons level levels =>
      rw [List.forall₂_cons, List.forall₂_cons, ih, parse_eq_ok_iff.2 (hspells true)]
      simp

open PathPattern in
/-- Rules keep to their levels. Where no component of a rule's text is `**`, the rule matches a path
exactly if each component, read as a pattern by itself, matches the level in its place, and so the
path has as many slashes as the rule's text has outside of bracket classes. A rule of any kind
matches a path exactly if some branch takes all of it, and on no branch, also of those that come to
nothing, a token but `**` and a slash itself takes a slash. -/
theorem rules_keep_to_their_levels {text : String} {rule : PathRule}
    (hrule : PathRule.compile text = .ok rule) (path : String) :
    (['*', '*'] ∉ components (patternText text) →
      (rule.appliesTo path = true ↔
        List.Forall₂ (fun component level =>
            ∃ pattern, parse component = .ok pattern ∧ accepts pattern level = true)
          (components (patternText text)) ((fromRoot path.toList).splitOn '/')) ∧
      (rule.appliesTo path = true →
        (fromRoot path.toList).count '/' = slashes (patternText text))) ∧
    (rule.appliesTo path = true ↔
      ∃ pieces, Branch rule.pattern (fromRoot path.toList) pieces []) ∧
    ∀ tokens pieces rest, tokens <+: rule.pattern →
      Branch tokens (fromRoot path.toList) pieces rest →
        fromRoot path.toList = pieces.flatten ++ rest ∧
        List.Forall₂ (fun token piece =>
          token ≠ .literal '/' → token ≠ .anyComponents → '/' ∉ piece) tokens pieces := by
  have hspells := parse_eq_ok_iff.1 (PathRule.compile_eq_ok_iff.1 hrule).2.1
  refine ⟨?_, accepts_iff_branch, fun tokens pieces rest _ h => ⟨h.flatten, h.slash_notMem⟩⟩
  intro hstars
  have hplain : .anyComponents ∉ rule.pattern := by
    intro hmem
    obtain ⟨-, hmem⟩ | hmem := mem_components_of_spells hspells hmem
    · exact hstars hmem
    · exact hstars (List.mem_of_mem_tail hmem)
  have hlevels : rule.appliesTo path = true ↔ List.Forall₂ (fun component level =>
      ∃ pattern, parse component = .ok pattern ∧ accepts pattern level = true)
        (components (patternText text)) ((fromRoot path.toList).splitOn '/') :=
    (accepts_iff_levels hplain).trans (forall₂_accepts_iff (spells_components hspells hplain))
  refine ⟨hlevels, fun happlies => ?_⟩
  have hlength := (hlevels.1 happlies).length_eq
  rw [length_componentsFrom, length_levels] at hlength
  exact (Nat.succ.inj hlength).symm

open PathPattern in
/-- A negated class that lists the slash, before a star: they stay in the second directory level. -/
theorem rules_keep_to_their_levels_of_negated_class :
    let text := "-d/[!/]*"
    let rule : PathRule :=
      ⟨[.literal '/', .literal 'd', .literal '/', .charClass true [.one '/'], .anySequence], true⟩
    PathRule.compile text = .ok rule ∧ ['*', '*'] ∉ components (patternText text) ∧
    rule.appliesTo "d/ab" = true ∧
    (fromRoot "d/ab".toList).count '/' = slashes (patternText text) ∧
    rule.appliesTo "d/a/b" = false ∧
    ∃ pieces, Branch rule.pattern (fromRoot "d/ab".toList) pieces [] ∧
      List.Forall₂ (fun token piece =>
        token ≠ .literal '/' → token ≠ .anyComponents → '/' ∉ piece) rule.pattern pieces := by
  intro text rule
  have hrule : PathRule.compile text = .ok rule := ok_of_toOption (by decide +kernel)
  have hstars : ['*', '*'] ∉ components (patternText text) := by decide
  have happlies : rule.appliesTo "d/ab" = true := by decide
  obtain ⟨hwithin, hmatch, hbranches⟩ := rules_keep_to_their_levels hrule "d/ab"
  obtain ⟨pieces, hpieces⟩ := hmatch.1 happlies
  have hbelow : rule.appliesTo "d/a/b" = false := by
    obtain ⟨hwithin, -⟩ := rules_keep_to_their_levels hrule "d/a/b"
    have hcount := (hwithin hstars).2
    rw [Bool.eq_false_iff]
    exact fun h => absurd (hcount h) (by decide)
  exact ⟨hrule, hstars, happlies, (hwithin hstars).2 happlies, hbelow, pieces, hpieces,
    (hbranches _ pieces [] (List.prefix_refl _) hpieces).2⟩

end RepoAccess
