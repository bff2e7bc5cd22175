/-
The text of a JSON value is read back.

* `Json.Readable` — a value without a part that denotes none;
* `Json.Ends` — a text in which a value ends: nothing, a comma or a closing bracket;
* `readText_flatMap`, `readNumber_integer`, `readsBack` — strings, numbers and all values, in front of
  such a text;
* `parse_render` — reading a readable value's text gives the value.

The fuel of the reader bounds the nesting. Every level of nesting and every item has a character of
its own in the text, so as much fuel as there are characters is enough.
-/
import RepoAccess.Proofs.Codec.Digits

namespace RepoAccess

namespace Json

open Text (NoDigit digitsValue)

variable {rest : List Char}

/-- What is given back one by one is given back all together. -/
theorem mapM_map_eq_some {α β : Type} {f : α → β} {g : β → Option α} (xs : List α)
    (h : ∀ a ∈ xs, g (f a) = some a) : (xs.map f).mapM g = some xs := by
  induction xs with
  | nil => rfl
  | cons a xs ih =>
    rw [List.map_cons, List.mapM_cons, h a List.mem_cons_self,
      ih fun b hb => h b (List.mem_cons_of_mem a hb)]
    rfl

/-! ### Strings -/

/-- An escaped character is read as itself, whatever follows it. -/
theorem readText_escaped (c : Char) (rest : List Char) :
    readText (escaped c ++ rest) =
      (readText rest).map fun read => (read.1.map (c :: ·), read.2) := by
  unfold escaped
  split
  case h_8 hquote hslash _ _ _ _ _ =>
    split
    · next hcontrol =>
      -- A control character is no half of a surrogate pair.
      have hhigh : isHighSurrogate c.toNat = false := by simp [isHighSurrogate]; omega
      have hlow : isLowSurrogate c.toNat = false := by simp [isLowSurrogate]; omega
      rw [controlEscape_eq (by omega)]
      cases h : readText rest <;>
        simp [readText, hexQuad_of_lt (n := c.toNat) (by omega), hhigh, hlow, h]
    · next hplain =>
      have hslash : c ≠ '\\' := hslash
      cases h : readText rest <;> simp [readText, hplain, hslash, h]
  all_goals
    cases h : readText rest <;> simp [readText, shortEscape?, h]

/-- A string's text is read as the string, up to the closing quote. -/
theorem readText_flatMap (cs rest : List Char) :
    readText (cs.flatMap escaped ++ '"' :: rest) = some (some cs, rest) := by
  induction cs with
  | nil => rw [List.flatMap_nil, List.nil_append, readText]
  | cons c cs ih =>
    rw [List.flatMap_cons, List.append_assoc, readText_escaped, ih]
    rfl

/-! ### Where a value ends -/

/-- A value in front of this text ends there. -/
def Ends (rest : List Char) : Prop :=
  ∀ c ∈ rest.head?, c = ',' ∨ c = ']' ∨ c = '\x7d'

theorem ends_nil : Ends [] := nofun

theorem ends_comma : Ends (',' :: rest) := by simp [Ends]

theorem ends_bracket : Ends (']' :: rest) := by simp [Ends]

theorem ends_brace : Ends ('\x7d' :: rest) := by simp [Ends]

namespace Ends

theorem noDigit (h : Ends rest) : NoDigit rest := by
  intro c hc
  rcases h c hc with rfl | rfl | rfl <;> rfl

theorem skipFraction (h : Ends rest) : skipFraction rest = some (false, rest) := by
  cases rest with
  | nil => rfl
  | cons c rest =>
    rcases h c rfl with rfl | rfl | rfl <;> simp [Json.skipFraction]

theorem skipExponent (h : Ends rest) : skipExponent rest = some (false, rest) := by
  cases rest with
  | nil => rfl
  | cons c rest =>
    rcases h c rfl with rfl | rfl | rfl <;> simp [Json.skipExponent]

end Ends

/-! ### Numbers -/

/-- A whole number's digits are read as they stand: a zero is not followed by more of them. -/
theorem readWhole_toDigits (n : Nat) (h : NoDigit rest) :
    readWhole (Nat.toDigits 10 n ++ rest) = some (Nat.toDigits 10 n, rest) := by
  obtain ⟨htake, hdrop⟩ := Text.span_digits (Nat.toDigits 10 n)
    (fun _ => Text.isDigit_of_mem_toDigits) h
  by_cases hzero : n = 0
  · subst hzero
    rw [Nat.toDigits_zero, List.singleton_append, readWhole]
  · rw [readWhole, htake, hdrop]
    · simp [Nat.toDigits_ne_nil]
    · intro tail hcons
      refine Text.head_toDigits n hzero ?_
      obtain ⟨c, cs, hdigits, -⟩ := Text.toDigits_eq_cons n
      rw [hdigits, List.cons_append] at hcons
      rw [hdigits, (List.cons.inj hcons).1]
      rfl

theorem readUnsigned_toDigits (negative : Bool) {n : Nat} (hn : negative = true → n ≠ 0)
    (h : Ends rest) :
    readUnsigned negative (Nat.toDigits 10 n ++ rest) =
      some (.integer (if negative then -(n : Int) else n), rest) := by
  simp only [readUnsigned, readWhole_toDigits n h.noDigit, h.skipFraction, h.skipExponent,
    Text.digitsValue_toDigits, Option.bind_eq_bind, Option.bind_some, Bool.false_or]
  cases negative
  · simp
  · simp [hn rfl]

theorem toList_toString_ofNat (n : Nat) : (toString (Int.ofNat n)).toList = Nat.toDigits 10 n := by
  show (Nat.repr n).toList = _
  rw [Nat.repr_eq_ofList_toDigits, String.toList_ofList]

theorem toList_toString_negSucc (n : Nat) :
    (toString (Int.negSucc n)).toList = '-' :: Nat.toDigits 10 (n + 1) := by
  show ("-" ++ Nat.repr (n + 1)).toList = _
  rw [Nat.repr_eq_ofList_toDigits, String.toList_append, String.toList_ofList]
  simp

/-- A number starts with its sign or with a digit. -/
theorem head_toString (n : Int) :
    ∃ c cs, (toString n).toList = c :: cs ∧ (c = '-' ∨ c.isDigit = true) := by
  cases n with
  | ofNat n =>
    obtain ⟨c, cs, hcons, hdigit⟩ := Text.toDigits_eq_cons n
    exact ⟨c, cs, by rw [toList_toString_ofNat, hcons], .inr hdigit⟩
  | negSucc n => exact ⟨'-', _, toList_toString_negSucc n, .inl rfl⟩

/-- The text of an integer is read as the integer. -/
theorem readNumber_integer (n : Int) (h : Ends rest) :
    readNumber ((toString n).toList ++ rest) = some (.integer n, rest) := by
  cases n with
  | ofNat n =>
    rw [toList_toString_ofNat, readNumber, readUnsigned_toDigits false nofun h]
    · rfl
    · intro tail hcons
      obtain ⟨c, cs, hdigits, hdigit⟩ := Text.toDigits_eq_cons n
      rw [hdigits, List.cons_append] at hcons
      rw [(List.cons.inj hcons).1] at hdigit
      exact absurd hdigit (by decide)
  | negSucc n =>
    rw [toList_toString_negSucc, List.cons_append, readNumber,
      readUnsigned_toDigits true (by simp) h]
    rfl

/-! ### Values -/

/-- No part of the value denotes none. -/
inductive Readable : Json → Prop where
  | null : Readable .null
  | bool (b : Bool) : Readable (.bool b)
  | integer (n : Int) : Readable (.integer n)
  | string (s : String) : Readable (.string s)
  | array {items : List Json} (h : ∀ v ∈ items, Readable v) : Readable (.array items)
  | object {members : List (String × Json)} (h : ∀ m ∈ members, Readable m.2) :
      Readable (.object members)

/-- Enough fuel reads the value's text in front of any text in which it ends. -/
def ReadsBack (v : Json) : Prop :=
  ∀ fuel rest, v.renderChars.length ≤ fuel → Ends rest →
    readValue fuel (v.renderChars ++ rest) = some (v, rest)

theorem skipSpace_cons {c : Char} (h : isSpace c = false) : skipSpace (c :: rest) = c :: rest :=
  List.dropWhile_cons_of_neg (by rw [h]; nofun)

theorem isSpace_of_number {c : Char} (h : c = '-' ∨ c.isDigit = true) : isSpace c = false := by
  cases hspace : isSpace c with
  | false => rfl
  | true =>
    simp only [isSpace, Bool.or_eq_true, beq_iff_eq] at hspace
    rcases hspace with ((rfl | rfl) | rfl) | rfl <;> revert h <;> decide

theorem readValue_number {c : Char} {fuel : Nat} (h : c = '-' ∨ c.isDigit = true) :
    readValue (fuel + 1) (c :: rest) = readNumber (c :: rest) := by
  rw [readValue, skipSpace_cons (isSpace_of_number h)]
  split <;> simp_all

/-- A value's text starts with no blank and with no closing bracket. -/
theorem renderChars_eq_cons (v : Json) :
    ∃ c cs, v.renderChars = c :: cs ∧ isSpace c = false ∧ c ≠ ']' := by
  cases v with
  | null => exact ⟨'n', _, rfl, rfl, by decide⟩
  | bool b => cases b <;> exact ⟨_, _, rfl, rfl, by decide⟩
  | integer n =>
    obtain ⟨c, cs, htext, hc⟩ := head_toString n
    refine ⟨c, cs, htext, isSpace_of_number hc, ?_⟩
    rintro rfl
    revert hc
    decide
  | string s => exact ⟨'"', _, rfl, rfl, by decide⟩
  | array items => exact ⟨'[', _, rfl, rfl, by decide⟩
  | object members => exact ⟨'\x7b', _, rfl, rfl, by decide⟩
  | unreadable => exact ⟨'n', _, rfl, rfl, by decide⟩

/-! ### Arrays -/

theorem renderItems_concat (v w : Json) (items : List Json) :
    renderItems (v :: w :: items) = v.renderChars ++ ',' :: renderItems (w :: items) := by
  rw [renderItems]
  exact nofun

theorem length_renderItems_pos (items : List Json) : 0 < (renderItems items).length := by
  match items with
  | [] => simp [renderItems]
  | [v] => simp [renderItems]
  | v :: w :: items => simp [renderItems_concat, ← Nat.add_assoc]

/-- The text of an array's items starts like that of the first one. -/
theorem skipSpace_renderItems (v : Json) (items : List Json) (rest : List Char) :
    ∃ c cs, renderItems (v :: items) ++ rest = c :: cs ∧ skipSpace (c :: cs) = c :: cs ∧
      c ≠ ']' := by
  obtain ⟨c, cs, hcons, hspace, hc⟩ := renderChars_eq_cons v
  cases items with
  | nil =>
    refine ⟨c, cs ++ ']' :: rest, ?_, skipSpace_cons hspace, hc⟩
    rw [renderItems, hcons, List.cons_append, List.cons_append, List.append_assoc,
      List.singleton_append]
  | cons w items =>
    refine ⟨c, cs ++ ',' :: (renderItems (w :: items) ++ rest), ?_, skipSpace_cons hspace, hc⟩
    rw [renderItems_concat, hcons, List.cons_append, List.cons_append, List.append_assoc,
      List.cons_append]

/-- Items that are read back are read back one after the other. -/
theorem readItems_renderItems (v : Json) (items : List Json) (h : ∀ w ∈ v :: items, ReadsBack w)
    {fuel : Nat} (hfuel : (renderItems (v :: items)).length ≤ fuel) (rest : List Char) :
    readItems fuel (renderItems (v :: items) ++ rest) = some (v :: items, rest) := by
  have hv : ReadsBack v := h v List.mem_cons_self
  have hpos := length_renderItems_pos (v :: items)
  obtain ⟨fuel, rfl⟩ := Nat.exists_eq_add_one_of_ne_zero (by omega : fuel ≠ 0)
  induction items generalizing v fuel with
  | nil =>
    rw [renderItems, List.length_append, List.length_singleton] at hfuel
    rw [renderItems, List.append_assoc, List.singleton_append, readItems,
      hv fuel _ (by omega) ends_bracket]
    simp only [Option.bind_eq_bind, Option.bind_some, skipSpace_cons (c := ']') rfl]
    rfl
  | cons w items ih =>
    have hw : ∀ u ∈ w :: items, ReadsBack u := fun u hu => h u (List.mem_cons_of_mem v hu)
    have hpos' := length_renderItems_pos (w :: items)
    rw [renderItems_concat, List.length_append, List.length_cons] at hfuel
    obtain ⟨fuel, rfl⟩ := Nat.exists_eq_add_one_of_ne_zero (by omega : fuel ≠ 0)
    rw [renderItems_concat, List.append_assoc, List.cons_append, readItems,
      hv (fuel + 1) _ (by omega) ends_comma]
    simp only [Option.bind_eq_bind, Option.bind_some, skipSpace_cons (c := ',') rfl]
    rw [ih w hw (hw w List.mem_cons_self) hpos' fuel (by omega)]
    rfl

theorem readsBack_array {items : List Json} (h : ∀ v ∈ items, ReadsBack v) :
    ReadsBack (.array items) := by
  intro fuel rest hfuel _
  rw [renderChars, List.length_cons] at hfuel
  obtain ⟨fuel, rfl⟩ := Nat.exists_eq_add_one_of_ne_zero (by omega : fuel ≠ 0)
  rw [renderChars, List.cons_append, readValue, skipSpace_cons rfl]
  cases items with
  | nil => simp only [renderItems, List.singleton_append, skipSpace_cons (c := ']') rfl]
  | cons v items =>
    have hitems := readItems_renderItems v items h (by omega : _ ≤ fuel) rest
    obtain ⟨c, cs, hcons, hskip, hc⟩ := skipSpace_renderItems v items rest
    rw [hcons] at hitems ⊢
    simp [hskip, hc, hitems]

/-! ### Objects -/

theorem renderMembers_concat (name : String) (v : Json) (m : String × Json)
    (members : List (String × Json)) :
    renderMembers ((name, v) :: m :: members) =
      renderText name ++ ':' :: (v.renderChars ++ ',' :: renderMembers (m :: members)) := by
  rw [renderMembers]
  exact nofun

/-- The text of an object's members starts with the quote of the first name. -/
theorem renderMembers_eq_cons (m : String × Json) (members : List (String × Json)) :
    ∃ cs, renderMembers (m :: members) = '"' :: cs := by
  cases members with
  | nil => exact ⟨_, by rw [renderMembers, renderText, List.cons_append]⟩
  | cons m' members => exact ⟨_, by rw [renderMembers_concat, renderText, List.cons_append]⟩

theorem length_renderMembers_pos (m : String × Json) (members : List (String × Json)) :
    0 < (renderMembers (m :: members)).length := by
  obtain ⟨cs, hcons⟩ := renderMembers_eq_cons m members
  rw [hcons]
  exact Nat.succ_pos _

/-- A member as it is read, its name in characters. -/
def asRead (m : String × Json) : Option (List Char) × Json := (some m.1.toList, m.2)

/-- The last member is read up to the closing brace. -/
theorem readMembers_last {v : Json} (hv : ReadsBack v) (name : String) {fuel : Nat}
    (hfuel : v.renderChars.length ≤ fuel) :
    readMembers (fuel + 1) (renderText name ++ ':' :: (v.renderChars ++ '\x7d' :: rest)) =
      some ([asRead (name, v)], rest) := by
  rw [renderText, List.cons_append, List.append_assoc, List.singleton_append, readMembers,
    skipSpace_cons rfl]
  simp only [readText_flatMap, Option.bind_eq_bind, Option.bind_some, skipSpace_cons (c := ':') rfl,
    hv fuel _ hfuel ends_brace, skipSpace_cons (c := '\x7d') rfl]
  rfl

/-- Any other member is read up to the comma. -/
theorem readMembers_more {v : Json} (hv : ReadsBack v) (name : String) {fuel : Nat}
    (hfuel : v.renderChars.length ≤ fuel) {more : List (Option (List Char) × Json)}
    {rest behind : List Char} (hmore : readMembers fuel behind = some (more, rest)) :
    readMembers (fuel + 1) (renderText name ++ ':' :: (v.renderChars ++ ',' :: behind)) =
      some (asRead (name, v) :: more, rest) := by
  rw [renderText, List.cons_append, List.append_assoc, List.singleton_append, readMembers,
    skipSpace_cons rfl]
  simp only [readText_flatMap, Option.bind_eq_bind, Option.bind_some, skipSpace_cons (c := ':') rfl,
    hv fuel _ hfuel ends_comma, skipSpace_cons (c := ',') rfl, hmore]
  rfl

/-- Members whose values are read back are read back one after the other. -/
theorem readMembers_renderMembers (m : String × Json) (members : List (String × Json))
    (h : ∀ m' ∈ m :: members, ReadsBack m'.2) {fuel : Nat}
    (hfuel : (renderMembers (m :: members)).length ≤ fuel) (rest : List Char) :
    readMembers fuel (renderMembers (m :: members) ++ rest) =
      some ((m :: members).map asRead, rest) := by
  have hm : ReadsBack m.2 := h m List.mem_cons_self
  have hpos := length_renderMembers_pos m members
  obtain ⟨fuel, rfl⟩ := Nat.exists_eq_add_one_of_ne_zero (by omega : fuel ≠ 0)
  induction members generalizing m fuel with
  | nil =>
    obtain ⟨name, v⟩ := m
    replace hm : ReadsBack v := hm
    simp only [renderMembers, List.length_append, List.length_cons] at hfuel
    simp only [renderMembers, List.append_assoc, List.cons_append, List.nil_append]
    exact readMembers_last hm name (by omega)
  | cons m' members ih =>
    obtain ⟨name, v⟩ := m
    replace hm : ReadsBack v := hm
    have hpos' := length_renderMembers_pos m' members
    simp only [renderMembers_concat, List.length_append, List.length_cons] at hfuel
    obtain ⟨fuel, rfl⟩ := Nat.exists_eq_add_one_of_ne_zero (by omega : fuel ≠ 0)
    have hmore := ih m' (fun m hm => h m (List.mem_cons_of_mem _ hm))
      (h m' (List.mem_cons_of_mem _ List.mem_cons_self)) hpos' fuel (by omega)
    simp only [renderMembers_concat, List.append_assoc, List.cons_append]
    exact readMembers_more hm name (by omega) hmore

theorem ofMembers_asRead (members : List (String × Json)) :
    ofMembers (members.map asRead) = .object members := by
  rw [ofMembers, mapM_map_eq_some members fun m _ => ?_]
  simp [asRead, String.ofList_toList]

theorem readsBack_object {members : List (String × Json)} (h : ∀ m ∈ members, ReadsBack m.2) :
    ReadsBack (.object members) := by
  intro fuel rest hfuel _
  rw [renderChars, List.length_cons] at hfuel
  obtain ⟨fuel, rfl⟩ := Nat.exists_eq_add_one_of_ne_zero (by omega : fuel ≠ 0)
  rw [renderChars, List.cons_append, readValue, skipSpace_cons rfl]
  cases members with
  | nil => simp only [renderMembers, List.singleton_append, skipSpace_cons (c := '\x7d') rfl]
  | cons m members =>
    have hmembers := readMembers_renderMembers m members h (by omega : _ ≤ fuel) rest
    obtain ⟨cs, hcons⟩ := renderMembers_eq_cons m members
    rw [hcons, List.cons_append] at hmembers ⊢
    simp [skipSpace_cons (c := '"') rfl, hmembers, ← ofMembers_asRead (m :: members)]

/-! ### All values -/

theorem ReadsBack.of_leaf {v : Json} (h : ∀ fuel rest, Ends rest →
    readValue (fuel + 1) (v.renderChars ++ rest) = some (v, rest)) : ReadsBack v := by
  intro fuel rest hfuel hends
  obtain ⟨c, cs, hcons, -⟩ := renderChars_eq_cons v
  rw [hcons, List.length_cons] at hfuel
  obtain ⟨fuel, rfl⟩ := Nat.exists_eq_add_one_of_ne_zero (by omega : fuel ≠ 0)
  exact h fuel rest hends

/-- Enough fuel reads the text of a readable value in front of any text in which it ends. -/
theorem readsBack {v : Json} (h : v.Readable) : ReadsBack v := by
  induction h with
  | null =>
    refine .of_leaf fun fuel rest _ => ?_
    rw [renderChars, readValue]
    rfl
  | bool b =>
    refine .of_leaf fun fuel rest _ => ?_
    cases b <;> (rw [renderChars, readValue]; rfl)
  | integer n =>
    refine .of_leaf fun fuel rest hends => ?_
    obtain ⟨c, cs, htext, hc⟩ := head_toString n
    have hread := readNumber_integer n hends
    rw [htext, List.cons_append] at hread
    rw [renderChars, htext, List.cons_append, readValue_number hc, hread]
  | string s =>
    refine .of_leaf fun fuel rest _ => ?_
    rw [renderChars, renderText, List.cons_append, List.append_assoc, List.singleton_append,
      readValue, skipSpace_cons rfl]
    simp [readText_flatMap, ofText, String.ofList_toList]
  | array _ ih => exact readsBack_array ih
  | object _ ih => exact readsBack_object ih

/-- Reading the text of a readable value gives the value. -/
theorem parse_render {v : Json} (h : v.Readable) : parse v.render = some v := by
  have hread := readsBack h (v.renderChars.length + 1) [] (Nat.le_succ _) ends_nil
  rw [List.append_nil] at hread
  rw [parse, render, String.toList_ofList, hread]
  rfl

end Json

end RepoAccess
