/-
The text of a moment is read back.

* `Timestamp.Proper` — a moment within the years that are kept, whose fraction of a second goes
  beyond a whole one only in the last second of a minute;
* `readYear_renderYear`, `readField_padded`, `readFraction_renderFraction` — the parts of the text;
* `readClock` — what is read behind the date;
* `Timestamp.parse_render` — reading a proper moment's text gives the moment;
* `Timestamp.proper_of_parse` — whatever is read is proper.

The text has two digits for every field but the year and the fraction, so each field ends by its
width, and those two by what follows them.
-/
import RepoAccess.Proofs.Codec.Calendar
import RepoAccess.Proofs.Codec.Digits

namespace RepoAccess

namespace Text

variable {n width : Nat} {digits rest : List Char}

theorem isBlank_of_isDigit {c : Char} (h : c.isDigit = true) : isBlank c = false := by
  rw [Char.isDigit_iff_toNat] at h
  obtain ⟨hge, hle⟩ := h
  replace hge : 48 ≤ c.toNat := hge
  replace hle : c.toNat ≤ 57 := hle
  simp [isBlank]
  omega

theorem trimLeft_cons {c : Char} (h : isBlank c = false) : trimLeft (c :: rest) = c :: rest :=
  List.dropWhile_cons_of_neg (by rw [h]; nofun)

/-- Digits have no blanks before them. -/
theorem trimLeft_padded : trimLeft (padded width n ++ rest) = padded width n ++ rest := by
  obtain ⟨c, cs, hcons, hdigit⟩ := padded_eq_cons width n
  rw [hcons, List.cons_append]
  exact trimLeft_cons (isBlank_of_isDigit hdigit)

theorem padded_append_ne_cons {c : Char} {tail : List Char} (h : c.isDigit = false) :
    padded width n ++ rest ≠ c :: tail := by
  obtain ⟨d, cs, hcons, hdigit⟩ := padded_eq_cons width n
  rw [hcons, List.cons_append]
  intro heq
  rw [(List.cons.inj heq).1, h] at hdigit
  cases hdigit

theorem NoDigit.take (h : NoDigit rest) (n : Nat) : NoDigit (rest.take n) := by
  intro c hc
  rw [List.head?_take] at hc
  split at hc
  · cases hc
  · exact h c hc

end Text

namespace Timestamp

open Text (NoDigit digitsValue padded trimLeft_cons trimLeft_padded)

variable {n width : Nat} {digits rest : List Char}

/-! ### Fields -/

/-- Digits are read up to the width or to something else. -/
theorem readDigits_append (hdigits : ∀ c ∈ digits, c.isDigit = true) (hne : digits ≠ [])
    (hwidth : digits.length ≤ width) (hrest : digits.length < width → NoDigit rest) :
    readDigits width (digits ++ rest) = some (digitsValue digits, rest) := by
  have hend : NoDigit (rest.take (width - digits.length)) := by
    rcases Nat.lt_or_eq_of_le hwidth with hlt | heq
    · exact (hrest hlt).take _
    · rw [heq, Nat.sub_self, List.take_zero]
      exact Text.noDigit_nil
  have htake : ((digits ++ rest).take width).takeWhile Char.isDigit = digits := by
    rw [List.take_append, List.take_of_length_le hwidth]
    exact (Text.span_digits digits hdigits hend).1
  simp only [readDigits, htake, List.isEmpty_eq_false_iff.2 hne, Bool.false_eq_true, if_false,
    List.drop_left]

theorem readDigits_padded (hwidth : 0 < width) (h : n < Nat.pow 10 width) :
    readDigits width (padded width n ++ rest) = some (n, rest) := by
  have hlength := Text.length_padded hwidth h
  rw [readDigits_append (fun _ => Text.isDigit_of_mem_padded) (Text.padded_ne_nil _ _)
    (Nat.le_of_eq hlength) (fun hlt => absurd hlength (Nat.ne_of_lt hlt)), Text.digitsValue_padded]

theorem readField_padded {lo hi : Nat} (hlo : lo ≤ n) (hhi : n ≤ hi) (h : n < 100) :
    readField lo hi (padded 2 n ++ rest) = some (n, rest) := by
  rw [readField, trimLeft_padded, readDigits_padded (by decide) h]
  simp [hlo, hhi]

theorem readMark_cons (mark : Char) (h : Text.isBlank mark = false) :
    readMark mark (mark :: rest) = some rest := by
  simp [readMark, trimLeft_cons h]

/-! ### Years -/

/-- A year is read up to the mark behind it. -/
theorem readYear_renderYear (year : Int) (h : NoDigit rest) :
    readYear (renderYear year ++ rest) = some (year, rest) := by
  -- Behind a sign, the number may have any number of digits.
  have hsigned : ∀ k : Nat, readDigits (padded 4 k ++ rest).length (padded 4 k ++ rest) =
      some (k, rest) := by
    intro k
    rw [readDigits_append (fun _ => Text.isDigit_of_mem_padded) (Text.padded_ne_nil _ _) (by simp)
      (fun _ => h), Text.digitsValue_padded]
  unfold renderYear
  split
  · next hfour =>
    rw [readYear, trimLeft_padded]
    split
    · next hminus => exact absurd hminus (Text.padded_append_ne_cons rfl)
    · next hplus => exact absurd hplus (Text.padded_append_ne_cons rfl)
    · have hyear : (year.toNat : Int) = year := by omega
      rw [readDigits_padded (by decide) (show year.toNat < 10000 by omega)]
      show some ((year.toNat : Int), rest) = some (year, rest)
      rw [hyear]
  · split
    · have hyear : -(year.natAbs : Int) = year := by omega
      rw [List.cons_append, readYear, trimLeft_cons rfl]
      simp only [hsigned, Option.map_some, hyear]
    · have hyear : (year.natAbs : Int) = year := by omega
      rw [List.cons_append, readYear, trimLeft_cons rfl]
      simp only [hsigned, Option.map_some, hyear]

/-! ### Fractions -/

/-- A fraction is scaled by the digits that it was not given. -/
theorem readFraction_dot (hwidth : 0 < width) (hle : width ≤ 9) (h : n < Nat.pow 10 width)
    (hrest : NoDigit rest) :
    readFraction ('.' :: (padded width n ++ rest)) = some (n * Nat.pow 10 (9 - width), rest) := by
  have hlength := Text.length_padded hwidth h
  have hread : readDigits 9 (padded width n ++ rest) = some (n, rest) := by
    rw [readDigits_append (fun _ => Text.isDigit_of_mem_padded) (Text.padded_ne_nil _ _)
      (by omega) (fun _ => hrest), Text.digitsValue_padded]
  have hdrop : rest.dropWhile Char.isDigit = rest := (Text.span_digits [] nofun hrest).2
  simp [readFraction, hread, hdrop, hlength]

/-- A fraction of less than a second is read up to the mark behind it. -/
theorem readFraction_renderFraction {nanos : Nat} (h : nanos < 1000000000) :
    readFraction (renderFraction nanos ++ 'Z' :: rest) = some (nanos, 'Z' :: rest) := by
  have hmark : NoDigit ('Z' :: rest) := Text.noDigit_cons.2 rfl
  unfold renderFraction
  split
  · next hzero =>
    rw [beq_iff_eq] at hzero
    rw [hzero, List.nil_append, readFraction]
    exact nofun
  · split
    · next hmillis =>
      rw [beq_iff_eq] at hmillis
      have hwhole : nanos / 1000000 * Nat.pow 10 (9 - 3) = nanos := by
        show nanos / 1000000 * 1000000 = nanos
        omega
      rw [List.cons_append, readFraction_dot (by decide) (by decide)
        (show nanos / 1000000 < 1000 by omega) hmark, hwhole]
    · split
      · next hmicros =>
        rw [beq_iff_eq] at hmicros
        have hwhole : nanos / 1000 * Nat.pow 10 (9 - 6) = nanos := by
          show nanos / 1000 * 1000 = nanos
          omega
        rw [List.cons_append, readFraction_dot (by decide) (by decide)
          (show nanos / 1000 < 1000000 by omega) hmark, hwhole]
      · rw [List.cons_append, readFraction_dot (by decide) (by decide) h hmark, Nat.sub_self]
        exact congrArg (fun n => some (n, _)) (Nat.mul_one nanos)

/-! ### Moments -/

/-- A moment within the years that are kept. Only in the last second of a minute may its fraction go
beyond a whole second: it then lies in the leap second behind. -/
structure Proper (t : Timestamp) : Prop where
  year_ge : -262143 ≤ (CivilDate.ofDays (t.seconds / 86400)).year
  year_le : (CivilDate.ofDays (t.seconds / 86400)).year ≤ 262142
  nanos_lt : t.nanos < 1000000000 ∨ t.seconds % 60 = 59 ∧ t.nanos < 2000000000

/-- Every moment of the years of four digits is proper, but for leap seconds. -/
theorem proper_of_year {t : Timestamp} (h₀ : 0 ≤ (CivilDate.ofDays (t.seconds / 86400)).year)
    (h : (CivilDate.ofDays (t.seconds / 86400)).year ≤ 9999) (hnanos : t.nanos < 1000000000) :
    t.Proper :=
  ⟨by omega, by omega, .inl hnanos⟩

/-- The second and the fraction that are written make up the time of day: a sixty-first second stands
for a fraction of more than one. -/
theorem second_spec (time nanos : Nat)
    (h : nanos < 1000000000 ∨ time % 60 = 59 ∧ nanos < 2000000000) :
    ∃ second fraction,
      (time % 60 + if decide (1000000000 ≤ nanos) then 1 else 0) = second ∧
      (if decide (1000000000 ≤ nanos) then nanos - 1000000000 else nanos) = fraction ∧
      second ≤ 60 ∧ fraction < 1000000000 ∧ min second 59 = time % 60 ∧
      (fraction + if second = 60 then 1000000000 else 0) = nanos := by
  by_cases hleap : 1000000000 ≤ nanos
  · have hlast : time % 60 = 59 := by omega
    simp [hleap, hlast]
    omega
  · simp [hleap]
    omega

/-- What `parse` reads behind the mark between date and time. -/
def readClock (date : CivilDate) (cs : List Char) : Option Timestamp := do
  let (hour, rest) ← readField 0 23 cs
  let rest ← readMark ':' rest
  let (minute, rest) ← readField 0 59 rest
  let rest ← readMark ':' rest
  let (second, rest) ← readField 0 60 rest
  let (fraction, rest) ← readFraction rest
  let (offset, rest) ← readOffset (Text.trimLeft rest)
  if !date.isValid || !Text.isAllBlank rest then none
  let here : Int := date.toDays * 86400 + hour * 3600 + minute * 60 + min second 59
  let universal := here - offset
  if !(CivilDate.ofDays (universal / 86400)).isValid then none
  return ⟨universal, fraction + if second = 60 then 1000000000 else 0⟩

theorem parse_eq (text : String) :
    parse text = (do
      let (year, rest) ← readYear text.toList
      let rest ← readMark '-' rest
      let (month, rest) ← readField 1 12 rest
      let rest ← readMark '-' rest
      let (day, rest) ← readField 1 31 rest
      match rest with
      | 'T' :: rest | 't' :: rest | ' ' :: rest => readClock ⟨year, month, day⟩ rest
      | _ => none) :=
  rfl

/-- Behind a date, the time of day is read up to the end and gives the moment. -/
theorem readClock_render {seconds : Int} {nanos time : Nat} {date : CivilDate}
    (hnanos : nanos < 1000000000 ∨ seconds % 60 = 59 ∧ nanos < 2000000000)
    (htime : (seconds % 86400).toNat = time) (hdate : CivilDate.ofDays (seconds / 86400) = date)
    (hvalid : date.isValid = true) :
    readClock date (padded 2 (time / 3600) ++ ':' :: (padded 2 (time / 60 % 60) ++ ':' ::
      (padded 2 (time % 60 + if decide (1000000000 ≤ nanos) then 1 else 0) ++
        (renderFraction (if decide (1000000000 ≤ nanos) then nanos - 1000000000 else nanos) ++
          ['Z'])))) = some ⟨seconds, nanos⟩ := by
  obtain ⟨second, fraction, hsecond, hfraction, hsixty, hlt, hmin, hwhole⟩ :=
    second_spec time nanos (by omega)
  have hdays : date.toDays = seconds / 86400 := hdate ▸ (CivilDate.ofDays_spec _).2
  have huniversal : date.toDays * 86400 + (time / 3600 : Nat) * 3600 +
      (time / 60 % 60 : Nat) * 60 + (time % 60 : Nat) - 0 = seconds := by
    omega
  have hoffset : readOffset ['Z'] = some (0, []) := rfl
  rw [hsecond, hfraction]
  simp only [readClock, Option.bind_eq_bind, Option.bind_some, readMark_cons ':' rfl,
    readField_padded (Nat.zero_le _) (by omega : time / 3600 ≤ 23) (by omega),
    readField_padded (Nat.zero_le _) (by omega : time / 60 % 60 ≤ 59) (by omega),
    readField_padded (Nat.zero_le _) hsixty (by omega), readFraction_renderFraction hlt,
    trimLeft_cons (c := 'Z') rfl, hoffset, hmin, huniversal, hdate, hvalid, hwhole]
  rfl

/-- Reading the text of a proper moment gives the moment. -/
theorem parse_render {t : Timestamp} (h : t.Proper) : parse t.render = some t := by
  obtain ⟨seconds, nanos⟩ := t
  obtain ⟨hge, hle, hnanos⟩ := h
  dsimp only at hge hle hnanos
  have hvalid := CivilDate.isValid_ofDays hge hle
  obtain ⟨hdate, -⟩ := CivilDate.ofDays_spec (seconds / 86400)
  have hmonth := hdate.month_le
  have hday := Nat.le_trans hdate.day_le (CivilDate.daysInMonth_le _ _)
  rw [parse_eq, render, String.toList_ofList]
  dsimp only
  generalize hcivil : CivilDate.ofDays (seconds / 86400) = date at *
  have hmark : ∀ cs, NoDigit ('-' :: cs) := fun cs => Text.noDigit_cons.2 rfl
  simp only [List.append_assoc, List.cons_append, readYear_renderYear date.year (hmark _),
    Option.bind_eq_bind, Option.bind_some, readMark_cons '-' rfl,
    readField_padded hdate.month_pos hmonth (by omega),
    readField_padded hdate.day_pos hday (by omega)]
  exact readClock_render hnanos rfl hcivil hvalid

/-! ### What is read -/

theorem readDigits_lt {cs : List Char} (h : readDigits width cs = some (n, rest)) :
    ∃ k, 0 < k ∧ k ≤ width ∧ k ≤ cs.length ∧ n < Nat.pow 10 k ∧ rest = cs.drop k := by
  unfold readDigits at h
  generalize hdigits : (cs.take width).takeWhile Char.isDigit = digits at h
  have hsub : digits.length ≤ (cs.take width).length :=
    hdigits ▸ (List.takeWhile_sublist _).length_le
  rw [List.length_take] at hsub
  dsimp only at h
  split at h
  · cases h
  · next hne =>
    cases h
    rw [List.isEmpty_iff] at hne
    refine ⟨digits.length, List.length_pos_iff.2 hne, by omega, by omega, ?_, rfl⟩
    refine Text.digitsValue_lt fun c hc => ?_
    rw [← hdigits] at hc
    exact List.all_eq_true.1 List.all_takeWhile c hc

theorem readField_le {lo hi : Nat} {cs : List Char} (h : readField lo hi cs = some (n, rest)) :
    n ≤ hi := by
  simp only [readField, Option.bind_eq_bind, Option.bind_eq_some_iff, Prod.exists] at h
  obtain ⟨m, _, -, h⟩ := h
  split at h
  · next hbounds =>
    cases h
    exact hbounds.2
  · cases h

/-- A fraction that is read is less than a second. -/
theorem readFraction_lt {cs : List Char} (h : readFraction cs = some (n, rest)) :
    n < 1000000000 := by
  unfold readFraction at h
  split at h
  · next tail =>
    simp only [Option.bind_eq_bind, Option.bind_eq_some_iff, Prod.exists] at h
    obtain ⟨m, behind, hread, h⟩ := h
    obtain ⟨k, hpos, hnine, hlength, hlt, rfl⟩ := readDigits_lt hread
    cases h
    have hwidth : tail.length - (tail.drop k).length = k := by
      rw [List.length_drop]
      omega
    rw [hwidth]
    calc m * Nat.pow 10 (9 - k) < Nat.pow 10 k * Nat.pow 10 (9 - k) :=
          Nat.mul_lt_mul_of_pos_right hlt (Nat.pow_pos (by decide))
      _ = Nat.pow 10 (k + (9 - k)) := (Nat.pow_add 10 k (9 - k)).symm
      _ = 1000000000 := by rw [Nat.add_sub_cancel' hnine]
  · cases h
    decide

theorem readOffsetDigits_mod {cs : List Char} (h : readOffsetDigits cs = some (n, rest)) :
    n % 60 = 0 := by
  unfold readOffsetDigits at h
  repeat' split at h
  all_goals cases h
  omega

/-- An offset is made of whole minutes. -/
theorem readOffset_mod {cs : List Char} {offset : Int} (h : readOffset cs = some (offset, rest)) :
    offset % 60 = 0 := by
  unfold readOffset at h
  split at h
  · cases h
    rfl
  · split at h
    · cases h
      rfl
    · cases h
      rfl
    · simp only [Option.bind_eq_bind, Option.bind_eq_some_iff, Prod.exists] at h
      obtain ⟨n, _, hread, h⟩ := h
      have hminutes := readOffsetDigits_mod hread
      repeat' split at h
      all_goals cases h
      all_goals omega
    · cases h

theorem proper_of_readClock {date : CivilDate} {cs : List Char} {t : Timestamp}
    (h : readClock date cs = some t) : t.Proper := by
  simp only [readClock, Option.bind_eq_bind, Option.bind_eq_some_iff, Prod.exists] at h
  obtain ⟨hour, _, -, _, -, minute, _, -, _, -, second, _, hsecond, fraction, _, hfraction,
    offset, _, hoffset, h⟩ := h
  replace hsecond := readField_le hsecond
  replace hfraction := readFraction_lt hfraction
  replace hoffset := readOffset_mod hoffset
  split at h
  · cases h
  · split at h
    · cases h
    · next hvalid =>
      cases h
      simp only [Bool.not_eq_true', Bool.not_eq_false] at hvalid
      obtain ⟨hge, hle⟩ := CivilDate.year_of_isValid hvalid
      refine ⟨hge, hle, ?_⟩
      dsimp only
      split <;> omega

/-- Whatever is read is proper. -/
theorem proper_of_parse {text : String} {t : Timestamp} (h : parse text = some t) : t.Proper := by
  simp only [parse_eq, Option.bind_eq_bind, Option.bind_eq_some_iff, Prod.exists] at h
  obtain ⟨year, _, -, _, -, month, _, -, _, -, day, _, -, h⟩ := h
  split at h
  · exact proper_of_readClock h
  · exact proper_of_readClock h
  · exact proper_of_readClock h
  · cases h

end Timestamp

end RepoAccess
