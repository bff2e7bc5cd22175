/-
Bytes are text exactly if they are the bytes of a text.

* `Continues`, `follow?_eq_some_iff` — the bytes behind the first one of a character, and how many;
* `Spells`, `piece_of_spells`, `exists_of_piece` — the first piece of bytes is a character exactly
  if they start with bytes that spell it;
* `spells_iff` — a character is spelled by its own bytes, and by no others;
* `decode_eq_ok_iff` — bytes are decoded to a text exactly if they are the bytes of that text.

A character of several bytes spells its number in groups of six bits. The bounds of the second byte
say that no shorter form would do, that the number is no surrogate and that it is not too large.
-/
import RepoAccess.Text.Utf8

namespace RepoAccess.Text.Utf8

variable {lead lo hi : UInt8} {n : Nat} {bs rest tail : List UInt8} {c : Char}

/-! ### Behind the first byte -/

/-- The first byte is within bounds, and the others continue a character. -/
def Continues (lo hi : UInt8) : List UInt8 → Prop
  | [] => True
  | b :: tail => (lo ≤ b ∧ b ≤ hi) ∧ Continues 0x80 0xBF tail

theorem takeTail_append_of_continues (h : Continues lo hi tail) :
    takeTail lo hi tail.length (tail ++ rest) = (tail, rest) := by
  induction tail generalizing lo hi with
  | nil => rfl
  | cons b tail ih =>
    obtain ⟨hb, htail⟩ := h
    rw [List.length_cons, List.cons_append, takeTail, if_pos hb, ih htail]

theorem continues_of_length_takeTail (h : (takeTail lo hi n bs).1.length = n) :
    Continues lo hi (takeTail lo hi n bs).1 := by
  induction n generalizing lo hi bs with
  | zero => trivial
  | succ n ih =>
    cases bs with
    | nil => simp [takeTail] at h
    | cons b bs =>
      rw [takeTail] at h ⊢
      -- A byte out of bounds would have ended the tail too early.
      split at h
      · next hb =>
        rw [if_pos hb]
        exact ⟨hb, ih (Nat.succ.inj h)⟩
      · simp at h

/-! ### One character -/

/-- How a character goes on behind its first byte, in numbers: two bytes begin from 0xC2 on, three
from 0xE0 and four from 0xF0 to 0xF4. -/
theorem follow?_eq_some_iff :
    follow? lead = some (lo, hi, n) ↔
      (n = 1 ∧ 0xC2 ≤ lead.toNat ∧ lead.toNat < 0xE0 ∨
        n = 2 ∧ 0xE0 ≤ lead.toNat ∧ lead.toNat < 0xF0 ∨
        n = 3 ∧ 0xF0 ≤ lead.toNat ∧ lead.toNat < 0xF5) ∧
      (lo.toNat = 0xA0 ∧ lead.toNat = 0xE0 ∨ lo.toNat = 0x90 ∧ lead.toNat = 0xF0 ∨
        lo.toNat = 0x80 ∧ lead.toNat ≠ 0xE0 ∧ lead.toNat ≠ 0xF0) ∧
      (hi.toNat = 0x9F ∧ lead.toNat = 0xED ∨ hi.toNat = 0x8F ∧ lead.toNat = 0xF4 ∨
        hi.toNat = 0xBF ∧ lead.toNat ≠ 0xED ∧ lead.toNat ≠ 0xF4) := by
  simp only [follow?, UInt8.le_iff_toNat_le, ← UInt8.toNat_inj, UInt8.reduceToNat]
  repeat' split
  all_goals
    simp only [Option.some.injEq, Prod.mk.injEq, ← UInt8.toNat_inj, UInt8.reduceToNat, reduceCtorEq,
      false_iff]
    omega

theorem isSome_follow?_iff :
    (follow? lead).isSome = true ↔ 0xC2 ≤ lead.toNat ∧ lead.toNat < 0xF5 := by
  simp only [follow?, UInt8.le_iff_toNat_le, ← UInt8.toNat_inj, UInt8.reduceToNat]
  repeat' split
  all_goals
    simp only [Option.isSome_some, Option.isSome_none, Bool.false_eq_true, true_iff, false_iff]
    omega

/-- The bytes spell the character. -/
def Spells (lead : UInt8) (tail : List UInt8) (c : Char) : Prop :=
  lead < 0x80 ∧ tail = [] ∧ c = Char.ofNat lead.toNat ∨
    ∃ lo hi, follow? lead = some (lo, hi, tail.length) ∧ Continues lo hi tail ∧ c = charOf lead tail

theorem piece_of_spells (h : Spells lead tail c) : piece lead (tail ++ rest) = (.char c, rest) := by
  obtain ⟨hlead, rfl, rfl⟩ | ⟨lo, hi, hfollow, hcontinues, rfl⟩ := h
  · rw [piece, if_pos hlead, List.nil_append]
  · have hlead : ¬lead < 0x80 := by
      rw [UInt8.lt_iff_toNat_lt]
      have hbounds := (follow?_eq_some_iff.1 hfollow).1
      show ¬lead.toNat < 128
      omega
    rw [piece, if_neg hlead, hfollow]
    simp only [takeTail_append_of_continues hcontinues, if_true]

/-- Bytes start with the character that their first piece is. -/
theorem exists_of_piece (h : piece lead bs = (.char c, rest)) :
    ∃ tail, bs = tail ++ rest ∧ Spells lead tail c := by
  rw [piece] at h
  split at h
  · next hlead =>
    obtain ⟨hc, rfl⟩ := Prod.mk.inj h
    exact ⟨[], rfl, .inl ⟨hlead, rfl, (Piece.char.inj hc).symm⟩⟩
  · split at h
    · next lo hi n hfollow =>
      dsimp only at h
      split at h
      · next hlength =>
        obtain ⟨hc, rfl⟩ := Prod.mk.inj h
        refine ⟨_, (takeTail_append lo hi n bs).symm, .inr ⟨lo, hi, ?_, ?_, ?_⟩⟩
        · rw [hlength, hfollow]
        · exact continues_of_length_takeTail hlength
        · exact (Piece.char.inj hc).symm
      · cases (Prod.mk.inj h).1
    · cases (Prod.mk.inj h).1

theorem le_of_mem_of_continues {b : UInt8} (h : Continues lo hi tail) (hlo : 0x80 ≤ lo)
    (hb : b ∈ tail) : 0x80 ≤ b := by
  induction tail generalizing lo hi with
  | nil => cases hb
  | cons b' tail ih =>
    obtain ⟨⟨hleast, -⟩, htail⟩ := h
    rcases List.mem_cons.1 hb with rfl | hmem
    · exact UInt8.le_trans hlo hleast
    · exact ih htail (UInt8.le_refl _) hmem

/-- Where several bytes spell a character, none of them spells one alone. -/
theorem eq_of_spells_of_mem {b : UInt8} (h : Spells lead tail c) (hb : b < 0x80)
    (hmem : b ∈ lead :: tail) : c = Char.ofNat b.toNat := by
  have hsmall : b.toNat < 0x80 := UInt8.lt_iff_toNat_lt.1 hb
  obtain ⟨-, rfl, rfl⟩ | ⟨lo, hi, hfollow, hcontinues, rfl⟩ := h
  · rw [List.mem_singleton.1 hmem]
  · -- All the bytes of such a character are 0x80 or more.
    obtain ⟨hlead, hleast, -⟩ := follow?_eq_some_iff.1 hfollow
    have hlo : 0x80 ≤ lo := by
      rw [UInt8.le_iff_toNat_le]
      show 0x80 ≤ lo.toNat
      omega
    rcases List.mem_cons.1 hmem with rfl | htail
    · omega
    · have hle : 0x80 ≤ b.toNat :=
        UInt8.le_iff_toNat_le.1 (le_of_mem_of_continues hcontinues hlo htail)
      omega

/-! ### Bytes of characters -/

theorem toNat_charOfNat (h : n.isValidChar) : (Char.ofNat n).val.toNat = n := by
  rw [Char.ofNat, dif_pos h]
  rfl

theorem encodeChar_one (h : n < 0x80) : String.utf8EncodeChar (Char.ofNat n) = [UInt8.ofNat n] := by
  simp only [String.utf8EncodeChar, toNat_charOfNat (n := n) (.inl (by omega))]
  rw [if_pos (by omega)]

theorem encodeChar_two (hlo : 0x80 ≤ n) (hhi : n < 0x800) :
    String.utf8EncodeChar (Char.ofNat n) =
      [UInt8.ofNat (n / 64 + 192), UInt8.ofNat (n % 64 + 128)] := by
  simp only [String.utf8EncodeChar, toNat_charOfNat (n := n) (.inl (by omega))]
  rw [if_neg (by omega), if_pos (by omega), Nat.mod_eq_of_lt (by omega : n / 64 < 32)]

theorem encodeChar_three (hlo : 0x800 ≤ n) (hhi : n < 0x10000) (hvalid : n.isValidChar) :
    String.utf8EncodeChar (Char.ofNat n) =
      [UInt8.ofNat (n / 4096 + 224), UInt8.ofNat (n / 64 % 64 + 128),
        UInt8.ofNat (n % 64 + 128)] := by
  simp only [String.utf8EncodeChar, toNat_charOfNat hvalid]
  rw [if_neg (by omega), if_neg (by omega), if_pos (by omega),
    Nat.mod_eq_of_lt (by omega : n / 4096 < 16)]

theorem encodeChar_four (hlo : 0x10000 ≤ n) (hhi : n < 0x110000) :
    String.utf8EncodeChar (Char.ofNat n) =
      [UInt8.ofNat (n / 262144 + 240), UInt8.ofNat (n / 4096 % 64 + 128),
        UInt8.ofNat (n / 64 % 64 + 128), UInt8.ofNat (n % 64 + 128)] := by
  simp only [String.utf8EncodeChar, toNat_charOfNat (n := n) (.inr (by omega))]
  rw [if_neg (by omega), if_neg (by omega), if_neg (by omega),
    Nat.mod_eq_of_lt (by omega : n / 262144 < 8)]

theorem ofNat_eq {b : UInt8} (h : n = b.toNat) : UInt8.ofNat n = b := by
  rw [h, UInt8.ofNat_toNat]

/-- Bytes that spell a character are its bytes. -/
theorem encodeChar_of_spells (h : Spells lead tail c) : String.utf8EncodeChar c = lead :: tail := by
  obtain ⟨hlead, rfl, rfl⟩ | ⟨lo, hi, hfollow, hcontinues, rfl⟩ := h
  · rw [encodeChar_one (UInt8.lt_iff_toNat_lt.1 hlead), UInt8.ofNat_toNat]
  · obtain ⟨hlength, hlo, hhi⟩ := follow?_eq_some_iff.1 hfollow
    -- What the bytes spell falls into the range that takes as many bytes again.
    match tail, hcontinues with
    | [], _ => simp at hlength
    | [b], ⟨hb, _⟩ =>
      simp only [UInt8.le_iff_toNat_le, List.length_cons, List.length_nil] at hb hlength
      show String.utf8EncodeChar (Char.ofNat (lead.toNat % 32 * 64 + b.toNat % 64)) = _
      rw [encodeChar_two (by omega) (by omega), ofNat_eq (b := lead) (by omega),
        ofNat_eq (b := b) (by omega)]
    | [b, b'], ⟨hb, hb', _⟩ =>
      simp only [UInt8.le_iff_toNat_le, List.length_cons, List.length_nil, UInt8.reduceToNat]
        at hb hb' hlength
      have hvalid :
          Nat.isValidChar ((lead.toNat % 16 * 64 + b.toNat % 64) * 64 + b'.toNat % 64) := by
        rw [Nat.isValidChar]
        omega
      show String.utf8EncodeChar
        (Char.ofNat ((lead.toNat % 16 * 64 + b.toNat % 64) * 64 + b'.toNat % 64)) = _
      rw [encodeChar_three (by omega) (by omega) hvalid, ofNat_eq (b := lead) (by omega),
        ofNat_eq (b := b) (by omega), ofNat_eq (b := b') (by omega)]
    | [b, b', b''], ⟨hb, hb', hb'', _⟩ =>
      simp only [UInt8.le_iff_toNat_le, List.length_cons, List.length_nil, UInt8.reduceToNat]
        at hb hb' hb'' hlength
      show String.utf8EncodeChar (Char.ofNat
        (((lead.toNat % 8 * 64 + b.toNat % 64) * 64 + b'.toNat % 64) * 64 + b''.toNat % 64)) = _
      rw [encodeChar_four (by omega) (by omega), ofNat_eq (b := lead) (by omega),
        ofNat_eq (b := b) (by omega), ofNat_eq (b := b') (by omega), ofNat_eq (b := b'') (by omega)]
    | _ :: _ :: _ :: _ :: _, _ => simp at hlength

theorem exists_follow? (lead : UInt8) (n : Nat) (h : n = 1 ∧ 0xC2 ≤ lead.toNat ∧ lead.toNat < 0xE0 ∨
    n = 2 ∧ 0xE0 ≤ lead.toNat ∧ lead.toNat < 0xF0 ∨ n = 3 ∧ 0xF0 ≤ lead.toNat ∧ lead.toNat < 0xF5) :
    ∃ lo hi, follow? lead = some (lo, hi, n) := by
  have hsome : (follow? lead).isSome = true := isSome_follow?_iff.2 (by omega)
  obtain ⟨⟨lo, hi, m⟩, hfollow⟩ := Option.isSome_iff_exists.1 hsome
  obtain ⟨hlength, -, -⟩ := follow?_eq_some_iff.1 hfollow
  obtain rfl : m = n := by omega
  exact ⟨lo, hi, hfollow⟩

section Numbers

variable {b d e : UInt8}

theorem spells_two (hlo : 0x80 ≤ n) (hhi : n < 0x800) (hlead : lead.toNat = n / 64 + 192)
    (hb : b.toNat = n % 64 + 128) : Spells lead [b] (Char.ofNat n) := by
  obtain ⟨lo, hi, hfollow⟩ := exists_follow? lead 1 (by omega)
  obtain ⟨-, hleast, hgreatest⟩ := follow?_eq_some_iff.1 hfollow
  refine .inr ⟨lo, hi, hfollow, ?_, congrArg Char.ofNat ?_⟩
  · simp only [Continues, UInt8.le_iff_toNat_le, and_true]
    omega
  · show n = lead.toNat % 32 * 64 + b.toNat % 64
    omega

theorem spells_three (hlo : 0x800 ≤ n) (hhi : n < 0x10000) (hvalid : n.isValidChar)
    (hlead : lead.toNat = n / 4096 + 224) (hb : b.toNat = n / 64 % 64 + 128)
    (hd : d.toNat = n % 64 + 128) : Spells lead [b, d] (Char.ofNat n) := by
  obtain ⟨lo, hi, hfollow⟩ := exists_follow? lead 2 (by omega)
  obtain ⟨-, hleast, hgreatest⟩ := follow?_eq_some_iff.1 hfollow
  refine .inr ⟨lo, hi, hfollow, ?_, congrArg Char.ofNat ?_⟩
  · rw [Nat.isValidChar] at hvalid
    simp only [Continues, UInt8.le_iff_toNat_le, UInt8.reduceToNat, and_true]
    omega
  · show n = (lead.toNat % 16 * 64 + b.toNat % 64) * 64 + d.toNat % 64
    omega

theorem spells_four (hlo : 0x10000 ≤ n) (hhi : n < 0x110000) (hlead : lead.toNat = n / 262144 + 240)
    (hb : b.toNat = n / 4096 % 64 + 128) (hd : d.toNat = n / 64 % 64 + 128)
    (he : e.toNat = n % 64 + 128) : Spells lead [b, d, e] (Char.ofNat n) := by
  obtain ⟨lo, hi, hfollow⟩ := exists_follow? lead 3 (by omega)
  obtain ⟨-, hleast, hgreatest⟩ := follow?_eq_some_iff.1 hfollow
  refine .inr ⟨lo, hi, hfollow, ?_, congrArg Char.ofNat ?_⟩
  · simp only [Continues, UInt8.le_iff_toNat_le, UInt8.reduceToNat, and_true]
    omega
  · show n = ((lead.toNat % 8 * 64 + b.toNat % 64) * 64 + d.toNat % 64) * 64 + e.toNat % 64
    omega

end Numbers

theorem toNat_ofNat_of_lt (h : n < 256) : (UInt8.ofNat n).toNat = n := by
  rw [UInt8.toNat_ofNat', Nat.mod_eq_of_lt h]

/-- The bytes of a character spell it. -/
theorem exists_spells (c : Char) :
    ∃ lead tail, String.utf8EncodeChar c = lead :: tail ∧ Spells lead tail c := by
  obtain ⟨n, rfl, hvalid⟩ : ∃ n, Char.ofNat n = c ∧ n.isValidChar :=
    ⟨c.toNat, Char.ofNat_toNat c, c.valid⟩
  have hrange : n < 0xD800 ∨ 0xDFFF < n ∧ n < 0x110000 := hvalid
  have hbyte : ∀ m < 256, (UInt8.ofNat m).toNat = m := fun m hm => toNat_ofNat_of_lt hm
  -- The number alone decides how many bytes there are.
  by_cases hone : n < 0x80
  · refine ⟨_, _, encodeChar_one hone, .inl ⟨?_, rfl, ?_⟩⟩
    · rw [UInt8.lt_iff_toNat_lt, hbyte _ (by omega)]
      exact hone
    · rw [hbyte _ (by omega)]
  by_cases htwo : n < 0x800
  · exact ⟨_, _, encodeChar_two (by omega) htwo,
      spells_two (by omega) htwo (hbyte _ (by omega)) (hbyte _ (by omega))⟩
  by_cases hthree : n < 0x10000
  · exact ⟨_, _, encodeChar_three (by omega) hthree hvalid, spells_three (by omega) hthree hvalid
      (hbyte _ (by omega)) (hbyte _ (by omega)) (hbyte _ (by omega))⟩
  · exact ⟨_, _, encodeChar_four (by omega) (by omega), spells_four (by omega) (by omega)
      (hbyte _ (by omega)) (hbyte _ (by omega)) (hbyte _ (by omega)) (hbyte _ (by omega))⟩

/-- A character is spelled by its own bytes, and by no others. -/
theorem spells_iff : Spells lead tail c ↔ String.utf8EncodeChar c = lead :: tail := by
  refine ⟨encodeChar_of_spells, fun h => ?_⟩
  obtain ⟨lead', tail', h', hspells⟩ := exists_spells c
  obtain ⟨rfl, rfl⟩ := List.cons.inj (h'.symm.trans h)
  exact hspells

/-! ### Texts -/

/-- Reading an array of bytes from a place on puts the rest behind what was read before. -/
theorem toList_loop (bytes : ByteArray) (place : Nat) (before : List UInt8) :
    ByteArray.toList.loop bytes place before = before.reverse ++ bytes.data.toList.drop place := by
  fun_induction ByteArray.toList.loop bytes place before with
  | case1 place before hplace ih =>
    have hnext : bytes.data.toList.drop place =
        bytes.get! place :: bytes.data.toList.drop (place + 1) := by
      rw [List.drop_eq_getElem_cons (by simpa using hplace)]
      simp [ByteArray.get!, hplace]
    rw [ih, hnext, List.reverse_cons, List.append_assoc, List.singleton_append]
  | case2 place before hplace =>
    rw [List.drop_eq_nil_of_le (by simpa using hplace), List.append_nil]

theorem encode_eq (s : String) : encode s = s.toList.flatMap String.utf8EncodeChar := by
  have hbytes : s.toUTF8 = (s.toList.flatMap String.utf8EncodeChar).toByteArray := by
    conv => lhs; rw [← String.ofList_toList (s := s)]
    exact String.toByteArray_ofList
  rw [encode, hbytes, ByteArray.toList, toList_loop, List.toList_data_toByteArray]
  rfl

/-- A byte that spells a character alone stands for it wherever it is. -/
theorem mem_of_mem_encode {s : String} {b : UInt8} (hb : b < 0x80) (h : b ∈ encode s) :
    Char.ofNat b.toNat ∈ s.toList := by
  rw [encode_eq, List.mem_flatMap] at h
  obtain ⟨c, hc, hmem⟩ := h
  obtain ⟨lead, tail, hbytes, hspells⟩ := exists_spells c
  rw [hbytes] at hmem
  rwa [← eq_of_spells_of_mem hspells hb hmem]

theorem pieces_encodeChar (c : Char) (rest : List UInt8) :
    pieces (String.utf8EncodeChar c ++ rest) = .char c :: pieces rest := by
  obtain ⟨lead, tail, hbytes, hspells⟩ := exists_spells c
  rw [hbytes, List.cons_append, pieces, piece_of_spells hspells]

theorem pieces_encode (s : String) : pieces (encode s) = s.toList.map .char := by
  rw [encode_eq]
  induction s.toList with
  | nil => rw [List.flatMap_nil, pieces, List.map_nil]
  | cons c cs ih => rw [List.flatMap_cons, pieces_encodeChar, ih, List.map_cons]

theorem textOf_eq_ok_iff {place : Nat} {ps : List Piece} {cs : List Char} :
    textOf place ps = .ok cs ↔ ps = cs.map .char := by
  induction ps generalizing place cs with
  | nil => cases cs <;> simp [textOf]
  | cons p ps ih =>
    cases p with
    | stray bytes unfinished => cases cs <;> simp [textOf]
    | char c =>
      rw [textOf]
      cases cs with
      | nil => cases textOf (place + c.utf8Size) ps <;> simp [Functor.map, Except.map]
      | cons d ds =>
        have hrest : textOf (place + c.utf8Size) ps = .ok ds ↔ ps = ds.map .char := ih
        rw [List.map_cons, List.cons.injEq, Piece.char.injEq, ← hrest]
        cases textOf (place + c.utf8Size) ps <;> simp [Functor.map, Except.map]

/-- Pieces that are all characters come from the bytes of these. -/
theorem eq_of_pieces {cs : List Char} (h : pieces bs = cs.map .char) :
    bs = cs.flatMap String.utf8EncodeChar := by
  induction cs generalizing bs with
  | nil =>
    cases bs with
    | nil => rfl
    | cons b bs => rw [pieces] at h; cases h
  | cons c cs ih =>
    cases bs with
    | nil => rw [pieces] at h; cases h
    | cons lead bs =>
      rw [pieces, List.map_cons] at h
      obtain ⟨hfirst, hothers⟩ := List.cons.inj h
      obtain ⟨tail, hbs, hspells⟩ := exists_of_piece (Prod.ext hfirst rfl)
      rw [List.flatMap_cons, ← ih hothers, spells_iff.1 hspells, List.cons_append, ← hbs]

/-- Bytes are decoded to a text exactly if they are its bytes. -/
theorem decode_eq_ok_iff {s : String} : decode bs = .ok s ↔ bs = encode s := by
  have htext : decode bs = .ok s ↔ textOf 0 (pieces bs) = .ok s.toList := by
    rw [decode]
    cases textOf 0 (pieces bs) with
    | error invalid => simp [Functor.map, Except.map]
    | ok cs =>
      show Except.ok (String.ofList cs) = .ok s ↔ Except.ok cs = .ok s.toList
      rw [Except.ok.injEq, Except.ok.injEq, ← String.toList_inj, String.toList_ofList]
  rw [htext, textOf_eq_ok_iff]
  constructor
  · intro hpieces
    rw [eq_of_pieces hpieces, encode_eq]
  · rintro rfl
    exact pieces_encode s

end RepoAccess.Text.Utf8
