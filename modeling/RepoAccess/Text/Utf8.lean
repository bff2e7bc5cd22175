/-
Bytes as UTF-8 text.

* `Utf8.Piece` — a character, or bytes that are none.
* `Utf8.pieces` — bytes cut into pieces, none lost.
* `Utf8.decode` — the text, if all pieces are characters; else what is wrong first.
* `Utf8.decodeLossy` — the text with a replacement character for every piece that is none.

Bytes that are no character end before the first byte that cannot continue them, so every character
behind them is still read.
-/
import RepoAccess.Text.Digits

namespace RepoAccess.Text.Utf8

/-- A character, or bytes that are none. -/
inductive Piece where
  | char (c : Char)
  /-- Bytes that are no character; unfinished ones would become one if the text went on. -/
  | stray (bytes : List UInt8) (unfinished : Bool)
deriving DecidableEq, Repr

/-- How a character goes on behind its first byte: the least and the greatest second byte, and how
many bytes there are behind the first. The bounds exclude long forms, surrogates and numbers that
are too large. -/
def follow? (lead : UInt8) : Option (UInt8 × UInt8 × Nat) :=
  if 0xC2 ≤ lead ∧ lead ≤ 0xDF then some (0x80, 0xBF, 1)
  else if lead = 0xE0 then some (0xA0, 0xBF, 2)
  else if lead = 0xED then some (0x80, 0x9F, 2)
  else if 0xE1 ≤ lead ∧ lead ≤ 0xEF then some (0x80, 0xBF, 2)
  else if lead = 0xF0 then some (0x90, 0xBF, 3)
  else if 0xF1 ≤ lead ∧ lead ≤ 0xF3 then some (0x80, 0xBF, 3)
  else if lead = 0xF4 then some (0x80, 0x8F, 3)
  else none

/-- Up to that many bytes, the first within bounds and the others continuing, and the rest. -/
def takeTail (lo hi : UInt8) : Nat → List UInt8 → List UInt8 × List UInt8
  | 0, bs => ([], bs)
  | _ + 1, [] => ([], [])
  | n + 1, b :: bs =>
    if lo ≤ b ∧ b ≤ hi then
      let (tail, rest) := takeTail 0x80 0xBF n bs
      (b :: tail, rest)
    else ([], b :: bs)

theorem takeTail_append (lo hi : UInt8) (n : Nat) (bs : List UInt8) :
    (takeTail lo hi n bs).1 ++ (takeTail lo hi n bs).2 = bs := by
  fun_induction takeTail lo hi n bs <;> simp_all

theorem length_takeTail (lo hi : UInt8) (n : Nat) (bs : List UInt8) :
    (takeTail lo hi n bs).2.length ≤ bs.length := by
  have h := congrArg List.length (takeTail_append lo hi n bs)
  rw [List.length_append] at h
  omega

/-- The character with a first byte and those behind it. -/
def charOf (lead : UInt8) (tail : List UInt8) : Char :=
  let start := match tail.length with
    | 1 => lead.toNat % 32
    | 2 => lead.toNat % 16
    | _ => lead.toNat % 8
  Char.ofNat (tail.foldl (fun n b => n * 64 + b.toNat % 64) start)

/-- The first piece of bytes that start with `lead`, and the rest. -/
def piece (lead : UInt8) (bs : List UInt8) : Piece × List UInt8 :=
  if lead < 0x80 then (.char (Char.ofNat lead.toNat), bs)
  else match follow? lead with
    | some (lo, hi, n) =>
      let (tail, rest) := takeTail lo hi n bs
      if tail.length = n then (.char (charOf lead tail), rest)
      else (.stray (lead :: tail) rest.isEmpty, rest)
    | none => (.stray [lead] false, bs)

theorem length_piece (lead : UInt8) (bs : List UInt8) : (piece lead bs).2.length ≤ bs.length := by
  unfold piece
  split
  · simp
  · split
    · rename_i lo hi n _
      have := length_takeTail lo hi n bs
      dsimp only
      split <;> simpa
    · simp

/-- Bytes cut into pieces. -/
def pieces (bs : List UInt8) : List Piece :=
  match bs with
  | [] => []
  | b :: rest => (piece b rest).1 :: pieces (piece b rest).2
termination_by bs.length
decreasing_by
  have := length_piece b rest
  simp
  omega

/-- What is wrong with bytes that are no text. -/
structure Invalid where
  /-- The bytes before the first stray ones. -/
  place : Nat
  stray : List UInt8
  unfinished : Bool
deriving DecidableEq, Repr

/-- The wording of what is wrong. -/
def Invalid.message (e : Invalid) : String :=
  if e.unfinished then "incomplete utf-8 byte sequence from index " ++ toString e.place
  else "invalid utf-8 sequence of " ++ toString e.stray.length ++ " bytes from index " ++
    toString e.place

/-- The text of pieces that lie behind that many bytes. -/
def textOf (place : Nat) : List Piece → Except Invalid (List Char)
  | [] => .ok []
  | .char c :: rest => (c :: ·) <$> textOf (place + c.utf8Size) rest
  | .stray bytes unfinished :: _ => .error ⟨place, bytes, unfinished⟩

/-- The text of bytes, or what is wrong with them first. -/
def decode (bs : List UInt8) : Except Invalid String :=
  String.ofList <$> textOf 0 (pieces bs)

/-- The character that a piece is shown as. -/
def Piece.shown : Piece → Char
  | .char c => c
  | .stray _ _ => '\uFFFD'

/-- The text of bytes, with a replacement character for every piece that is none. -/
def decodeLossy (bs : List UInt8) : String :=
  String.ofList ((pieces bs).map (·.shown))

/-- The bytes of a text. -/
def encode (s : String) : List UInt8 := s.toUTF8.toList

end RepoAccess.Text.Utf8
