/-
UTF-8. `encode` writes text as bytes. `pieces` reads bytes as a sequence of characters and broken
spots: a spot is the longest beginning of a character that the next byte rules out, or a byte that
begins no character. `decode` accepts bytes without broken spots and says where the first one is;
`decodeLossy` puts the replacement character in place of each.
-/
import ClusterConsole.Text

namespace ClusterConsole

/-- A sequence of bytes. -/
abbrev Bytes := List UInt8

namespace Utf8

/-- The bytes of a text. -/
def encode (t : Text) : Bytes := t.flatMap String.utf8EncodeChar

/-! ## Reading -/

/-- What a stretch of bytes reads as. -/
inductive Piece
  | char (c : Char)
  /-- `n` bytes that begin a character which the next byte does not continue, or one byte that
  begins none. -/
  | broken (n : Nat)
  /-- `n` bytes that begin a character which the end of the bytes cuts off. -/
  | cut (n : Nat)
deriving DecidableEq, Repr

/-- A character read in part: the bytes still needed and those seen, the range of the next byte,
and the value of the bits so far. -/
structure Pending where
  need : Nat
  seen : Nat
  low : Nat
  high : Nat
  value : Nat
deriving DecidableEq, Repr

/-- What a byte means at the beginning of a character. The ranges for the second byte keep out
overlong forms, surrogates and values above U+10FFFF. -/
def first (b : Nat) : Sum Piece Pending :=
  if b < 0x80 then .inl (.char (Char.ofNat b))
  else if b < 0xC2 then .inl (.broken 1)
  else if b < 0xE0 then .inr ⟨1, 1, 0x80, 0xBF, b - 0xC0⟩
  else if b = 0xE0 then .inr ⟨2, 1, 0xA0, 0xBF, 0⟩
  else if b = 0xED then .inr ⟨2, 1, 0x80, 0x9F, 0xD⟩
  else if b < 0xF0 then .inr ⟨2, 1, 0x80, 0xBF, b - 0xE0⟩
  else if b = 0xF0 then .inr ⟨3, 1, 0x90, 0xBF, 0⟩
  else if b < 0xF4 then .inr ⟨3, 1, 0x80, 0xBF, b - 0xF0⟩
  else if b = 0xF4 then .inr ⟨3, 1, 0x80, 0x8F, 4⟩
  else .inl (.broken 1)

/-- The value after one more continuation byte. -/
def Pending.shifted (p : Pending) (b : Nat) : Nat := p.value * 64 + (b - 0x80)

/-- The pieces of the bytes, after the pending beginning of a character if there is one. -/
def piecesFrom : Option Pending → Bytes → List Piece
  | none, [] => []
  | some p, [] => [.cut p.seen]
  | none, b :: bs =>
    match first b.toNat with
    | .inl piece => piece :: piecesFrom none bs
    | .inr p => piecesFrom (some p) bs
  | some p, b :: bs =>
    if p.low ≤ b.toNat ∧ b.toNat ≤ p.high then
      if p.need ≤ 1 then .char (Char.ofNat (p.shifted b.toNat)) :: piecesFrom none bs
      else piecesFrom (some ⟨p.need - 1, p.seen + 1, 0x80, 0xBF, p.shifted b.toNat⟩) bs
    else .broken p.seen ::
      match first b.toNat with
      | .inl piece => piece :: piecesFrom none bs
      | .inr p => piecesFrom (some p) bs

/-- The characters and broken spots of the bytes, from left to right. -/
def pieces (bs : Bytes) : List Piece := piecesFrom none bs

/-- The character that stands for a broken spot. -/
def replacement : Char := Char.ofNat 0xFFFD

/-- What a piece reads as when broken spots are tolerated. -/
def Piece.lossy : Piece → Char
  | .char c => c
  | .broken _ => replacement
  | .cut _ => replacement

/-- The text of the bytes, with the replacement character for each broken spot. -/
def decodeLossy (bs : Bytes) : Text := (pieces bs).map Piece.lossy

/-- Where bytes stop being UTF-8: after `valid` good bytes, `length` bytes are broken, or the end
cuts a character off. -/
structure Fault where
  valid : Nat
  length : Option Nat
deriving DecidableEq, Repr

/-- What is said of a fault. -/
def Fault.message (f : Fault) : Text :=
  match f.length with
  | some n =>
    "invalid utf-8 sequence of " ++ Text.ofNat n ++ " bytes from index " ++ Text.ofNat f.valid
  | none => "incomplete utf-8 byte sequence from index " ++ Text.ofNat f.valid

/-- The characters of the pieces that follow `valid` good bytes. -/
def textOfPieces (valid : Nat) : List Piece → Except Fault Text
  | [] => .ok []
  | .char c :: ps => (textOfPieces (valid + c.utf8Size) ps).map (c :: ·)
  | .broken n :: _ => .error ⟨valid, some n⟩
  | .cut _ :: _ => .error ⟨valid, none⟩

/-- The text of the bytes, or the first fault. -/
def decode (bs : Bytes) : Except Fault Text := textOfPieces 0 (pieces bs)

end Utf8

end ClusterConsole
