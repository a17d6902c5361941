-- SUMMARY: Bytes read as UTF-8, strictly or leniently.
/-!
# UTF-8

Bytes read as text. A byte sequence splits into pieces, each a character or
the longest start of one that goes wrong. Strict reading stops at the first
defect and says where it lies; lenient reading puts U+FFFD in its place.
-/

namespace SmsRelay.Text.Utf8

/-- What can be wrong with a byte sequence. -/
inductive Defect where
  /-- A byte that starts no character. -/
  | badStart
  /-- A character broken off by a byte that does not continue it. -/
  | badContinuation
  /-- A character broken off by the end of the bytes. -/
  | truncated
  deriving DecidableEq, Repr

def Defect.reason : Defect → String
  | .badStart => "invalid start byte"
  | .badContinuation => "invalid continuation byte"
  | .truncated => "unexpected end of data"

/-- A defect, the offset of its first byte, and the bytes it covers. -/
structure Fault where
  defect : Defect
  offset : Nat
  bytes : List UInt8
  deriving DecidableEq, Repr

-- ---------------------------------------------------------------------------
-- One piece
-- ---------------------------------------------------------------------------

/-- A character and the bytes that spell it, or the bytes that spell none. -/
inductive Piece where
  | char (c : Char) (bytes : List UInt8)
  | defect (d : Defect) (bytes : List UInt8)
  deriving DecidableEq, Repr

def Piece.bytes : Piece → List UInt8
  | .char _ bs => bs
  | .defect _ bs => bs

/-- For a first byte: its share of the code point, how many bytes follow, and the range of the
next one. Overlong forms, surrogates and code points past U+10FFFF are excluded by that range. -/
def lead? (b : UInt8) : Option (Nat × Nat × Nat × Nat) :=
  let n := b.toNat
  if n < 0x80 then some (n, 0, 0x80, 0xBF)
  else if n < 0xC2 then none
  else if n < 0xE0 then some (n - 0xC0, 1, 0x80, 0xBF)
  else if n = 0xE0 then some (0, 2, 0xA0, 0xBF)
  else if n = 0xED then some (0xD, 2, 0x80, 0x9F)
  else if n < 0xF0 then some (n - 0xE0, 2, 0x80, 0xBF)
  else if n = 0xF0 then some (0, 3, 0x90, 0xBF)
  else if n < 0xF4 then some (n - 0xF0, 3, 0x80, 0xBF)
  else if n = 0xF4 then some (4, 3, 0x80, 0x8F)
  else none

/-- Up to `n` continuation bytes, the first of them between `lo` and `hi`, and what is left. -/
def takeTails : Nat → Nat → Nat → List UInt8 → List UInt8 × List UInt8
  | 0, _, _, bs => ([], bs)
  | _ + 1, _, _, [] => ([], [])
  | n + 1, lo, hi, b :: bs =>
    if lo ≤ b.toNat ∧ b.toNat ≤ hi then
      let (ts, rest) := takeTails n 0x80 0xBF bs
      (b :: ts, rest)
    else ([], b :: bs)

theorem takeTails_append (n lo hi : Nat) (bs : List UInt8) :
    (takeTails n lo hi bs).1 ++ (takeTails n lo hi bs).2 = bs := by
  induction n generalizing lo hi bs with
  | zero => rfl
  | succ n ih =>
    cases bs with
    | nil => rfl
    | cons b bs =>
      simp only [takeTails]
      split
      · simp [ih]
      · rfl

/-- The first piece of a nonempty byte sequence, and the bytes after it. -/
def firstPiece (b : UInt8) (bs : List UInt8) : Piece × List UInt8 :=
  match lead? b with
  | none => (.defect .badStart [b], bs)
  | some (top, n, lo, hi) =>
    let (ts, rest) := takeTails n lo hi bs
    if ts.length = n then
      (.char (Char.ofNat (ts.foldl (fun code t => 64 * code + (t.toNat - 0x80)) top)) (b :: ts), rest)
    else (.defect (if rest.isEmpty then .truncated else .badContinuation) (b :: ts), rest)

theorem firstPiece_append (b : UInt8) (bs : List UInt8) :
    (firstPiece b bs).1.bytes ++ (firstPiece b bs).2 = b :: bs := by
  unfold firstPiece
  split
  · rfl
  · have := takeTails_append
    dsimp only
    split <;> simp [Piece.bytes, takeTails_append]

theorem firstPiece_length (b : UInt8) (bs : List UInt8) :
    (firstPiece b bs).2.length < (b :: bs).length := by
  have h := congrArg List.length (firstPiece_append b bs)
  have : 0 < (firstPiece b bs).1.bytes.length := by
    unfold firstPiece
    split
    · simp [Piece.bytes]
    · dsimp only
      split <;> simp [Piece.bytes]
  simp only [List.length_append] at h
  omega

-- ---------------------------------------------------------------------------
-- Whole sequences
-- ---------------------------------------------------------------------------

/-- All the pieces of a byte sequence, in order. -/
def pieces : List UInt8 → List Piece
  | [] => []
  | b :: bs => (firstPiece b bs).1 :: pieces (firstPiece b bs).2
termination_by bs => bs.length
decreasing_by exact firstPiece_length b bs

/-- Read pieces up to the first defect; `offset` counts the bytes before them. -/
def decodePieces (offset : Nat) : List Piece → Except Fault (List Char)
  | [] => .ok []
  | .char c bs :: ps => (decodePieces (offset + bs.length) ps).map (c :: ·)
  | .defect d bs :: _ => .error ⟨d, offset, bs⟩

/-- Bytes as text, if they spell some. -/
def decode (bs : List UInt8) : Except Fault String :=
  (decodePieces 0 (pieces bs)).map String.ofList

def Piece.toChar : Piece → Char
  | .char c _ => c
  | .defect _ _ => '\uFFFD'

/-- Bytes as text, with U+FFFD for each piece that spells no character. -/
def decodeLenient (bs : List UInt8) : String :=
  String.ofList ((pieces bs).map Piece.toChar)

end SmsRelay.Text.Utf8
