import ToolLint.Text.Basic

/-!
# Characters of a text

A text is read as a sequence of pieces. A piece is a character in its UTF-8
form, or one stray byte that belongs to no character. `Text.next?` takes the
first piece; what it leaves is shorter, so the loop over a text ends. A reader
that needs characters only sees the replacement character for each stray byte.
-/

namespace ToolLint

/-- What stands at one place of a text. -/
inductive Piece where
  | char (c : Char)
  | stray (b : UInt8)
deriving DecidableEq, Repr

namespace Piece

/-- The character that stands for a stray byte. -/
def replacement : Char := Char.ofNat 0xFFFD

def toChar : Piece → Char
  | .char c => c
  | .stray _ => replacement

def isChar : Piece → Bool
  | .char _ => true
  | .stray _ => false

end Piece

/-! ## The UTF-8 table -/

def isTail (b : UInt8) : Bool := 0x80 ≤ b && b ≤ 0xBF

/-- May `b` stand second after the lead byte `a` of a form of three bytes? The
range is narrower after `E0` (no overlong form) and `ED` (no surrogate). -/
def isSecondOfThree (a b : UInt8) : Bool :=
  if a == 0xE0 then 0xA0 ≤ b && b ≤ 0xBF
  else if a == 0xED then 0x80 ≤ b && b ≤ 0x9F
  else isTail b

/-- May `b` stand second after the lead byte `a` of a form of four bytes? -/
def isSecondOfFour (a b : UInt8) : Bool :=
  if a == 0xF0 then 0x90 ≤ b && b ≤ 0xBF
  else if a == 0xF4 then 0x80 ≤ b && b ≤ 0x8F
  else isTail b

def tailBits (b : UInt8) : Nat := b.toNat % 0x40

namespace Text

/-- The first piece of a text and what follows it. -/
def next? : Text → Option (Piece × Text)
  | [] => none
  | a :: s =>
    if a < 0x80 then some (.char (Char.ofNat a.toNat), s)
    else if 0xC2 ≤ a && a ≤ 0xDF then
      match s with
      | b :: r =>
        if isTail b then
          some (.char (Char.ofNat (a.toNat % 0x20 * 0x40 + tailBits b)), r)
        else some (.stray a, s)
      | [] => some (.stray a, s)
    else if 0xE0 ≤ a && a ≤ 0xEF then
      match s with
      | b :: c :: r =>
        if isSecondOfThree a b && isTail c then
          some
            (.char
              (Char.ofNat ((a.toNat % 0x10 * 0x40 + tailBits b) * 0x40 +
                tailBits c)), r)
        else some (.stray a, s)
      | _ => some (.stray a, s)
    else if 0xF0 ≤ a && a ≤ 0xF4 then
      match s with
      | b :: c :: d :: r =>
        if isSecondOfFour a b && isTail c && isTail d then
          some (.char (Char.ofNat
            (((a.toNat % 0x08 * 0x40 + tailBits b) * 0x40 + tailBits c) * 0x40 +
              tailBits d)), r)
        else some (.stray a, s)
      | _ => some (.stray a, s)
    else some (.stray a, s)

theorem length_lt_of_next? {s r : Text} {p : Piece} (h : next? s = some (p, r)) :
    r.length < s.length := by
  unfold next? at h
  split at h
  · simp at h
  · repeat' split at h
    all_goals
      simp only [Option.some.injEq, Prod.mk.injEq] at h
      obtain ⟨-, rfl⟩ := h
      simp only [List.length_cons]
      omega

/-- The pieces of a text read so far, the last one first, followed by those of
the rest. -/
def piecesFrom (done : List Piece) (s : Text) : List Piece :=
  match _h : next? s with
  | none => done.reverse
  | some (p, r) => piecesFrom (p :: done) r
termination_by s.length
decreasing_by exact length_lt_of_next? _h

def pieces (s : Text) : List Piece := piecesFrom [] s

/-- The characters of a text; a stray byte reads as the replacement character. -/
def chars (s : Text) : List Char := s.pieces.map Piece.toChar

def isValid (s : Text) : Bool := s.pieces.all Piece.isChar

/-- The text with every stray byte replaced. -/
def repaired (s : Text) : Text := s.chars.flatMap encodeChar

/-- If the text begins with these characters, what follows them. -/
def afterChars? : List Char → Text → Option Text
  | [], s => some s
  | c :: cs, s =>
    match next? s with
    | some (p, r) => if p.toChar == c then afterChars? cs r else none
    | none => none

/-- The rest of the text from its first stray byte on. -/
def fromStray? (s : Text) : Option Text :=
  match _h : next? s with
  | none => none
  | some (.stray _, _) => some s
  | some (.char _, r) => fromStray? r
termination_by s.length
decreasing_by exact length_lt_of_next? _h

end Text

end ToolLint
