/-!
# Text

Everything the linter reads and writes is text in the sense of a file: a list of
bytes that need not be well-formed UTF-8. This file has the type, the way a
literal becomes text, the ASCII classes that the grammars use, and the few list
operations they share.
-/

namespace ToolLint

abbrev Text : Type := List UInt8

def encodeChar (c : Char) : Text :=
  let n := c.toNat
  if n < 0x80 then [n.toUInt8]
  else if n < 0x800 then [(0xC0 + n / 0x40).toUInt8, (0x80 + n % 0x40).toUInt8]
  else if n < 0x10000 then
    [(0xE0 + n / 0x1000).toUInt8, (0x80 + n / 0x40 % 0x40).toUInt8,
      (0x80 + n % 0x40).toUInt8]
  else
    [(0xF0 + n / 0x40000).toUInt8, (0x80 + n / 0x1000 % 0x40).toUInt8,
      (0x80 + n / 0x40 % 0x40).toUInt8, (0x80 + n % 0x40).toUInt8]

/-- The UTF-8 form of a literal. -/
def utf8 (s : String) : Text := s.toList.flatMap encodeChar

/-! ## Bytes with a name -/

/-- The ASCII code of a character; used on ASCII literals only. -/
def ascii (c : Char) : UInt8 := c.toNat.toUInt8

def tab : UInt8 := 0x09
def lf : UInt8 := 0x0A
def cr : UInt8 := 0x0D
def space : UInt8 := 0x20

/-! ## Classes of bytes -/

def isDigit (b : UInt8) : Bool := 0x30 ≤ b && b ≤ 0x39

def isUpper (b : UInt8) : Bool := 0x41 ≤ b && b ≤ 0x5A

def isLower (b : UInt8) : Bool := 0x61 ≤ b && b ≤ 0x7A

def isLetter (b : UInt8) : Bool := isUpper b || isLower b

def isAlnum (b : UInt8) : Bool := isLetter b || isDigit b

/-- A byte of an identifier: a letter, a digit or an underscore. -/
def isWord (b : UInt8) : Bool := isAlnum b || b == 0x5F

def isSpaceOrTab (b : UInt8) : Bool := b == space || b == tab

/-- White space between the words of a help line or of an expression: tab, line
feed, form feed, carriage return and blank. A vertical tab is none. -/
def isGap (b : UInt8) : Bool :=
  b == tab || b == lf || b == 0x0C || b == cr || b == space

/-! ## Parts of a text -/

namespace Text

/-- Bytewise order of texts: a proper prefix comes first. -/
def le (a b : Text) : Bool := decide (a ≤ b)

/-- If the text begins with the word `w`, what follows it. -/
def after? : (w s : Text) → Option Text
  | [], s => some s
  | _ :: _, [] => none
  | a :: w, b :: s => if a = b then after? w s else none

theorem after?_eq_some_iff {w s r : Text} : after? w s = some r ↔ s = w ++ r := by
  induction w generalizing s with
  | nil => simp [after?, eq_comm]
  | cons a w ih =>
    cases s with
    | nil => simp [after?]
    | cons b s =>
      by_cases h : a = b
      · simp [after?, h, ih]
      · simp [after?, h, eq_comm]

def hasInfix (w : Text) : Text → Bool
  | [] => w.isEmpty
  | b :: s => w.isPrefixOf (b :: s) || hasInfix w s

/-- Does `k` hold of what follows some of the bytes in `p` that the text begins
with, at least one? -/
def afterSome (p : UInt8 → Bool) (k : Text → Bool) : Text → Bool
  | [] => false
  | b :: s => p b && (k s || afterSome p k s)

/-- The text without the bytes at its end that satisfy `p`. -/
def dropWhileEnd (p : UInt8 → Bool) (s : Text) : Text :=
  (s.reverse.dropWhile p).reverse

/-- The text without its last byte if that is `b`. -/
def dropLastIf (b : UInt8) (s : Text) : Text :=
  if s.getLast? = some b then s.dropLast else s

/-- The part after the last byte that satisfies `p`, all of the text if there is
none. -/
def afterLast (p : UInt8 → Bool) (s : Text) : Text :=
  (s.reverse.takeWhile fun b => !p b).reverse

/-- Texts one after another with a separator between them. -/
def join (sep : Text) (ts : List Text) : Text := (ts.intersperse sep).flatten

/-- The parts of a text between the bytes `sep`; a text with `n` of them has
`n + 1` parts. -/
def split (sep : UInt8) (s : Text) : List Text :=
  s.foldr (fun b parts =>
    match parts with
    | [] => [[b]]
    | part :: rest =>
      if b = sep then [] :: part :: rest else (b :: part) :: rest) [[]]

@[simp]
theorem split_nil (sep : UInt8) : split sep [] = [[]] := rfl

theorem split_ne_nil (sep : UInt8) (s : Text) : split sep s ≠ [] := by
  cases s with
  | nil => simp
  | cons b s =>
    simp only [split, List.foldr_cons]
    split
    · simp
    · split <;> simp

/-- A separator ends the first part. -/
theorem split_cons_self (sep : UInt8) (s : Text) :
    split sep (sep :: s) = [] :: split sep s := by
  obtain ⟨part, rest, h⟩ := List.exists_cons_of_ne_nil (split_ne_nil sep s)
  simp only [split, List.foldr_cons] at h ⊢
  rw [h]
  simp

/-- Any other byte belongs to the first part. -/
theorem split_cons_of_ne {sep b : UInt8} (hb : b ≠ sep) (s : Text) :
    ∃ part rest, split sep s = part :: rest ∧
      split sep (b :: s) = (b :: part) :: rest := by
  obtain ⟨part, rest, h⟩ := List.exists_cons_of_ne_nil (split_ne_nil sep s)
  refine ⟨part, rest, h, ?_⟩
  simp only [split, List.foldr_cons] at h ⊢
  rw [h]
  simp [hb]

/-- Nothing is lost. -/
theorem join_split (sep : UInt8) (s : Text) : join [sep] (split sep s) = s := by
  induction s with
  | nil => rfl
  | cons b s ih =>
    by_cases hb : b = sep
    · subst hb
      obtain ⟨part, rest, h⟩ := List.exists_cons_of_ne_nil (split_ne_nil b s)
      rw [split_cons_self, h]
      rw [h] at ih
      simpa [join] using ih
    · obtain ⟨part, rest, h, h'⟩ := split_cons_of_ne hb s
      rw [h']
      rw [h] at ih
      cases rest with
      | nil => simpa [join] using ih
      | cons part' rest => simpa [join] using ih

def blanks (n : Nat) : Text := List.replicate n space

end Text

end ToolLint
