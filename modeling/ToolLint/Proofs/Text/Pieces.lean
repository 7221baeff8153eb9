import ToolLint.Text.Chars
import Mathlib.Data.List.Basic
import Mathlib.Tactic.SplitIfs

/-!
# Pieces of a text

The loop over a text as a recursion on its first piece. A piece that is a
character is its UTF-8 form (`next?_encodeChar`, `next?_cases`), and an ASCII
byte is a piece of its own wherever it stands, so it cuts the pieces of a text
in two (`pieces_append_ascii`). Words of ASCII bytes can therefore be looked for
among the bytes of a text or among its characters, with the same result
(`chars_append_word`, `chars_eq_append_word`).

A text is the bytes of its pieces (`flatMap_bytes_pieces`), so a cut between two
pieces is a cut of the text. A text without stray bytes is determined by its
characters (`IsEncoded.eq_of_chars`), and it is read on its own wherever it
stands (`pieces_append_of_isEncoded`).
-/

namespace ToolLint

/-- A byte that is a character by itself. -/
def IsAscii (b : UInt8) : Prop := b.toNat < 0x80

instance (b : UInt8) : Decidable (IsAscii b) :=
  inferInstanceAs (Decidable (_ < _))

def byteChar (b : UInt8) : Char := Char.ofNat b.toNat

theorem toNat_toUInt8 {n : Nat} (h : n < 256) : n.toUInt8.toNat = n := by
  simp [Nat.mod_eq_of_lt h]

theorem toNat_ofNat {n : Nat} (h : n.isValidChar) : (Char.ofNat n).toNat = n := by
  rw [Char.ofNat, dif_pos h]
  rfl

theorem byteChar_toNat (b : UInt8) : (byteChar b).toNat = b.toNat := by
  have hb : b.toNat < 256 := b.toNat_lt
  exact toNat_ofNat (Or.inl (by omega))

theorem encodeChar_byteChar {b : UInt8} (hb : IsAscii b) :
    encodeChar (byteChar b) = [b] := by
  unfold encodeChar
  rw [byteChar_toNat]
  simp only
  rw [if_pos (show b.toNat < 0x80 from hb)]
  simp

theorem encodeChar_ne_nil (c : Char) : encodeChar c ≠ [] := by
  unfold encodeChar
  simp only
  split_ifs <;> simp

def Piece.bytes : Piece → Text
  | .char c => encodeChar c
  | .stray b => [b]

namespace Text

/-! ## The first piece and the rest -/

theorem piecesFrom_eq (done : List Piece) (s : Text) :
    piecesFrom done s = done.reverse ++ pieces s := by
  unfold pieces
  rw [piecesFrom.eq_def done, piecesFrom.eq_def []]
  split
  · simp
  · rename_i p r h
    rw [piecesFrom_eq (p :: done) r, piecesFrom_eq [p] r]
    simp
termination_by s.length
decreasing_by
  all_goals exact length_lt_of_next? (by assumption)

@[simp]
theorem pieces_nil : pieces [] = [] := by
  unfold pieces
  rw [piecesFrom.eq_def]
  rfl

theorem pieces_of_next? {s r : Text} {p : Piece} (h : next? s = some (p, r)) :
    pieces s = p :: pieces r := by
  unfold pieces
  rw [piecesFrom.eq_def]
  split
  · simp_all
  · rename_i q t hq
    obtain ⟨rfl, rfl⟩ : q = p ∧ t = r := by simpa [hq] using h
    rw [piecesFrom_eq]
    rfl

/-- Every text but the empty one has a first piece. -/
theorem exists_next? (a : UInt8) (s : Text) :
    ∃ p r, next? (a :: s) = some (p, r) := by
  cases h : next? (a :: s) with
  | some pr => exact ⟨pr.1, pr.2, rfl⟩
  | none =>
      simp only [next?] at h
      repeat' split at h
      all_goals simp at h

theorem chars_of_next? {s r : Text} {p : Piece} (h : next? s = some (p, r)) :
    chars s = p.toChar :: chars r := by
  unfold chars
  rw [pieces_of_next? h]
  rfl

@[simp]
theorem chars_nil : chars [] = [] := by
  unfold chars
  rw [pieces_nil]
  rfl

/-! ## UTF-8 forms -/

theorem isTail_iff {b : UInt8} :
    isTail b = true ↔ 0x80 ≤ b.toNat ∧ b.toNat ≤ 0xBF := by
  simp [isTail, UInt8.le_iff_toNat_le]

theorem isSecondOfThree_iff {a b : UInt8} :
    isSecondOfThree a b = true ↔ 0x80 ≤ b.toNat ∧ b.toNat ≤ 0xBF ∧
      (a.toNat = 0xE0 → 0xA0 ≤ b.toNat) ∧ (a.toNat = 0xED → b.toNat ≤ 0x9F) := by
  have hE0 : (a == 0xE0) = decide (a.toNat = 0xE0) := by
    rw [Bool.eq_iff_iff]
    simp [← UInt8.toNat_inj]
  have hED : (a == 0xED) = decide (a.toNat = 0xED) := by
    rw [Bool.eq_iff_iff]
    simp [← UInt8.toNat_inj]
  unfold isSecondOfThree
  rw [hE0, hED]
  split_ifs <;> simp_all [isTail_iff, UInt8.le_iff_toNat_le] <;> omega

theorem isSecondOfFour_iff {a b : UInt8} :
    isSecondOfFour a b = true ↔ 0x80 ≤ b.toNat ∧ b.toNat ≤ 0xBF ∧
      (a.toNat = 0xF0 → 0x90 ≤ b.toNat) ∧ (a.toNat = 0xF4 → b.toNat ≤ 0x8F) := by
  have hF0 : (a == 0xF0) = decide (a.toNat = 0xF0) := by
    rw [Bool.eq_iff_iff]
    simp [← UInt8.toNat_inj]
  have hF4 : (a == 0xF4) = decide (a.toNat = 0xF4) := by
    rw [Bool.eq_iff_iff]
    simp [← UInt8.toNat_inj]
  unfold isSecondOfFour
  rw [hF0, hF4]
  split_ifs <;> simp_all [isTail_iff, UInt8.le_iff_toNat_le] <;> omega

theorem next?_one {a : UInt8} (ha : IsAscii a) (s : Text) :
    next? (a :: s) = some (.char (byteChar a), s) := by
  have h1 : a < 0x80 := UInt8.lt_iff_toNat_lt.mpr ha
  simp only [next?, if_pos h1, byteChar]

theorem next?_two {a b : UInt8} {s : Text} (ha : 0xC2 ≤ a.toNat ∧ a.toNat ≤ 0xDF)
    (hb : isTail b = true) :
    next? (a :: b :: s) =
      some (.char (Char.ofNat (a.toNat % 0x20 * 0x40 + tailBits b)), s) := by
  have h1 : ¬ a < 0x80 := by simp [UInt8.lt_iff_toNat_lt]; omega
  have h2 : (0xC2 ≤ a && a ≤ 0xDF) = true := by
    simp [UInt8.le_iff_toNat_le]; omega
  simp only [next?, if_neg h1, if_pos h2, if_pos hb]

theorem next?_three {a b c : UInt8} {s : Text}
    (ha : 0xE0 ≤ a.toNat ∧ a.toNat ≤ 0xEF) (hb : isSecondOfThree a b = true)
    (hc : isTail c = true) :
    next? (a :: b :: c :: s) = some (.char (Char.ofNat
      ((a.toNat % 0x10 * 0x40 + tailBits b) * 0x40 + tailBits c)), s) := by
  have h1 : ¬ a < 0x80 := by simp [UInt8.lt_iff_toNat_lt]; omega
  have h2 : ¬ (0xC2 ≤ a && a ≤ 0xDF) = true := by
    simp [UInt8.le_iff_toNat_le]; omega
  have h3 : (0xE0 ≤ a && a ≤ 0xEF) = true := by
    simp [UInt8.le_iff_toNat_le]; omega
  simp only [next?, if_neg h1, if_neg h2, if_pos h3, hb, hc, Bool.and_self,
    if_true]

theorem next?_four {a b c d : UInt8} {s : Text}
    (ha : 0xF0 ≤ a.toNat ∧ a.toNat ≤ 0xF4) (hb : isSecondOfFour a b = true)
    (hc : isTail c = true) (hd : isTail d = true) :
    next? (a :: b :: c :: d :: s) = some (.char (Char.ofNat
      (((a.toNat % 0x08 * 0x40 + tailBits b) * 0x40 + tailBits c) * 0x40 +
        tailBits d)), s) := by
  have h1 : ¬ a < 0x80 := by simp [UInt8.lt_iff_toNat_lt]; omega
  have h2 : ¬ (0xC2 ≤ a && a ≤ 0xDF) = true := by
    simp [UInt8.le_iff_toNat_le]; omega
  have h3 : ¬ (0xE0 ≤ a && a ≤ 0xEF) = true := by
    simp [UInt8.le_iff_toNat_le]; omega
  have h4 : (0xF0 ≤ a && a ≤ 0xF4) = true := by
    simp [UInt8.le_iff_toNat_le]; omega
  simp only [next?, if_neg h1, if_neg h2, if_neg h3, if_pos h4, hb, hc, hd,
    Bool.and_self, if_true]

/-- The UTF-8 form of a character reads back as this character, whatever follows
it. -/
theorem next?_encodeChar (c : Char) (s : Text) :
    next? (encodeChar c ++ s) = some (.char c, s) := by
  have hv : c.toNat < 0xD800 ∨ 0xDFFF < c.toNat ∧ c.toNat < 0x110000 := by
    simpa [UInt32.isValidChar, Nat.isValidChar] using c.valid
  unfold encodeChar
  generalize hn : c.toNat = n at hv
  have hc : Char.ofNat n = c := by rw [← hn, Char.ofNat_toNat]
  simp only
  split_ifs with h1 h2 h3
  · have ha := toNat_toUInt8 (show n < 256 by omega)
    have hlt : IsAscii n.toUInt8 := by rw [IsAscii, ha]; exact h1
    rw [List.cons_append, List.nil_append, next?_one hlt, byteChar, ha, hc]
  · have ha := toNat_toUInt8 (show 0xC0 + n / 0x40 < 256 by omega)
    have hb := toNat_toUInt8 (show 0x80 + n % 0x40 < 256 by omega)
    simp only [List.cons_append, List.nil_append]
    rw [next?_two (by omega) (by rw [isTail_iff]; omega), tailBits, ha, hb, ← hc]
    congr 4
    omega
  · have ha := toNat_toUInt8 (show 0xE0 + n / 0x1000 < 256 by omega)
    have hb := toNat_toUInt8 (show 0x80 + n / 0x40 % 0x40 < 256 by omega)
    have hd := toNat_toUInt8 (show 0x80 + n % 0x40 < 256 by omega)
    simp only [List.cons_append, List.nil_append]
    rw [next?_three (by omega) (by rw [isSecondOfThree_iff]; omega)
        (by rw [isTail_iff]; omega),
      tailBits, tailBits, ha, hb, hd, ← hc]
    congr 4
    omega
  · have ha := toNat_toUInt8 (show 0xF0 + n / 0x40000 < 256 by omega)
    have hb := toNat_toUInt8 (show 0x80 + n / 0x1000 % 0x40 < 256 by omega)
    have hd := toNat_toUInt8 (show 0x80 + n / 0x40 % 0x40 < 256 by omega)
    have he := toNat_toUInt8 (show 0x80 + n % 0x40 < 256 by omega)
    simp only [List.cons_append, List.nil_append]
    rw [next?_four (by omega) (by rw [isSecondOfFour_iff]; omega)
        (by rw [isTail_iff]; omega) (by rw [isTail_iff]; omega),
      tailBits, tailBits, tailBits, ha, hb, hd, he, ← hc]
    congr 4
    omega

theorem toUInt8_eq {n : Nat} {b : UInt8} (h : n = b.toNat) : n.toUInt8 = b := by
  subst h
  simp

theorem encodeChar_two {a b : UInt8} (ha : 0xC2 ≤ a.toNat ∧ a.toNat ≤ 0xDF)
    (hb : isTail b = true) :
    encodeChar (Char.ofNat (a.toNat % 0x20 * 0x40 + tailBits b)) = [a, b] := by
  rw [isTail_iff] at hb
  unfold encodeChar tailBits
  rw [toNat_ofNat (Or.inl (by omega))]
  simp only
  rw [if_neg (by omega), if_pos (by omega), toUInt8_eq (b := a) (by omega),
    toUInt8_eq (b := b) (by omega)]

theorem encodeChar_three {a b c : UInt8} (ha : 0xE0 ≤ a.toNat ∧ a.toNat ≤ 0xEF)
    (hb : isSecondOfThree a b = true) (hc : isTail c = true) :
    encodeChar
      (Char.ofNat ((a.toNat % 0x10 * 0x40 + tailBits b) * 0x40 + tailBits c)) =
        [a, b, c] := by
  rw [isSecondOfThree_iff] at hb
  rw [isTail_iff] at hc
  unfold encodeChar tailBits
  -- Surrogates are left out by the second byte after `ED`, overlong forms by
  -- the one after `E0`.
  rw [toNat_ofNat (by unfold Nat.isValidChar; omega)]
  simp only
  rw [if_neg (by omega), if_neg (by omega), if_pos (by omega),
    toUInt8_eq (b := a) (by omega), toUInt8_eq (b := b) (by omega),
    toUInt8_eq (b := c) (by omega)]

theorem encodeChar_four {a b c d : UInt8} (ha : 0xF0 ≤ a.toNat ∧ a.toNat ≤ 0xF4)
    (hb : isSecondOfFour a b = true) (hc : isTail c = true)
    (hd : isTail d = true) :
    encodeChar (Char.ofNat
      (((a.toNat % 0x08 * 0x40 + tailBits b) * 0x40 + tailBits c) * 0x40 +
        tailBits d))
      = [a, b, c, d] := by
  rw [isSecondOfFour_iff] at hb
  rw [isTail_iff] at hc hd
  unfold encodeChar tailBits
  rw [toNat_ofNat (by unfold Nat.isValidChar; omega)]
  simp only
  rw [if_neg (by omega), if_neg (by omega), if_neg (by omega),
    toUInt8_eq (b := a) (by omega), toUInt8_eq (b := b) (by omega),
    toUInt8_eq (b := c) (by omega), toUInt8_eq (b := d) (by omega)]

/-- The first piece is a stray byte, or a character in its UTF-8 form. -/
theorem next?_cases {s r : Text} {p : Piece} (h : next? s = some (p, r)) :
    (∃ b, ¬ IsAscii b ∧ p = .stray b ∧ s = b :: r) ∨
      (∃ c, p = .char c ∧ s = encodeChar c ++ r) := by
  have range {m n a : UInt8} (h : (m ≤ a && a ≤ n) = true) : m.toNat ≤ a.toNat ∧
      a.toNat ≤ n.toNat := by
    simpa [UInt8.le_iff_toNat_le] using h
  unfold next? at h
  split at h
  · simp at h
  · rename_i a s
    split at h
    · rename_i h1
      obtain ⟨rfl, rfl⟩ : Piece.char (byteChar a) = p ∧ s = r := by
        simpa [byteChar] using h
      have ha : IsAscii a := UInt8.lt_iff_toNat_lt.mp h1
      exact Or.inr ⟨byteChar a, rfl, by rw [encodeChar_byteChar ha]; rfl⟩
    · rename_i h1
      have ha : ¬ IsAscii a := fun ha => h1 (UInt8.lt_iff_toNat_lt.mpr ha)
      have stray (h : some (Piece.stray a, s) = some (p, r)) :
          ∃ b, ¬ IsAscii b ∧ p = .stray b ∧ a :: s = b :: r := by
        obtain ⟨rfl, rfl⟩ : Piece.stray a = p ∧ s = r := by simpa using h
        exact ⟨a, ha, rfl, rfl⟩
      split at h
      · rename_i h2
        split at h
        · split at h
          · rename_i hb
            obtain ⟨rfl, rfl⟩ := Prod.mk.inj (Option.some.inj h)
            exact Or.inr ⟨_, rfl, by rw [encodeChar_two (range h2) hb]; rfl⟩
          · exact Or.inl (stray h)
        · exact Or.inl (stray h)
      · split at h
        · rename_i h3
          split at h
          · split at h
            · rename_i hbc
              obtain ⟨hb, hc⟩ := Bool.and_eq_true_iff.mp hbc
              obtain ⟨rfl, rfl⟩ := Prod.mk.inj (Option.some.inj h)
              exact Or.inr ⟨_, rfl,
                by rw [encodeChar_three (range h3) hb hc]; rfl⟩
            · exact Or.inl (stray h)
          · exact Or.inl (stray h)
        · split at h
          · rename_i h4
            split at h
            · split at h
              · rename_i hbcd
                obtain ⟨hbc, hd⟩ := Bool.and_eq_true_iff.mp hbcd
                obtain ⟨hb, hc⟩ := Bool.and_eq_true_iff.mp hbc
                obtain ⟨rfl, rfl⟩ := Prod.mk.inj (Option.some.inj h)
                exact Or.inr ⟨_, rfl,
                  by rw [encodeChar_four (range h4) hb hc hd]; rfl⟩
              · exact Or.inl (stray h)
            · exact Or.inl (stray h)
          · exact Or.inl (stray h)

/-- What stands before the rest is not empty. -/
theorem exists_append_of_next? {s r : Text} {p : Piece}
    (h : next? s = some (p, r)) : ∃ w, w ≠ [] ∧ s = w ++ r := by
  rcases next?_cases h with ⟨b, -, -, rfl⟩ | ⟨c, -, rfl⟩
  · exact ⟨[b], by simp, rfl⟩
  · exact ⟨encodeChar c, encodeChar_ne_nil c, rfl⟩

theorem eq_bytes_append_of_next? {s r : Text} {p : Piece}
    (h : next? s = some (p, r)) : s = p.bytes ++ r := by
  rcases next?_cases h with ⟨b, -, rfl, hs⟩ | ⟨c, rfl, hs⟩
  · exact hs
  · exact hs

/-- The pieces of a text make up the text. -/
theorem flatMap_bytes_pieces (s : Text) : (pieces s).flatMap Piece.bytes = s := by
  cases s with
  | nil => rw [pieces_nil, List.flatMap_nil]
  | cons b s =>
      obtain ⟨p, r, h⟩ := exists_next? b s
      rw [pieces_of_next? h, List.flatMap_cons, flatMap_bytes_pieces r,
        eq_bytes_append_of_next? h]
termination_by s.length
decreasing_by exact length_lt_of_next? h

/-- A text whose pieces are cut in two is cut in two. -/
theorem eq_append_of_pieces {s u v : Text} (h : pieces s = pieces u ++ pieces v) :
    s = u ++ v := by
  rw [← flatMap_bytes_pieces s, h, List.flatMap_append, flatMap_bytes_pieces,
    flatMap_bytes_pieces]

/-! ## Bytes that begin a piece -/

theorem isTail_of_isSecondOfThree {lead b : UInt8}
    (h : isSecondOfThree lead b = true) : isTail b = true := by
  obtain ⟨hlo, hhi, -⟩ := isSecondOfThree_iff.mp h
  exact isTail_iff.mpr ⟨hlo, hhi⟩

theorem isTail_of_isSecondOfFour {lead b : UInt8}
    (h : isSecondOfFour lead b = true) : isTail b = true := by
  obtain ⟨hlo, hhi, -⟩ := isSecondOfFour_iff.mp h
  exact isTail_iff.mpr ⟨hlo, hhi⟩

/-- A byte that is no continuation byte has no part in the pieces before it. -/
theorem next?_append_head {s r : Text} {p : Piece} {a : UInt8}
    (h : next? s = some (p, r)) (ha : isTail a = false) (v : Text) :
    next? (s ++ a :: v) = some (p, r ++ a :: v) := by
  have h2 : ∀ lead, isSecondOfThree lead a = false := by
    intro lead
    rw [← Bool.not_eq_true]
    exact fun htrue => by simp [isTail_of_isSecondOfThree htrue] at ha
  have h3 : ∀ lead, isSecondOfFour lead a = false := by
    intro lead
    rw [← Bool.not_eq_true]
    exact fun htrue => by simp [isTail_of_isSecondOfFour htrue] at ha
  -- At most four bytes are looked at, so it matters only how many of them
  -- stand before this byte.
  rcases s with _ | ⟨x, _ | ⟨y, _ | ⟨z, _ | ⟨w, t⟩⟩⟩⟩
  · simp [next?] at h
  · rcases v with _ | ⟨v, _ | ⟨v', vs⟩⟩ <;>
      simp only [next?, List.cons_append, List.nil_append, ha, h2, h3]
        at h ⊢ <;> grind
  · rcases v with _ | ⟨v, vs⟩ <;>
      simp only [next?, List.cons_append, List.nil_append, ha] at h ⊢ <;> grind
  · simp only [next?, List.cons_append, List.nil_append, ha] at h ⊢
    grind
  · simp only [next?, List.cons_append] at h ⊢
    grind

/-- Such a byte cuts the pieces of a text in two. -/
theorem pieces_append_head {a : UInt8} (ha : isTail a = false) (u v : Text) :
    pieces (u ++ a :: v) = pieces u ++ pieces (a :: v) := by
  cases u with
  | nil => simp
  | cons b u =>
      obtain ⟨p, r, h⟩ := exists_next? b u
      rw [pieces_of_next? h, pieces_of_next? (next?_append_head h ha v),
        pieces_append_head ha r v]
      rfl
termination_by u.length
decreasing_by exact length_lt_of_next? h

/-- What follows the first piece may be cut off somewhere, and the first piece
is still the same. -/
theorem next?_of_append {w u v : Text} {p : Piece}
    (h : next? (w ++ u ++ v) = some (p, u ++ v)) :
    next? (w ++ u) = some (p, u) := by
  rw [List.append_assoc] at h
  rcases next?_cases h with ⟨b, -, rfl, hw⟩ | ⟨c, rfl, hw⟩
  · obtain rfl : w = [b] :=
      List.append_cancel_right (show w ++ (u ++ v) = [b] ++ (u ++ v) from hw)
    obtain ⟨q, t, hq⟩ := exists_next? b u
    rw [List.singleton_append]
    rcases next?_cases hq with ⟨b', -, rfl, ht⟩ | ⟨c, rfl, ht⟩
    · obtain ⟨rfl, rfl⟩ := List.cons.inj ht
      exact hq
    · -- A character in front of the cut would also be there with the rest
      -- behind it.
      have hfull := next?_encodeChar c (t ++ v)
      rw [← List.append_assoc, ← ht, List.cons_append] at hfull
      rw [List.singleton_append, hfull] at h
      cases h
  · obtain rfl : w = encodeChar c := List.append_cancel_right hw
    exact next?_encodeChar c u

/-- The first piece in front of what is cut off behind it. -/
theorem pieces_bytes_append {s r x t : Text} {p : Piece}
    (hn : next? s = some (p, r)) (hr : pieces r = pieces x ++ pieces t) :
    pieces (p.bytes ++ x) = p :: pieces x := by
  obtain rfl := eq_append_of_pieces hr
  rw [eq_bytes_append_of_next? hn, ← List.append_assoc] at hn
  exact pieces_of_next? (next?_of_append hn)

/-- A cut between two pieces is in front of the first one or behind it. -/
theorem pieces_eq_append_iff {s r u t : Text} {p : Piece}
    (hn : next? s = some (p, r)) :
    pieces s = pieces u ++ pieces t ↔
      (u = [] ∧ t = s) ∨ ∃ x, pieces u = p :: pieces x ∧
      pieces r = pieces x ++ pieces t := by
  constructor
  · intro h
    cases u with
    | nil =>
        left
        exact ⟨rfl, (eq_append_of_pieces h).symm⟩
    | cons b u =>
        right
        obtain ⟨q, x, hq⟩ := exists_next? b u
        rw [pieces_of_next? hn, pieces_of_next? hq, List.cons_append] at h
        obtain ⟨rfl, hr⟩ := List.cons.inj h
        exact ⟨x, pieces_of_next? hq, hr⟩
  · rintro (⟨rfl, rfl⟩ | ⟨x, hu, hr⟩)
    · rw [pieces_nil, List.nil_append]
    · rw [pieces_of_next? hn, hu, hr, List.cons_append]

theorem chars_of_pieces {u x : Text} {p : Piece} (h : pieces u = p :: pieces x) :
    chars u = p.toChar :: chars x := by
  unfold chars
  rw [h, List.map_cons]

/-! ## ASCII bytes -/

theorem isTail_of_ascii {a : UInt8} (ha : IsAscii a) : isTail a = false := by
  rw [Bool.eq_false_iff, Ne, isTail_iff]
  rintro ⟨h, -⟩
  exact absurd ha (Nat.not_lt.mpr h)

/-- An ASCII byte has no part in the pieces before it. -/
theorem next?_append_ascii {s r : Text} {p : Piece} {a : UInt8}
    (h : next? s = some (p, r)) (ha : IsAscii a) (v : Text) :
    next? (s ++ a :: v) = some (p, r ++ a :: v) :=
  next?_append_head h (isTail_of_ascii ha) v

/-- An ASCII byte cuts the pieces of a text in two. -/
theorem pieces_append_ascii {a : UInt8} (ha : IsAscii a) (u v : Text) :
    pieces (u ++ a :: v) = pieces u ++ pieces (a :: v) :=
  pieces_append_head (isTail_of_ascii ha) u v

theorem pieces_cons_ascii {a : UInt8} (ha : IsAscii a) (v : Text) :
    pieces (a :: v) = .char (byteChar a) :: pieces v :=
  pieces_of_next? (next?_one ha v)

theorem chars_cons_ascii {a : UInt8} (ha : IsAscii a) (v : Text) :
    chars (a :: v) = byteChar a :: chars v :=
  chars_of_next? (next?_one ha v)

theorem chars_append_ascii {a : UInt8} (ha : IsAscii a) (u v : Text) :
    chars (u ++ a :: v) = chars u ++ byteChar a :: chars v := by
  rw [← chars_cons_ascii ha]
  unfold chars
  rw [pieces_append_ascii ha, List.map_append]

/-! ## Words of ASCII bytes -/

theorem chars_word_append {w : Text} (hw : ∀ b ∈ w, IsAscii b) (v : Text) :
    chars (w ++ v) = w.map byteChar ++ chars v := by
  induction w with
  | nil => rfl
  | cons b w ih =>
      rw [List.cons_append, chars_cons_ascii (hw b List.mem_cons_self),
        ih fun c hc => hw c (List.mem_cons_of_mem b hc)]
      rfl

theorem chars_word {w : Text} (hw : ∀ b ∈ w, IsAscii b) :
    chars w = w.map byteChar := by
  have h := chars_word_append hw []
  simpa using h

/-- The characters before a word, of the word and after it. -/
theorem chars_append_word {w : Text} (hw : ∀ b ∈ w, IsAscii b) (hne : w ≠ [])
    (u v : Text) :
    chars (u ++ w ++ v) = chars u ++ w.map byteChar ++ chars v := by
  obtain ⟨b, w, rfl⟩ := List.exists_cons_of_ne_nil hne
  have hb : IsAscii b := hw b List.mem_cons_self
  have hrest : ∀ c ∈ w, IsAscii c := fun c hc => hw c (List.mem_cons_of_mem b hc)
  rw [List.append_assoc, List.cons_append, chars_append_ascii hb,
    chars_word_append hrest]
  simp

/-- A first character that is ASCII is the first byte. -/
theorem eq_cons_of_chars_eq_cons {s : Text} {b : UInt8} {cs : List Char}
    (hb : IsAscii b) (h : chars s = byteChar b :: cs) :
    ∃ v, s = b :: v ∧ chars v = cs := by
  cases s with
  | nil => simp at h
  | cons a s =>
      obtain ⟨p, r, hn⟩ := exists_next? a s
      rw [chars_of_next? hn] at h
      obtain ⟨hp, hr⟩ := List.cons.inj h
      rcases next?_cases hn with ⟨x, -, rfl, -⟩ | ⟨c, rfl, hs⟩
      · have hx : (0xFFFD : Nat) = b.toNat := by
          rw [← byteChar_toNat b, ← hp]
          rfl
        unfold IsAscii at hb
        omega
      · have hc : c = byteChar b := hp
        rw [hc, encodeChar_byteChar hb] at hs
        exact ⟨r, hs, hr⟩

/-- A first byte that is not ASCII does not begin an ASCII character. -/
theorem le_toNat_of_chars_eq_cons {b : UInt8} {s : Text} {c : Char}
    {cs : List Char} (hb : ¬ IsAscii b) (h : chars (b :: s) = c :: cs) :
    0x80 ≤ c.toNat := by
  obtain ⟨p, r, hn⟩ := exists_next? b s
  rw [chars_of_next? hn] at h
  obtain ⟨rfl, -⟩ := List.cons.inj h
  rcases next?_cases hn with ⟨x, -, rfl, -⟩ | ⟨c, rfl, hs⟩
  · exact (by decide : 0x80 ≤ (Char.ofNat 0xFFFD).toNat)
  · by_contra hc
    have hlt : c.toNat < 0x80 := Nat.lt_of_not_le hc
    rw [encodeChar, if_pos hlt] at hs
    obtain ⟨rfl, -⟩ := List.cons.inj hs
    apply hb
    rw [IsAscii, toNat_toUInt8 (by omega)]
    exact hlt

theorem chars_eq_nil_iff {s : Text} : chars s = [] ↔ s = [] := by
  constructor
  · intro h
    cases s with
    | nil => rfl
    | cons b s =>
        obtain ⟨p, r, hn⟩ := exists_next? b s
        rw [chars_of_next? hn] at h
        cases h
  · rintro rfl
    exact chars_nil

/-- A character that is ASCII is a byte, and the text is cut in two by it. -/
theorem eq_append_of_chars_eq_append {s : Text} {b : UInt8} {cs ds : List Char}
    (hb : IsAscii b) (h : chars s = cs ++ byteChar b :: ds) :
    ∃ u v, s = u ++ b :: v ∧ chars u = cs ∧ chars v = ds := by
  induction cs generalizing s with
  | nil =>
      obtain ⟨v, rfl, hv⟩ := eq_cons_of_chars_eq_cons hb h
      exact ⟨[], v, rfl, chars_nil, hv⟩
  | cons c cs ih =>
      cases s with
      | nil => simp at h
      | cons a s =>
          obtain ⟨p, r, hn⟩ := exists_next? a s
          rw [chars_of_next? hn] at h
          obtain ⟨hp, hr⟩ := List.cons.inj h
          obtain ⟨u, v, rfl, hu, hv⟩ := ih hr
          obtain ⟨w, hw, hs⟩ := exists_append_of_next? hn
          refine ⟨w ++ u, v, by rw [hs, List.append_assoc], ?_, hv⟩
          -- The first piece of `w ++ u` is the same as with the ASCII byte
          -- after it.
          obtain ⟨x, xs, rfl⟩ := List.exists_cons_of_ne_nil hw
          obtain ⟨q, t, hq⟩ := exists_next? x (xs ++ u)
          have happ := next?_append_ascii hq hb v
          rw [List.cons_append, List.append_assoc, ← List.cons_append, ← hs, hn]
            at happ
          obtain ⟨rfl, ht⟩ := Prod.mk.inj (Option.some.inj happ)
          have htu : t = u := List.append_cancel_right ht.symm
          rw [List.cons_append, chars_of_next? hq, htu, hu, hp]

/-- A word of ASCII bytes at the beginning of the characters is there at the
beginning of the text. -/
theorem eq_append_of_chars_eq_word_append {s w : Text} {cs : List Char}
    (hw : ∀ b ∈ w, IsAscii b) (h : chars s = w.map byteChar ++ cs) :
    ∃ v, s = w ++ v ∧ chars v = cs := by
  induction w generalizing s with
  | nil => exact ⟨s, rfl, h⟩
  | cons b w ih =>
      obtain ⟨t, rfl, ht⟩ := eq_cons_of_chars_eq_cons (hw b List.mem_cons_self) h
      obtain ⟨v, rfl, hv⟩ := ih (fun c hc => hw c (List.mem_cons_of_mem b hc)) ht
      exact ⟨v, rfl, hv⟩

/-- A text of ASCII characters is a word of ASCII bytes. -/
theorem isAscii_of_chars {s : Text} (h : ∀ c ∈ chars s, c.toNat < 0x80) :
    ∀ b ∈ s, IsAscii b := by
  have hascii : ∀ c : Char, c.toNat < 0x80 → (ascii c).toNat = c.toNat :=
    fun c hc => toNat_toUInt8 (by omega)
  have hw : ∀ b ∈ (chars s).map ascii, IsAscii b := by
    intro b hb
    obtain ⟨c, hc, rfl⟩ := List.mem_map.mp hb
    rw [IsAscii, hascii c (h c hc)]
    exact h c hc
  have hchars : chars s = ((chars s).map ascii).map byteChar ++ [] := by
    rw [List.append_nil, List.map_map]
    conv_lhs => rw [← List.map_id (chars s)]
    apply List.map_congr_left
    intro c hc
    apply Char.toNat_inj.mp
    rw [Function.comp_apply, byteChar_toNat, hascii c (h c hc)]
    rfl
  obtain ⟨v, hs, hv⟩ := eq_append_of_chars_eq_word_append hw hchars
  rw [chars_eq_nil_iff.mp hv, List.append_nil] at hs
  rw [hs]
  exact hw

/-- A word of ASCII bytes among the characters is there among the bytes. -/
theorem chars_eq_append_word {s w : Text} {cs ds : List Char}
    (hw : ∀ b ∈ w, IsAscii b) (hne : w ≠ [])
    (h : chars s = cs ++ w.map byteChar ++ ds) :
    ∃ u v, s = u ++ w ++ v ∧ chars u = cs ∧ chars v = ds := by
  obtain ⟨b, w, rfl⟩ := List.exists_cons_of_ne_nil hne
  rw [List.append_assoc, List.map_cons, List.cons_append] at h
  obtain ⟨u, t, rfl, hu, ht⟩ :=
    eq_append_of_chars_eq_append (hw b List.mem_cons_self) h
  obtain ⟨v, rfl, hv⟩ :=
    eq_append_of_chars_eq_word_append
      (fun c hc => hw c (List.mem_cons_of_mem b hc)) ht
  exact ⟨u, v, by simp, hu, hv⟩

/-- A word of ASCII bytes is looked for among the bytes. -/
theorem afterChars?_word {w : Text} (hw : ∀ b ∈ w, IsAscii b) (s : Text) :
    afterChars? (w.map byteChar) s = after? w s := by
  induction w generalizing s with
  | nil => rfl
  | cons a w ih =>
      have ha : IsAscii a := hw a List.mem_cons_self
      have hrest := ih fun b hb => hw b (List.mem_cons_of_mem a hb)
      cases s with
      | nil => rfl
      | cons b s =>
          rw [List.map_cons, afterChars?, after?]
          by_cases hab : a = b
          · subst hab
            rw [next?_one ha, if_pos rfl]
            simp only [Piece.toChar, beq_self_eq_true, if_true]
            exact hrest s
          · obtain ⟨p, r, hn⟩ := exists_next? b s
            have hne : ¬ (p.toChar == byteChar a) = true := by
              intro heq
              have hchars := chars_of_next? hn
              rw [beq_iff_eq.mp heq] at hchars
              obtain ⟨v, hv, -⟩ := eq_cons_of_chars_eq_cons ha hchars
              exact hab (List.cons.inj hv).1.symm
            rw [hn, if_neg hab]
            simp only [if_neg hne]

/-- The bytes of a character that is not ASCII are not ASCII either. -/
theorem not_isAscii_of_mem_encodeChar {c : Char} (hc : 0x80 ≤ c.toNat) :
    ∀ b ∈ encodeChar c, ¬ IsAscii b := by
  have hlt : c.toNat < 0x110000 := by
    rcases c.valid with h | h
    · exact Nat.lt_trans h (by decide)
    · exact h.2
  have hbyte : ∀ n, 0x80 ≤ n → n < 256 → ¬ IsAscii n.toUInt8 := by
    intro n hlo hhi
    rw [IsAscii, toNat_toUInt8 hhi]
    omega
  unfold encodeChar
  simp only
  rw [if_neg (by omega)]
  split_ifs
  all_goals
    simp only [List.mem_cons, List.not_mem_nil, or_false, forall_eq_or_imp,
      forall_eq]
    exact ⟨hbyte _ (by omega) (by omega), by grind⟩

/-! ## Texts without stray bytes -/

/-- A text that is the UTF-8 form of some characters. -/
def IsEncoded (s : Text) : Prop := ∃ cs : List Char, s = cs.flatMap encodeChar

theorem isEncoded_utf8 (s : String) : IsEncoded (utf8 s) := ⟨s.toList, rfl⟩

theorem IsEncoded.append {s t : Text} (hs : IsEncoded s) (ht : IsEncoded t) :
    IsEncoded (s ++ t) := by
  obtain ⟨cs, rfl⟩ := hs
  obtain ⟨ds, rfl⟩ := ht
  exact ⟨cs ++ ds, by rw [List.flatMap_append]⟩

theorem isEncoded_word {w : Text} (hw : ∀ b ∈ w, IsAscii b) : IsEncoded w := by
  induction w with
  | nil => exact ⟨[], rfl⟩
  | cons b w ih =>
      obtain ⟨cs, rfl⟩ := ih fun c hc => hw c (List.mem_cons_of_mem b hc)
      refine ⟨byteChar b :: cs, ?_⟩
      rw [List.flatMap_cons, encodeChar_byteChar (hw b List.mem_cons_self)]
      rfl

theorem fromStray?_eq_none {s : Text} (hs : IsEncoded s) :
    fromStray? s = none := by
  obtain ⟨cs, rfl⟩ := hs
  induction cs with
  | nil =>
      rw [fromStray?.eq_def]
      rfl
  | cons c cs ih =>
      rw [List.flatMap_cons, fromStray?.eq_def]
      have hn := next?_encodeChar c (cs.flatMap encodeChar)
      split
      · rfl
      · simp_all
      · rename_i d r hd
        obtain ⟨-, rfl⟩ := Prod.mk.inj (Option.some.inj (hn.symm.trans hd))
        exact ih

theorem isTail_of_encodeChar {c : Char} {a : UInt8} {v : Text}
    (h : encodeChar c = a :: v) : isTail a = false := by
  have hn := next?_encodeChar c []
  rw [List.append_nil, h] at hn
  rw [Bool.eq_false_iff, Ne, isTail_iff]
  rintro ⟨hlo, hhi⟩
  -- A text that begins with a continuation byte begins with a stray byte.
  have hstray : next? (a :: v) = some (.stray a, v) := by
    simp only [next?, UInt8.lt_iff_toNat_lt, UInt8.le_iff_toNat_le,
      Bool.and_eq_true, decide_eq_true_eq]
    rw [if_neg, if_neg, if_neg, if_neg] <;> simp <;> omega
  rw [hstray] at hn
  cases hn

/-- The pieces of the UTF-8 form of some characters are these characters. -/
theorem pieces_flatMap_encodeChar (cs : List Char) :
    pieces (cs.flatMap encodeChar) = cs.map .char := by
  induction cs with
  | nil => exact pieces_nil
  | cons c cs ih =>
      rw [List.flatMap_cons, pieces_of_next? (next?_encodeChar c _), ih,
        List.map_cons]

/-- A text is the UTF-8 form of some characters if and only if no piece of it is
a stray byte. -/
theorem isEncoded_iff {s : Text} :
    IsEncoded s ↔ ∀ p ∈ pieces s, p.isChar = true := by
  constructor
  · rintro ⟨cs, rfl⟩ p hp
    rw [pieces_flatMap_encodeChar] at hp
    obtain ⟨c, -, rfl⟩ := List.mem_map.mp hp
    rfl
  · intro h
    cases s with
    | nil => exact ⟨[], rfl⟩
    | cons b s =>
        obtain ⟨p, r, hn⟩ := exists_next? b s
        rw [pieces_of_next? hn, List.forall_mem_cons] at h
        obtain ⟨cs, hr⟩ := isEncoded_iff.mpr h.2
        rcases next?_cases hn with ⟨x, -, rfl, -⟩ | ⟨c, rfl, hs⟩
        · cases h.1
        · exact ⟨c :: cs, by rw [hs, List.flatMap_cons, ← hr]⟩
termination_by s.length
decreasing_by exact length_lt_of_next? hn

/-- Texts without stray bytes are the same if they have the same characters. -/
theorem IsEncoded.eq_of_chars {s t : Text} (hs : IsEncoded s) (ht : IsEncoded t)
    (h : chars s = chars t) : s = t := by
  have hchars : ∀ cs : List Char, chars (cs.flatMap encodeChar) = cs := by
    intro cs
    rw [chars, pieces_flatMap_encodeChar, List.map_map]
    exact List.map_id cs
  obtain ⟨cs, rfl⟩ := hs
  obtain ⟨ds, rfl⟩ := ht
  rw [hchars, hchars] at h
  rw [h]

/-- A stray byte reads as the replacement character. -/
theorem isEncoded_of_replacement_notMem {s : Text}
    (h : Piece.replacement ∉ chars s) : IsEncoded s := by
  rw [isEncoded_iff]
  intro p hp
  cases p with
  | char c => rfl
  | stray b => exact absurd (List.mem_map_of_mem hp) h

/-- A text without stray bytes begins with a piece of its own, whatever stands
before it. -/
theorem pieces_append_of_isEncoded {x : Text} (hx : IsEncoded x) (u : Text) :
    pieces (u ++ x) = pieces u ++ pieces x := by
  obtain ⟨cs, rfl⟩ := hx
  cases cs with
  | nil => simp
  | cons c cs =>
      obtain ⟨a, v, hv⟩ := List.exists_cons_of_ne_nil (encodeChar_ne_nil c)
      rw [List.flatMap_cons, hv, List.cons_append]
      exact pieces_append_head (isTail_of_encodeChar hv) u _

end Text

end ToolLint
