import ToolLint.Proofs.References
import ToolLint.Proofs.Text.Lines
import Mathlib.Data.List.Induction

/-!
# Constructions of a module

`Module.Constructs` says of the bytes of a text that it has a construction:
`new`, the module and the beginning of a call, or the module and `->new`. What
counts as the module there is left open. The search looks at characters, and for
it a stray byte reads as the replacement character, so the module is what reads
as its name (`StandsFor`). This is the name itself if the name has no
replacement character in it or the text has no stray bytes (`standsFor_iff_eq`).
-/

namespace ToolLint

namespace Text

/-! ## The characters at a place of a text -/

/-- The characters that a text begins with are a part of it that is cut off
between two pieces. -/
theorem afterChars?_eq_some_iff {cs : List Char} {s t : Text} :
    afterChars? cs s = some t ↔
      ∃ x, chars x = cs ∧ pieces s = pieces x ++ pieces t := by
  induction cs generalizing s with
  | nil =>
      constructor
      · rintro ⟨rfl⟩
        exact ⟨[], chars_nil, by rw [pieces_nil, List.nil_append]⟩
      · rintro ⟨x, hx, hpieces⟩
        rw [eq_append_of_pieces hpieces, chars_eq_nil_iff.mp hx]
        rfl
  | cons c cs ih =>
      cases s with
      | nil =>
          constructor
          · intro h
            cases h
          · rintro ⟨x, hx, hpieces⟩
            rw [(List.append_eq_nil_iff.mp (eq_append_of_pieces hpieces).symm).1,
              chars_nil] at hx
            cases hx
      | cons b s =>
          obtain ⟨p, r, hn⟩ := exists_next? b s
          have hstep : afterChars? (c :: cs) (b :: s) = if p.toChar == c then
              afterChars? cs r else none := by
            rw [afterChars?, hn]
          rw [hstep]
          simp only [pieces_eq_append_iff hn]
          constructor
          · intro h
            split at h
            · rename_i hc
              obtain ⟨x, hx, hr⟩ := ih.mp h
              have hpieces := pieces_bytes_append hn hr
              refine ⟨p.bytes ++ x, ?_, Or.inr ⟨x, hpieces, hr⟩⟩
              rw [chars_of_pieces hpieces, hx, beq_iff_eq.mp hc]
            · cases h
          · rintro ⟨x, hx, ⟨rfl, -⟩ | ⟨y, hy, hr⟩⟩
            · rw [chars_nil] at hx
              cases hx
            · rw [chars_of_pieces hy] at hx
              obtain ⟨rfl, hcs⟩ := List.cons.inj hx
              rw [if_pos (beq_self_eq_true _)]
              exact ih.mpr ⟨y, hcs, hr⟩

/-- After an ASCII byte a new piece begins. -/
theorem pieces_append_of_getLast? {u : Text} {a : UInt8}
    (hu : u.getLast? = some a) (ha : IsAscii a) (x : Text) :
    pieces (u ++ x) = pieces u ++ pieces x := by
  obtain ⟨u, rfl⟩ := List.getLast?_eq_some_iff.mp hu
  have hcut := pieces_append_ascii ha u
  rw [List.append_assoc, List.singleton_append, hcut, hcut, pieces_cons_ascii ha,
    pieces_cons_ascii ha, pieces_nil, List.append_assoc]
  rfl

/-- Before an ASCII byte a piece ends. -/
theorem pieces_append_of_head? {v : Text} {a : UInt8} (hv : v.head? = some a)
    (ha : IsAscii a) (x : Text) : pieces (x ++ v) = pieces x ++ pieces v := by
  obtain ⟨v, rfl⟩ := List.head?_eq_some_iff.mp hv
  exact pieces_append_ascii ha x v

/-- A class of ASCII characters has the last character of a text if it has the
last byte. -/
theorem any_getLast?_chars {p : Char → Bool} {q : UInt8 → Bool}
    (hascii : ∀ b, IsAscii b → p (byteChar b) = q b)
    (hp : ∀ c, 0x80 ≤ c.toNat → p c = false)
    (hq : ∀ b, ¬ IsAscii b → q b = false) (u : Text) :
    u.chars.getLast?.any p = u.getLast?.any q := by
  induction u using List.reverseRecOn with
  | nil => rw [chars_nil]; rfl
  | append_singleton u b _ =>
      rw [List.getLast?_concat, Option.any_some]
      by_cases hb : IsAscii b
      · rw [chars_append_ascii hb, chars_nil, List.getLast?_concat,
          Option.any_some, hascii b hb]
      · rw [hq b hb]
        -- If the last character were ASCII, it would be the last byte.
        cases hlast : (chars (u ++ [b])).getLast? with
        | none => rfl
        | some c =>
            rw [Option.any_some]
            apply hp
            by_contra hc
            have hlt : c.toNat < 0x80 := Nat.lt_of_not_le hc
            have hbyte : byteChar c.toNat.toUInt8 = c := by
              rw [byteChar, toNat_toUInt8 (by omega), Char.ofNat_toNat]
            obtain ⟨cs, hcs⟩ := List.getLast?_eq_some_iff.mp hlast
            rw [← hbyte] at hcs
            have hisAscii : IsAscii c.toNat.toUInt8 := by
              rwa [IsAscii, toNat_toUInt8 (by omega)]
            obtain ⟨v, w, hsplit, -, hw⟩ :=
              eq_append_of_chars_eq_append hisAscii hcs
            rw [chars_eq_nil_iff.mp hw] at hsplit
            obtain ⟨-, rfl⟩ := List.append_singleton_inj.mp hsplit
            exact hb hisAscii

end Text

namespace Module

/-! ## Classes before and after a construction -/

theorem isGap_iff {b : UInt8} :
    isGap b = true ↔ b = tab ∨ b = lf ∨ b = 0x0C ∨ b = cr ∨ b = space := by
  simp only [isGap, Bool.or_eq_true, beq_iff_eq, or_assoc]

theorem isAscii_of_isGap {b : UInt8} (hb : isGap b = true) : IsAscii b := by
  rcases isGap_iff.mp hb with rfl | rfl | rfl | rfl | rfl
  all_goals decide

theorem isNameByte_of_isGap {b : UInt8} (hb : isGap b = true) :
    isNameByte b = false := by
  rcases isGap_iff.mp hb with rfl | rfl | rfl | rfl | rfl
  all_goals decide

def isWordChar (c : Char) : Bool := c.isAlphanum || c == '_'

theorem isWordChar_iff {c : Char} : isWordChar c = true ↔
    (0x41 ≤ c.toNat ∧ c.toNat ≤ 0x5A) ∨ (0x61 ≤ c.toNat ∧ c.toNat ≤ 0x7A) ∨
      (0x30 ≤ c.toNat ∧ c.toNat ≤ 0x39) ∨ c.toNat = 0x5F := by
  have hunderscore : c = '_' ↔ c.toNat = 0x5F := by
    rw [← Char.toNat_inj]
    rfl
  unfold isWordChar Char.isAlphanum Char.isAlpha Char.isUpper Char.isLower Char.isDigit
  simp only [Bool.or_eq_true, Bool.and_eq_true, decide_eq_true_eq, ge_iff_le,
    UInt32.le_iff_toNat_le, beq_iff_eq, hunderscore, or_assoc]
  rfl

theorem isWordChar_byteChar (b : UInt8) : isWordChar (byteChar b) = isWord b := by
  rw [Bool.eq_iff_iff, isWordChar_iff, isWord_iff, byteChar_toNat]

/-- The character before a place is one of a word if and only if the byte is. -/
theorem any_isWordChar_getLast? (u : Text) :
    u.chars.getLast?.any isWordChar = u.getLast?.any isWord := by
  apply Text.any_getLast?_chars
  · exact fun b _ => isWordChar_byteChar b
  · intro c hc
    rw [← Bool.not_eq_true, isWordChar_iff]
    omega
  · intro b hb
    rw [← Bool.not_eq_true, isWord_iff]
    unfold IsAscii at hb
    omega

theorem any_isNameChar_getLast? (u : Text) :
    u.chars.getLast?.any (fun c => isWordChar c || c == ':') =
      u.getLast?.any isNameByte := by
  have hcolon : ∀ c : Char, c = ':' ↔ c.toNat = 0x3A := by
    intro c
    rw [← Char.toNat_inj]
    rfl
  apply Text.any_getLast?_chars
  · intro b _
    rw [isWordChar_byteChar, isNameByte, Bool.eq_iff_iff, Bool.or_eq_true,
      Bool.or_eq_true, beq_iff_eq, beq_iff_eq, hcolon, byteChar_toNat,
      ← UInt8.toNat_inj]
    rfl
  · intro c hc
    rw [← Bool.not_eq_true, Bool.or_eq_true, beq_iff_eq, isWordChar_iff, hcolon]
    omega
  · intro b hb
    rw [← Bool.not_eq_true]
    exact fun h => hb (isAscii_of_isNameByte h)

/-! ## Constructions -/

/-- The text has `new`, a gap, the module, and after another gap or none the
beginning of a call. `module u x` says that `x` is the module if it stands after
`u`. -/
def CallsNew (module : Text → Text → Prop) (text : Text) : Prop :=
  ∃ u gap x gap' c v, text = u ++ utf8 "new" ++ gap ++ x ++ gap' ++ c :: v ∧
    (∀ b ∈ u.getLast?, isWord b = false) ∧ gap ≠ [] ∧
    (∀ b ∈ gap, isGap b = true) ∧
    module (u ++ utf8 "new" ++ gap) x ∧ (∀ b ∈ gap', isGap b = true) ∧
    (c = ascii '(' ∨ c = ascii ';')

/-- The text has the module with `->new` after it. No longer name ends with it,
and no longer word begins with `new`. -/
def CallsArrow (module : Text → Text → Prop) (text : Text) : Prop :=
  ∃ u x v, text = u ++ x ++ utf8 "->new" ++ v ∧
    (∀ b ∈ u.getLast?, isNameByte b = false) ∧
    module u x ∧ ∀ b ∈ v.head?, isWord b = false

def Constructs (module : Text → Text → Prop) (text : Text) : Prop :=
  CallsNew module text ∨ CallsArrow module text

/-- After the text `u`, the text `x` reads as the name: it begins with a piece
of its own, and has the characters of the name. -/
def StandsFor (name u x : Text) : Prop :=
  x.chars = name.chars ∧ (u ++ x).pieces = u.pieces ++ x.pieces

theorem opensCall_iff {s : Text} : opensCall s = true ↔
    ∃ gap c v, s = gap ++ c :: v ∧ (∀ b ∈ gap, isGap b = true) ∧
      (c = ascii '(' ∨ c = ascii ';') := by
  unfold opensCall
  constructor
  · intro h
    have hsplit := List.takeWhile_append_dropWhile (p := isGap) (l := s)
    split at h
    · cases h
    · rename_i c v hdrop
      rw [hdrop] at hsplit
      rw [Bool.or_eq_true, beq_iff_eq, beq_iff_eq] at h
      exact ⟨_, c, v, hsplit.symm, List.all_eq_true.mp List.all_takeWhile, h⟩
  · rintro ⟨gap, c, v, rfl, hgap, hc⟩
    have hstop : ∀ b ∈ (c :: v).head?, isGap b = false := by
      rintro _ ⟨rfl⟩
      rcases hc with rfl | rfl
      all_goals decide
    rw [Text.dropWhile_append_of_head hgap hstop]
    simpa using hc

theorem head?_gap_append {gap v : Text} {c : UInt8}
    (hgap : ∀ b ∈ gap, isGap b = true) (hc : IsAscii c) :
    ∃ a, (gap ++ c :: v).head? = some a ∧ IsAscii a := by
  cases gap with
  | nil => exact ⟨c, rfl, hc⟩
  | cons a gap => exact ⟨a, rfl, isAscii_of_isGap (hgap a List.mem_cons_self)⟩

theorem isAscii_of_opening {c : UInt8} (hc : c = ascii '(' ∨ c = ascii ';') :
    IsAscii c := by
  rcases hc with rfl | rfl
  all_goals decide

/-- The name and the beginning of a call. -/
theorem opensCall_afterChars?_iff {name t : Text} :
    ((t.afterChars? name.chars).map opensCall).getD false = true ↔
      ∃ (x gap : Text) (c : UInt8) (v : Text), t = x ++ gap ++ c :: v ∧
        x.chars = name.chars ∧
        (∀ b ∈ gap, isGap b = true) ∧ (c = ascii '(' ∨ c = ascii ';') := by
  constructor
  · intro h
    cases hafter : t.afterChars? name.chars with
    | none =>
        rw [hafter] at h
        cases h
    | some r =>
        rw [hafter] at h
        obtain ⟨x, hx, hpieces⟩ := Text.afterChars?_eq_some_iff.mp hafter
        obtain ⟨gap, c, v, rfl, hgap, hc⟩ := opensCall_iff.mp h
        exact ⟨x, gap, c, v,
          by rw [Text.eq_append_of_pieces hpieces, List.append_assoc], hx, hgap, hc⟩
  · rintro ⟨x, gap, c, v, rfl, hx, hgap, hc⟩
    -- What follows the name is ASCII, so a piece ends with the name.
    obtain ⟨a, hhead, ha⟩ :=
      head?_gap_append (v := v) hgap (isAscii_of_opening hc)
    rw [List.append_assoc,
      Text.afterChars?_eq_some_iff.mpr ⟨x, hx,
        Text.pieces_append_of_head? hhead ha x⟩]
    exact opensCall_iff.mpr ⟨gap, c, v, rfl, hgap, hc⟩

theorem beginsNew_iff {name s : Text} : beginsNew name.chars s = true ↔
    ∃ (gap x gap' : Text) (c : UInt8) (v : Text),
      s = utf8 "new" ++ gap ++ x ++ gap' ++ c :: v ∧ gap ≠ [] ∧
      (∀ b ∈ gap, isGap b = true) ∧ x.chars = name.chars ∧
      (∀ b ∈ gap', isGap b = true) ∧
      (c = ascii '(' ∨ c = ascii ';') := by
  unfold beginsNew
  constructor
  · intro h
    split at h
    · cases h
    · rename_i r hr
      obtain ⟨gap, t, hne, hgap, rfl, ht⟩ := Text.afterSome_iff.mp h
      obtain ⟨x, gap', c, v, rfl, hx, hgap', hc⟩ :=
        opensCall_afterChars?_iff.mp ht
      refine ⟨gap, x, gap', c, v, ?_, hne, hgap, hx, hgap', hc⟩
      rw [Text.after?_eq_some_iff.mp hr]
      simp only [List.append_assoc]
  · rintro ⟨gap, x, gap', c, v, rfl, hne, hgap, hx, hgap', hc⟩
    have hr :
        Text.after? (utf8 "new") (utf8 "new" ++ gap ++ x ++ gap' ++ c :: v) =
        some (gap ++ (x ++ gap' ++ c :: v)) := by
      rw [Text.after?_eq_some_iff]
      simp only [List.append_assoc]
    rw [hr]
    exact Text.afterSome_iff.mpr ⟨gap, _, hne, hgap, rfl,
      opensCall_afterChars?_iff.mpr ⟨x, gap', c, v, rfl, hx, hgap', hc⟩⟩

theorem beginsArrow_iff {name s : Text} : beginsArrow name.chars s = true ↔
    ∃ x v : Text, s = x ++ utf8 "->new" ++ v ∧ x.chars = name.chars ∧
      ∀ b ∈ v.head?, isWord b = false := by
  have hbind : ∀ v,
      (s.afterChars? name.chars).bind (Text.after? (utf8 "->new")) = some v ↔
      ∃ x : Text, s = x ++ utf8 "->new" ++ v ∧ x.chars = name.chars := by
    intro v
    rw [Option.bind_eq_some_iff]
    constructor
    · rintro ⟨r, hr, hv⟩
      obtain ⟨x, hx, hpieces⟩ := Text.afterChars?_eq_some_iff.mp hr
      refine ⟨x, ?_, hx⟩
      rw [Text.eq_append_of_pieces hpieces, Text.after?_eq_some_iff.mp hv,
        List.append_assoc]
    · rintro ⟨x, rfl, hx⟩
      refine ⟨utf8 "->new" ++ v, ?_, Text.after?_eq_some_iff.mpr rfl⟩
      rw [List.append_assoc, Text.afterChars?_eq_some_iff]
      exact ⟨x, hx,
        Text.pieces_append_of_head? (a := ascii '-') rfl (by decide) x⟩
  unfold beginsArrow
  cases hafter : (s.afterChars? name.chars).bind (Text.after? (utf8 "->new")) with
  | none =>
      refine iff_of_false (by simp) ?_
      rintro ⟨x, v, hs, hx, -⟩
      rw [(hbind v).mpr ⟨x, hs, hx⟩] at hafter
      cases hafter
  | some v =>
      obtain ⟨x, hs, hx⟩ := (hbind v).mp hafter
      have hiff :
          (∃ x v : Text, s = x ++ utf8 "->new" ++ v ∧ x.chars = name.chars ∧
          ∀ b ∈ v.head?, isWord b = false) ↔ ∀ b ∈ v.head?, isWord b = false := by
        constructor
        · rintro ⟨x', v', hs', hx', hv'⟩
          have hsame := (hbind v').mpr ⟨x', hs', hx'⟩
          rw [hafter] at hsame
          rwa [Option.some.inj hsame]
        · exact fun hv => ⟨x, v, hs, hx, hv⟩
      rw [hiff]
      cases v with
      | nil => simp
      | cons b v => simp

theorem beginsConstruction_iff {cs : List Char} {u s : Text} :
    beginsConstruction cs u.chars.getLast? s = true ↔
      ((∀ b ∈ u.getLast?, isWord b = false) ∧ beginsNew cs s = true) ∨
        ((∀ b ∈ u.getLast?, isNameByte b = false) ∧ beginsArrow cs s = true) := by
  have hname : (u.chars.getLast?.any isWordChar || u.chars.getLast? == some ':') =
      u.chars.getLast?.any fun c => isWordChar c || c == ':' := by
    cases u.chars.getLast? <;> rfl
  have hnone : ∀ (q : UInt8 → Bool), (!u.getLast?.any q) = true ↔
      ∀ b ∈ u.getLast?, q b = false := by
    intro q
    cases u.getLast? <;> simp
  show (!u.chars.getLast?.any isWordChar && beginsNew cs s ||
    !(u.chars.getLast?.any isWordChar || u.chars.getLast? == some ':') &&
      beginsArrow cs s) = true ↔ _
  rw [hname, any_isWordChar_getLast?, any_isNameChar_getLast?, Bool.or_eq_true,
    Bool.and_eq_true, Bool.and_eq_true, hnone, hnone]

theorem constructedFrom_of_next? {cs : List Char} {before : Option Char}
    {s r : Text} {p : Piece} (h : s.next? = some (p, r)) :
    constructedFrom cs before s =
      (beginsConstruction cs before s ||
        constructedFrom cs (some p.toChar) r) := by
  rw [constructedFrom.eq_def]
  split
  · simp_all
  · rename_i q t hq
    obtain ⟨rfl, rfl⟩ := Prod.mk.inj (Option.some.inj (hq.symm.trans h))
    rfl

/-- The search goes through all places between two pieces. -/
theorem constructedFrom_iff {cs : List Char} {before : Option Char} {s : Text} :
    constructedFrom cs before s = true ↔ ∃ u r : Text,
      s.pieces = u.pieces ++ r.pieces ∧
      beginsConstruction cs (u.chars.getLast?.or before) r = true := by
  cases s with
  | nil =>
      rw [constructedFrom.eq_def]
      constructor
      · intro h
        exact ⟨[], [], by rw [Text.pieces_nil]; rfl,
          by rw [Text.chars_nil]; exact h⟩
      · rintro ⟨u, r, hpieces, h⟩
        obtain ⟨rfl, rfl⟩ :=
          List.append_eq_nil_iff.mp (Text.eq_append_of_pieces hpieces).symm
        rw [Text.chars_nil] at h
        exact h
  | cons b s =>
      obtain ⟨p, r, hn⟩ := Text.exists_next? b s
      have hlast : ∀ u x : Text, u.pieces = p :: x.pieces →
          u.chars.getLast?.or before = x.chars.getLast?.or (some p.toChar) := by
        intro u x hu
        rw [Text.chars_of_pieces hu, List.getLast?_cons]
        cases x.chars.getLast? <;> rfl
      rw [constructedFrom_of_next? hn, Bool.or_eq_true, constructedFrom_iff]
      simp only [Text.pieces_eq_append_iff hn]
      constructor
      · rintro (h | ⟨x, t, hr, h⟩)
        · exact ⟨[], b :: s, Or.inl ⟨rfl, rfl⟩, by rw [Text.chars_nil]; exact h⟩
        · have hpieces := Text.pieces_bytes_append hn hr
          exact ⟨p.bytes ++ x, t, Or.inr ⟨x, hpieces, hr⟩,
            by rw [hlast _ x hpieces]; exact h⟩
      · rintro ⟨u, t, ⟨rfl, rfl⟩ | ⟨x, hu, hr⟩, h⟩
        · rw [Text.chars_nil] at h
          exact Or.inl h
        · rw [hlast u x hu] at h
          exact Or.inr ⟨x, t, hr, h⟩
termination_by s.length
decreasing_by exact Text.length_lt_of_next? hn

theorem pieces_append_arrow (x v : Text) :
    (x ++ utf8 "->new" ++ v).pieces = x.pieces ++ (utf8 "->new" ++ v).pieces := by
  rw [List.append_assoc]
  exact Text.pieces_append_of_head? (a := ascii '-') rfl (by decide) x

theorem standsFor_of_gap {name gap x : Text} (hne : gap ≠ [])
    (hgap : ∀ b ∈ gap, isGap b = true) (hx : x.chars = name.chars) (u : Text) :
    StandsFor name (u ++ gap) x := by
  obtain ⟨gap, g, rfl⟩ := (List.eq_nil_or_concat gap).resolve_left hne
  have hg : IsAscii g := isAscii_of_isGap (hgap g (by simp))
  exact ⟨hx, Text.pieces_append_of_getLast? (by simp) hg x⟩

/-- **The search finds a module if and only if the text has a construction of
something that reads as its name.** -/
theorem constructed_iff {text name : Text} :
    constructed text name = true ↔ Constructs (StandsFor name) text := by
  unfold constructed
  rw [constructedFrom_iff]
  simp only [Option.or_none, beginsConstruction_iff, beginsNew_iff,
    beginsArrow_iff]
  constructor
  · rintro ⟨u, r, hpieces, ⟨hu, gap, x, gap', c, v, rfl, hne, hgap, hx, hgap', hc⟩
      | ⟨hu, x, v, rfl, hx, hv⟩⟩
    · left
      refine ⟨u, gap, x, gap', c, v, ?_, hu, hne, hgap,
        standsFor_of_gap hne hgap hx _, hgap', hc⟩
      rw [Text.eq_append_of_pieces hpieces]
      simp only [List.append_assoc]
    · right
      have htext : text = u ++ x ++ utf8 "->new" ++ v := by
        rw [Text.eq_append_of_pieces hpieces]
        simp only [List.append_assoc]
      refine ⟨u, x, v, htext, hu, ⟨hx, ?_⟩, hv⟩
      rw [htext, pieces_append_arrow, pieces_append_arrow, ← List.append_assoc]
        at hpieces
      exact List.append_cancel_right hpieces
  · rintro (⟨u, gap, x, gap', c, v, rfl, hu, hne, hgap, ⟨hx, -⟩, hgap', hc⟩
      | ⟨u, x, v, rfl, hu, ⟨hx, hcut⟩, hv⟩)
    · refine ⟨u, utf8 "new" ++ gap ++ x ++ gap' ++ c :: v, ?_,
        Or.inl ⟨hu, gap, x, gap', c, v, rfl, hne, hgap, hx,
        hgap', hc⟩⟩
      rw [← Text.pieces_append_of_head? (a := ascii 'n') rfl (by decide)]
      simp only [List.append_assoc]
    · refine ⟨u, x ++ utf8 "->new" ++ v, ?_, Or.inr ⟨hu, x, v, rfl, hx, hv⟩⟩
      rw [pieces_append_arrow, pieces_append_arrow, hcut, List.append_assoc]

/-! ## The name itself -/

/-- What counts as the module matters only in front of an ASCII byte. -/
theorem Constructs.imp {P Q : Text → Text → Prop} {text : Text}
    (h : Constructs P text)
    (himp : ∀ u x a v, text = u ++ x ++ a :: v → IsAscii a → P u x → Q u x) :
    Constructs Q text := by
  rcases h with ⟨u, gap, x, gap', c, v, htext, hu, hne, hgap, hx, hgap', hc⟩
    | ⟨u, x, v, htext, hu, hx, hv⟩
  · left
    obtain ⟨a, hhead, ha⟩ :=
      head?_gap_append (v := v) hgap' (isAscii_of_opening hc)
    obtain ⟨r, hr⟩ := List.head?_eq_some_iff.mp hhead
    refine ⟨u, gap, x, gap', c, v, htext, hu, hne, hgap, himp _ x a r ?_ ha hx,
      hgap', hc⟩
    rw [htext, List.append_assoc _ gap', hr]
  · right
    refine ⟨u, x, v, htext, hu,
      himp u x (ascii '-') (utf8 ">new" ++ v) ?_ (by decide) hx, hv⟩
    rw [htext, List.append_assoc]
    rfl

/-- What reads as the name is the name, if the name has no replacement character
or the text has no stray bytes. -/
theorem standsFor_iff_eq {name u x v : Text} {a : UInt8}
    (hname : name.IsEncoded) (ha : IsAscii a)
    (hexact : Piece.replacement ∉ name.chars ∨ (u ++ x ++ a :: v).IsEncoded) :
    StandsFor name u x ↔ x = name := by
  constructor
  · rintro ⟨hchars, hcut⟩
    have hx : x.IsEncoded := by
      rcases hexact with hreplacement | htext
      · rw [← hchars] at hreplacement
        exact Text.isEncoded_of_replacement_notMem hreplacement
      · rw [Text.isEncoded_iff, Text.pieces_append_ascii ha, hcut] at htext
        rw [Text.isEncoded_iff]
        intro p hp
        exact htext p (List.mem_append_left _ (List.mem_append_right _ hp))
    exact hx.eq_of_chars hname hchars
  · rintro rfl
    exact ⟨rfl, Text.pieces_append_of_isEncoded hname u⟩

abbrev ConstructsName (name text : Text) : Prop :=
  Constructs (fun _ x => x = name) text

theorem constructed_iff_constructsName {text name : Text} (hname : name.IsEncoded)
    (hexact : Piece.replacement ∉ name.chars ∨ text.IsEncoded) :
    constructed text name = true ↔ ConstructsName name text := by
  have hiff : ∀ u x a v, text = u ++ x ++ a :: v → IsAscii a →
      (StandsFor name u x ↔ x = name) := by
    rintro u x a v rfl ha
    exact standsFor_iff_eq hname ha hexact
  rw [constructed_iff]
  constructor
  · exact fun h => h.imp fun u x a v htext ha => (hiff u x a v htext ha).mp
  · exact fun h => h.imp fun u x a v htext ha => (hiff u x a v htext ha).mpr

/-! ## Lines before and after a construction -/

theorem Constructs.append_lf {P : Text → Text → Prop} {text : Text}
    (h : Constructs P text) (other : Text) :
    Constructs P (text ++ lf :: other) := by
  rcases h with ⟨u, gap, x, gap', c, v, rfl, hrest⟩ | ⟨u, x, v, rfl, hu, hx, hv⟩
  · left
    exact ⟨u, gap, x, gap', c, v ++ lf :: other,
      by simp only [List.append_assoc, List.cons_append], hrest⟩
  · right
    refine ⟨u, x, v ++ lf :: other, by simp only [List.append_assoc], hu, hx, ?_⟩
    cases v with
    | nil =>
        rintro _ ⟨rfl⟩
        decide
    | cons b v => exact hv

/-- A line feed is as good as the beginning of the text. -/
theorem forall_getLast?_append_lf {q : UInt8 → Bool} {u : Text}
    (hq : q lf = false) (hu : ∀ b ∈ u.getLast?, q b = false) (text : Text) :
    ∀ b ∈ (text ++ lf :: u).getLast?, q b = false := by
  intro b hb
  rw [List.getLast?_append_cons, List.getLast?_cons] at hb
  cases hlast : u.getLast? with
  | none =>
      rw [hlast] at hb
      obtain rfl := Option.mem_some_iff.mp hb
      exact hq
  | some c =>
      rw [hlast] at hb
      exact hu b (hlast ▸ hb)

theorem Constructs.lf_append {P Q : Text → Text → Prop} {text other : Text}
    (h : Constructs P other) (himp : ∀ u x, P u x → Q (text ++ lf :: u) x) :
    Constructs Q (text ++ lf :: other) := by
  rcases h with ⟨u, gap, x, gap', c, v, rfl, hu, hne, hgap, hx, hrest⟩
    | ⟨u, x, v, rfl, hu, hx, hv⟩
  · left
    refine ⟨text ++ lf :: u, gap, x, gap', c, v,
      by simp only [List.append_assoc, List.cons_append],
      forall_getLast?_append_lf (by decide) hu text, hne, hgap, ?_, hrest⟩
    have := himp _ x hx
    simpa only [List.append_assoc, List.cons_append] using this
  · right
    exact ⟨text ++ lf :: u, x, v,
      by simp only [List.append_assoc, List.cons_append],
      forall_getLast?_append_lf (by decide) hu text, himp u x hx, hv⟩

theorem StandsFor.lf_append {name u x : Text} (h : StandsFor name u x)
    (text : Text) : StandsFor name (text ++ lf :: u) x := by
  have hlf : IsAscii lf := by decide
  refine ⟨h.1, ?_⟩
  rw [List.append_assoc, List.cons_append, Text.pieces_append_ascii hlf,
    Text.pieces_append_ascii hlf, Text.pieces_cons_ascii hlf,
    Text.pieces_cons_ascii hlf, h.2, List.append_assoc, List.cons_append]

/-! ## Constructions of other modules -/

section Other

variable {name other scope : Text}

/-- Without a gap there is no `new` with something after it. -/
theorem CallsNew.exists_gap {P : Text → Text → Prop} {text : Text}
    (h : CallsNew P text) : ∃ b ∈ text, isGap b = true := by
  obtain ⟨u, gap, x, gap', c, v, rfl, -, hne, hgap, -⟩ := h
  obtain ⟨b, gap, rfl⟩ := List.exists_cons_of_ne_nil hne
  exact ⟨b, by simp, hgap b List.mem_cons_self⟩

theorem CallsArrow.hyphen_mem {P : Text → Text → Prop} {text : Text}
    (h : CallsArrow P text) : ascii '-' ∈ text := by
  obtain ⟨u, x, v, rfl, -⟩ := h
  have hmem : ascii '-' ∈ utf8 "->new" := List.mem_cons_self
  simp [hmem]

/-- A name with `->new` after it constructs no module with another name. -/
theorem not_constructsName_arrow (hother : ∀ b ∈ other, isNameByte b = true)
    (hne : name ≠ other) : ¬ ConstructsName name (other ++ utf8 "->new") := by
  rintro (hnew | ⟨u, x, v, htext, hu, rfl, -⟩)
  · obtain ⟨b, hb, hgap⟩ := hnew.exists_gap
    have hplain : ∀ b ∈ utf8 "->new", isGap b = false :=
      List.all_iff_forall_prop.mp rfl
    rcases List.mem_append.mp hb with hb | hb
    · exact notMem_of_isNameByte (isNameByte_of_isGap hgap) hother hb
    · rw [hplain b hb] at hgap
      cases hgap
  · -- There is only one hyphen, so what stands before it is the same on both
    -- sides.
    have hhyphen : ascii '-' ∉ other := notMem_of_isNameByte rfl hother
    rw [List.append_assoc] at htext
    obtain ⟨rfl, -, -⟩ := (List.append_cons_inj_of_notMem hhyphen (by decide)).mp
      (show other ++ ascii '-' :: utf8 ">new" = (u ++ x) ++ ascii '-' ::
        (utf8 ">new" ++ v) from htext)
    rcases List.eq_nil_or_concat u with rfl | ⟨u, b, rfl⟩
    · exact hne rfl
    · have hb := hu b (by simp)
      rw [hother b (by simp)] at hb
      cases hb

/-- The name after a gap is what follows the last gap, but for gaps at the end. -/
theorem afterLast_dropWhileEnd {u gap x gap' : Text} (hne : gap ≠ [])
    (hgap : ∀ b ∈ gap, isGap b = true) (hnil : x ≠ [])
    (hx : ∀ b ∈ x, isNameByte b = true) (hgap' : ∀ b ∈ gap', isGap b = true) :
    Text.afterLast isGap (Text.dropWhileEnd isGap (u ++ gap ++ x ++ gap')) =
      x := by
  have hplain : ∀ b ∈ x, isGap b = false := by
    intro b hb
    rw [← Bool.not_eq_true]
    exact fun h => notMem_of_isNameByte (isNameByte_of_isGap h) hx hb
  have hlast : ∀ b ∈ (u ++ gap ++ x).getLast?, isGap b = false := by
    intro b hb
    rw [List.getLast?_append_of_ne_nil _ hnil] at hb
    exact hplain b (List.mem_of_getLast? hb)
  obtain ⟨gap, b, rfl⟩ := (List.eq_nil_or_concat gap).resolve_left hne
  rw [Text.dropWhileEnd_append hlast hgap', List.concat_eq_append,
    ← List.append_assoc u, List.append_assoc _ [b], List.singleton_append]
  exact Text.afterLast_append (hgap b (by simp)) hplain _

/-- A name with `new` before it and the beginning of a call after it constructs
no module with another name. -/
theorem not_constructsName_new {gap gap' : Text} {c : UInt8}
    (hname : ∀ b ∈ name, isNameByte b = true) (hnil : name ≠ [])
    (hother : ∀ b ∈ other, isNameByte b = true) (hother' : other ≠ [])
    (hne : name ≠ other) (hgapne : gap ≠ []) (hgap : ∀ b ∈ gap, isGap b = true)
    (hgap' : ∀ b ∈ gap', isGap b = true) (hc : c = ascii '(' ∨ c = ascii ';') :
    ¬ ConstructsName name (utf8 "new" ++ gap ++ other ++ gap' ++ [c]) := by
  have hnew : ∀ b ∈ utf8 "new", isNameByte b = true :=
    List.all_iff_forall_prop.mp rfl
  have hbyte : ∀ b ∈ utf8 "new" ++ gap ++ other ++ gap', isNameByte b = true ∨
      isGap b = true := by
    intro b hb
    simp only [List.mem_append, or_assoc] at hb
    rcases hb with hb | hb | hb | hb
    · exact Or.inl (hnew b hb)
    · exact Or.inr (hgap b hb)
    · exact Or.inl (hother b hb)
    · exact Or.inr (hgap' b hb)
  have hpunctuation : ∀ b, b = ascii '(' ∨ b = ascii ';' ∨ b = ascii '-' →
      b ∉ utf8 "new" ++ gap ++ other ++ gap' := by
    intro b hb hmem
    have hneither : isNameByte b = false ∧ isGap b = false := by
      rcases hb with rfl | rfl | rfl
      all_goals decide
    rcases hbyte b hmem with h | h
    · rw [hneither.1] at h
      cases h
    · rw [hneither.2] at h
      cases h
  rintro (⟨u, g, x, g', d, v, htext, -, hgne, hg, rfl, hg', hd⟩ | harrow)
  · -- The call begins with the last byte, and the names before it are the same.
    obtain ⟨hsame, -, -⟩ := (List.append_cons_inj_of_notMem
      (hpunctuation d (hd.imp_right Or.inl)) List.not_mem_nil).mp htext
    have hleft :=
      afterLast_dropWhileEnd (u := utf8 "new") hgapne hgap hother' hother hgap'
    rw [hsame, afterLast_dropWhileEnd hgne hg hnil hname hg'] at hleft
    exact hne hleft
  · have hmem := harrow.hyphen_mem
    rcases List.mem_append.mp hmem with hmem | hmem
    · exact hpunctuation _ (Or.inr (Or.inr rfl)) hmem
    · obtain rfl := List.mem_singleton.mp hmem
      exact absurd hc (by decide)

/-- A text that stays the same when something is put before it, but for its end,
repeats what is put there. -/
theorem forall_mem_of_append_eq {q : UInt8 → Prop} {s t v : Text} (hs : s ≠ [])
    (hq : ∀ b ∈ s, q b) (h : s ++ t = t ++ v) : ∀ b ∈ t, q b := by
  rcases List.append_eq_append_iff.mp h with ⟨r, rfl, hr⟩ | ⟨r, rfl, -⟩
  · have hlt : r.length < (s ++ r).length := by
      rw [List.length_append]
      exact Nat.lt_add_of_pos_left (List.length_pos_of_ne_nil hs)
    exact List.forall_mem_append.mpr ⟨hq, forall_mem_of_append_eq hs hq hr⟩
  · exact fun b hb => hq b (List.mem_append_left _ hb)
termination_by t.length

/-- A text that ends in a colon, with no gap in it, does not end within `new`
and a gap. -/
theorem prefix_of_prefix_new {before u gap v : Text}
    (hbefore : ∀ b ∈ before, isNameByte b = true)
    (hlast : before.getLast? = some (ascii ':')) (hne : gap ≠ [])
    (hgap : ∀ b ∈ gap, isGap b = true)
    (h : before <+: u ++ utf8 "new" ++ gap ++ v) : before <+: u := by
  obtain ⟨g, gap, rfl⟩ := List.exists_cons_of_ne_nil hne
  have hg : g ∉ before :=
    notMem_of_isNameByte (isNameByte_of_isGap (hgap g List.mem_cons_self)) hbefore
  have hnew : u ++ utf8 "new" ++ [g] <+: u ++ utf8 "new" ++ (g :: gap) ++ v :=
    ⟨gap ++ v, by simp⟩
  have hfront : before <+: u ++ utf8 "new" := by
    rcases List.prefix_or_prefix_of_prefix h hnew with h | h
    · rcases List.prefix_concat_iff.mp h with rfl | h
      · exact absurd List.mem_concat_self hg
      · exact h
    · exact absurd (h.subset List.mem_concat_self) hg
  obtain ⟨t, ht⟩ := hfront
  rcases List.append_eq_append_iff.mp ht with ⟨r, rfl, -⟩ | ⟨r, rfl, hr⟩
  · exact List.prefix_append before r
  · -- What `before` has in common with `new` is nothing, because of the colon.
    rcases List.eq_nil_or_concat r with rfl | ⟨r, b, rfl⟩
    · exact ⟨[], by rw [List.append_nil, List.append_nil]⟩
    · rw [List.concat_eq_append, ← List.append_assoc, List.getLast?_concat]
        at hlast
      obtain rfl := Option.some.inj hlast
      have hcolon : ascii ':' ∈ utf8 "new" := by
        rw [hr]
        simp
      exact absurd hcolon (by decide)

/-- A name below another namespace is not constructed by `->new`. -/
theorem not_constructsName_scoped (hscope : ∀ b ∈ scope, isNameByte b = true)
    (name : Text) :
    ¬ ConstructsName name (scope ++ utf8 "::" ++ name ++ utf8 "->new") := by
  have hcolons : ∀ b ∈ utf8 "::", isNameByte b = true :=
    List.all_iff_forall_prop.mp rfl
  have hbefore : ∀ b ∈ scope ++ utf8 "::", isNameByte b = true :=
    List.forall_mem_append.mpr ⟨hscope, hcolons⟩
  have hlast : (scope ++ utf8 "::").getLast? = some (ascii ':') :=
    List.getLast?_append_of_ne_nil scope (show utf8 "::" ≠ []
      from List.cons_ne_nil _ _)
  generalize scope ++ utf8 "::" = before at hbefore hlast
  have hne : before ≠ [] := by
    rintro rfl
    cases hlast
  rintro (⟨u, gap, x, gap', c, v, htext, -, hgapne, hgap, rfl, -, hc⟩
    | ⟨u, x, v, htext, hu, rfl, -⟩)
  · -- There is too little room for `new`, unless it begins after the
    -- namespace; but then it ends the text.
    have hlength := congrArg List.length htext
    have hnew : (utf8 "new").length = 3 := rfl
    have harrow : (utf8 "->new").length = 5 := rfl
    have hpos := List.length_pos_of_ne_nil hgapne
    simp only [List.length_append, List.length_cons, hnew, harrow] at hlength
    have hpre : before <+: u := by
      apply prefix_of_prefix_new (v := x ++ gap' ++ c :: v) hbefore hlast
        hgapne hgap
      exact ⟨x ++ utf8 "->new",
        by rw [← List.append_assoc, htext]; simp only [List.append_assoc]⟩
    have hle := hpre.length_le
    obtain rfl : v = [] := List.length_eq_zero_iff.mp (by omega)
    have hend : some (ascii 'w') = some c := by
      have := congrArg List.getLast? htext
      rwa [List.getLast?_concat,
        List.getLast?_append_of_ne_nil _ (show utf8 "->new" ≠ []
          from List.cons_ne_nil _ _)]
        at this
    rw [← Option.some.inj hend] at hc
    exact absurd hc (by decide)
  · have hlength := congrArg List.length htext
    simp only [List.length_append] at hlength
    have hpre : u <+: before := by
      have hfull : u <+: u ++ x ++ utf8 "->new" ++ v :=
        ⟨x ++ utf8 "->new" ++ v, by simp only [List.append_assoc]⟩
      rw [← htext, List.append_assoc] at hfull
      exact List.prefix_of_prefix_length_le hfull (List.prefix_append before _)
        (by omega)
    rcases List.eq_nil_or_concat u with rfl | ⟨u, b, rfl⟩
    · rw [List.nil_append, List.append_assoc] at htext
      have hhyphen : isNameByte (ascii '-') = true :=
        forall_mem_of_append_eq hne hbefore htext _
          (List.mem_append_right _ List.mem_cons_self)
      cases hhyphen
    · have hb := hu b (by simp)
      rw [hbefore b (hpre.subset (by simp))] at hb
      cases hb

end Other

/-- **What counts as a construction of a module.** Let the name of the module
have no stray bytes in it.

* The search expression is accepted, and it finds the module if and only if the
  text has a construction of something that reads as the name.
* This is the name itself if there is no replacement character in the name or no
  stray byte in the text.
* Another name, such as a longer one, with `->new` after it does not count.
  Neither does one with `new` before it, if both are not empty.
* The name below another namespace with `->new` after it does not count.
* What counts in one of two texts counts in the two with a line feed between
  them. -/
theorem constructed_exact (text name : Text) (hname : name.IsEncoded) :
    rejection? name = none ∧
    (constructed text name = true ↔ Constructs (StandsFor name) text) ∧
    (Piece.replacement ∉ name.chars ∨ text.IsEncoded →
      (constructed text name = true ↔ ConstructsName name text)) ∧
    (∀ other : Text, (∀ b ∈ other, isNameByte b = true) → name ≠ other →
      constructed (other ++ utf8 "->new") name = false ∧
      ((∀ b ∈ name, isNameByte b = true) → name ≠ [] → other ≠ [] →
        ∀ (gap gap' : Text) (c : UInt8), gap ≠ [] →
        (∀ b ∈ gap, isGap b = true) → (∀ b ∈ gap', isGap b = true) →
        (c = ascii '(' ∨ c = ascii ';') →
        constructed (utf8 "new" ++ gap ++ other ++ gap' ++ [c]) name = false)) ∧
    (∀ scope : Text, (∀ b ∈ scope, isNameByte b = true) →
      constructed (scope ++ utf8 "::" ++ name ++ utf8 "->new") name = false) ∧
    ∀ other : Text, constructed text name = true ∨ constructed other name = true →
      constructed (text ++ lf :: other) name = true := by
  have hfalse : ∀ t : Text, t.IsEncoded → ¬ ConstructsName name t →
      constructed t name = false := by
    intro t ht hnot
    rw [← Bool.not_eq_true, constructed_iff_constructsName hname (Or.inr ht)]
    exact hnot
  have hnames : ∀ t : Text, (∀ b ∈ t, isNameByte b = true) → t.IsEncoded :=
    fun t ht => Text.isEncoded_word fun b hb => isAscii_of_isNameByte (ht b hb)
  have hgaps : ∀ t : Text, (∀ b ∈ t, isGap b = true) → t.IsEncoded :=
    fun t ht => Text.isEncoded_word fun b hb => isAscii_of_isGap (ht b hb)
  refine ⟨rejection?_eq_none hname, constructed_iff,
    constructed_iff_constructsName hname, ?_, ?_, ?_⟩
  · intro other hother hne
    constructor
    · apply hfalse
      · exact (hnames other hother).append (Text.isEncoded_utf8 _)
      · exact not_constructsName_arrow hother hne
    · intro hbytes hnil hnil' gap gap' c hgapne hgap hgap' hc
      apply hfalse
      · exact ((((Text.isEncoded_utf8 _).append (hgaps gap hgap)).append
          (hnames other hother)).append
          (hgaps gap' hgap')).append
            (Text.isEncoded_word
              (List.forall_mem_singleton.mpr (isAscii_of_opening hc)))
      · exact not_constructsName_new hbytes hnil hother hnil' hne hgapne
          hgap hgap' hc
  · intro scope hscope
    apply hfalse
    · exact (((hnames scope hscope).append (Text.isEncoded_utf8 _)).append
        hname).append (Text.isEncoded_utf8 _)
    · exact not_constructsName_scoped hscope name
  · intro other h
    simp only [constructed_iff] at h ⊢
    rcases h with h | h
    · exact h.append_lf other
    · exact h.lf_append fun u x hx => hx.lf_append text

/-- A construction after a stray byte and over two lines, and others that only
look like it. -/
theorem constructed_exact_quoter :
    let name := utf8 "Quoter"
    let text := 0xFF :: utf8 "new\n Quoter\t;"
    name.IsEncoded ∧ ConstructsName name text ∧
    constructed (utf8 "QuoterPlus->new") name = false ∧
    constructed (utf8 "new QuoterPlus (") name = false ∧
    constructed (utf8 "Lmo::Quoter->new") name = false ∧
    constructed (text ++ lf :: utf8 "1;") name = true := by
  intro name text
  have hname : name.IsEncoded := Text.isEncoded_utf8 _
  have hfound : constructed text name = true := by decide +kernel
  obtain ⟨-, -, hexact, hother, hscope, hlines⟩ :=
    constructed_exact text name hname
  obtain ⟨harrow, hnew⟩ :=
    hother (utf8 "QuoterPlus") (List.all_eq_true.mp rfl) (by decide)
  refine ⟨hname, (hexact (Or.inl (by decide +kernel))).mp hfound, harrow, ?_,
    hscope (utf8 "Lmo") (List.all_eq_true.mp rfl),
    hlines (utf8 "1;") (Or.inl hfound)⟩
  exact hnew (List.all_eq_true.mp rfl) (by decide) (by decide) [space] [space]
    (ascii '(') (by decide)
    (List.forall_mem_singleton.mpr rfl) (List.forall_mem_singleton.mpr rfl)
    (Or.inl rfl)

/-- A stray byte is taken for the replacement character, and with an empty name
the module `new` is taken for the word. -/
theorem constructed_not_exact :
    (¬ ∀ text name : Text, name.IsEncoded →
      (constructed text name = true ↔ ConstructsName name text)) ∧
    ¬ ∀ (name longer gap gap' : Text) (c : UInt8), name.IsEncoded →
    (∀ b ∈ longer, isNameByte b = true) →
      name <+: longer → name ≠ longer → gap ≠ [] → (∀ b ∈ gap, isGap b = true) →
      (∀ b ∈ gap', isGap b = true) →
      (c = ascii '(' ∨ c = ascii ';') →
      constructed (utf8 "new" ++ gap ++ longer ++ gap' ++ [c]) name = false := by
  constructor
  · intro hexact
    let text : Text := utf8 "new " ++ [0xFF] ++ utf8 "("
    have hfound : constructed text (utf8 "\uFFFD") = true := by decide +kernel
    have hconstructs :=
      (hexact text (utf8 "\uFFFD") (Text.isEncoded_utf8 _)).mp hfound
    -- The first byte of the name is not in the text.
    have hmem : (0xEF : UInt8) ∈ text := by
      rcases hconstructs with ⟨u, gap, x, gap', c, v, htext, -, -, -, rfl, -⟩
        | ⟨u, x, v, htext, -, rfl, -⟩
      all_goals
        rw [htext]
        simp [show (0xEF : UInt8) ∈ utf8 "\uFFFD" from List.mem_cons_self]
    exact absurd hmem (by decide)
  · intro hlonger
    have hnot := hlonger [] (utf8 "new") [space] [space] (ascii '(')
      (Text.isEncoded_word (List.forall_mem_nil _))
      (List.all_eq_true.mp rfl) List.nil_prefix (by decide) (by decide)
        (List.forall_mem_singleton.mpr rfl)
      (List.forall_mem_singleton.mpr rfl) (Or.inl rfl)
    revert hnot
    decide +kernel

end Module

end ToolLint
