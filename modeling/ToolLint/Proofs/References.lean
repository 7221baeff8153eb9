import ToolLint.Check.Modules
import ToolLint.Proofs.Pattern.Reading
import Mathlib.Data.List.TakeWhile

/-!
# References to a module

A line refers to a module if it names something in the module's namespace or
imports the module. `Module.Refers` says so of the bytes of a line, and the two
search expressions for references find exactly these lines (`found_name_iff`,
`found_import_iff`). Module names are made of letters, digits, underscores and
colons; none of them is special in a pattern, and each is a character by itself.
-/

namespace ToolLint

/-! ## Module names -/

theorem ascii_byteChar (b : UInt8) : ascii (byteChar b) = b := by
  unfold ascii
  rw [byteChar_toNat]
  simp

namespace Module

theorem isWord_iff {b : UInt8} : isWord b = true ↔
    (0x41 ≤ b.toNat ∧ b.toNat ≤ 0x5A) ∨ (0x61 ≤ b.toNat ∧ b.toNat ≤ 0x7A) ∨
      (0x30 ≤ b.toNat ∧ b.toNat ≤ 0x39) ∨ b.toNat = 0x5F := by
  have hunderscore : (b == 0x5F) = true ↔ b.toNat = 0x5F := by
    rw [beq_iff_eq, ← UInt8.toNat_inj]
    rfl
  simp only [isWord, isAlnum, isLetter, isUpper, isLower, isDigit,
    Bool.or_eq_true, Bool.and_eq_true, decide_eq_true_eq, UInt8.le_iff_toNat_le,
    hunderscore, or_assoc]
  rfl

theorem isNameByte_iff {b : UInt8} : isNameByte b = true ↔
    (0x41 ≤ b.toNat ∧ b.toNat ≤ 0x5A) ∨ (0x61 ≤ b.toNat ∧ b.toNat ≤ 0x7A) ∨
      (0x30 ≤ b.toNat ∧ b.toNat ≤ 0x39) ∨ b.toNat = 0x5F ∨ b.toNat = 0x3A := by
  have hcolon : (b == ascii ':') = true ↔ b.toNat = 0x3A := by
    rw [beq_iff_eq, ← UInt8.toNat_inj]
    rfl
  simp only [isNameByte, Bool.or_eq_true, isWord_iff, hcolon, or_assoc]

theorem isAscii_of_isNameByte {b : UInt8} (hb : isNameByte b = true) :
    IsAscii b := by
  have := isNameByte_iff.mp hb
  unfold IsAscii
  omega

theorem notMem_of_isNameByte {b : UInt8} {s : Text} (hb : isNameByte b = false)
    (hs : ∀ c ∈ s, isNameByte c = true) : b ∉ s := by
  intro hmem
  rw [hs b hmem] at hb
  cases hb

theorem notMem_special_of_isNameByte {b : UInt8} (hb : isNameByte b = true) :
    b ∉ Pattern.special := by
  have hspecial : ∀ c ∈ Pattern.special, isNameByte c = false :=
    List.all_iff_forall_prop.mp (by decide)
  intro hmem
  rw [hspecial b hmem] at hb
  cases hb

theorem isPlain_of_isNameByte {b : UInt8} (hb : isNameByte b = true) :
    Pattern.IsPlain (byteChar b) := by
  have hplain : ∀ c ∈ "()|^$.[\\*+?".toList, isNameByte (ascii c) = false :=
    List.all_iff_forall_prop.mp (by decide)
  intro hmem
  have := hplain _ hmem
  rw [ascii_byteChar, hb] at this
  cases this

theorem isNameByte_of_isNameRest {s : Text} (h : isNameRest s = true) :
    ∀ b ∈ s, isNameByte b = true := by
  have hword : ∀ {b : UInt8}, isWord b = true → isNameByte b = true := by
    intro b hb
    rw [isNameByte, hb]
    rfl
  fun_induction isNameRest s with
  | case1 => simp
  | case2 b s ih =>
      rw [Bool.and_eq_true] at h
      simp only [List.mem_cons]
      rintro c (rfl | rfl | rfl | hc)
      · rfl
      · rfl
      · exact hword h.1
      · exact ih h.2 c hc
  | case3 b s _ ih =>
      rw [Bool.and_eq_true] at h
      simp only [List.mem_cons]
      rintro c (rfl | hc)
      · exact hword h.1
      · exact ih h.2 c hc

theorem isNameByte_of_isName {m : Text} (h : isName m = true) :
    ∀ b ∈ m, isNameByte b = true := by
  cases m with
  | nil => simp
  | cons b s =>
      rw [isName, Bool.and_eq_true, Bool.or_eq_true] at h
      intro c hc
      rcases List.mem_cons.mp hc with rfl | hc
      · simp only [isNameByte, isWord, isAlnum]
        rcases h.1 with hletter | hunderscore
        · simp [hletter]
        · simp_all [ascii]
      · exact isNameByte_of_isNameRest h.2 c hc

/-- No search expression is refused for a name that is a text. -/
theorem rejection?_eq_none {m : Text} (hm : m.IsEncoded) :
    rejection? m = none := by
  have hescape := Pattern.isEncoded_escape hm
  have hpattern : (constructionPattern m).IsEncoded := by
    unfold constructionPattern
    exact ((((Text.isEncoded_utf8 _).append hescape).append
      (Text.isEncoded_utf8 _)).append hescape).append
      (Text.isEncoded_utf8 _)
  rw [rejection?, Pattern.rejection?_of_isEncoded hpattern]

theorem isEncoded_of_isName {m : Text} (hm : isName m = true) : m.IsEncoded :=
  Text.isEncoded_word fun b hb => isAscii_of_isNameByte
    (isNameByte_of_isName hm b hb)

/-! ## References -/

/-- White space at the beginning of a line: a blank, or one of the bytes from
tab to carriage return. -/
def isMargin (b : UInt8) : Bool := (0x09 ≤ b && b ≤ 0x0D) || b == 0x20

/-- The line names something in the namespace of the module. -/
def Mentions (m line : Text) : Prop := ∃ u v, line = u ++ (m ++ utf8 "::") ++ v

/-- The line imports the module. The name ends there: no byte of a name follows
it. -/
def Imports (m line : Text) : Prop :=
  ∃ margin v, line = margin ++ (utf8 "use " ++ m) ++ v ∧
    (∀ b ∈ margin, isMargin b = true) ∧
    ∀ b ∈ v.head?, isNameByte b = false

def Refers (m line : Text) : Prop := Mentions m line ∨ Imports m line

theorem hasInfix_iff {w s : Text} :
    Text.hasInfix w s = true ↔ ∃ u v, s = u ++ w ++ v := by
  induction s with
  | nil =>
      rw [Text.hasInfix, List.isEmpty_iff]
      constructor
      · rintro rfl
        exact ⟨[], [], rfl⟩
      · rintro ⟨u, v, h⟩
        have := List.append_eq_nil_iff.mp h.symm
        exact (List.append_eq_nil_iff.mp this.1).2
  | cons b s ih =>
      rw [Text.hasInfix, Bool.or_eq_true, List.isPrefixOf_iff_prefix, ih]
      constructor
      · rintro (⟨v, h⟩ | ⟨u, v, rfl⟩)
        · exact ⟨[], v, h.symm⟩
        · exact ⟨b :: u, v, rfl⟩
      · rintro ⟨u, v, h⟩
        cases u with
        | nil => exact Or.inl ⟨v, h.symm⟩
        | cons c u =>
            obtain ⟨-, hs⟩ := List.cons.inj h
            exact Or.inr ⟨u, v, hs⟩

/-- The margin of an import is all the white space that the line begins with. -/
theorem imports_iff {m line : Text} : Imports m line ↔
    ∃ v, Text.after? (utf8 "use " ++ m) (line.dropWhile isMargin) = some v ∧
      ∀ b ∈ v.head?, isNameByte b = false := by
  constructor
  · rintro ⟨margin, v, rfl, hmargin, hv⟩
    refine ⟨v, ?_, hv⟩
    rw [List.append_assoc, List.dropWhile_append_of_pos hmargin,
      Text.after?_eq_some_iff]
    rfl
  · rintro ⟨v, h, hv⟩
    rw [Text.after?_eq_some_iff] at h
    refine ⟨line.takeWhile isMargin, v, ?_, fun b hb => List.mem_takeWhile_imp hb,
      hv⟩
    rw [List.append_assoc, ← h, List.takeWhile_append_dropWhile]

instance (m line : Text) : Decidable (Mentions m line) :=
  decidable_of_iff _ hasInfix_iff

instance (m line : Text) : Decidable (Imports m line) :=
  decidable_of_iff
    ((Text.after? (utf8 "use " ++ m) (line.dropWhile isMargin)).any
      (fun v => v.head?.all fun b => !isNameByte b) = true) (by
    rw [imports_iff]
    cases Text.after? (utf8 "use " ++ m) (line.dropWhile isMargin) with
    | none => simp
    | some v => cases hv : v.head? <;> simp [hv])

instance (m line : Text) : Decidable (Refers m line) :=
  inferInstanceAs (Decidable (_ ∨ _))

/-! ## The expression for the namespace -/

/-- A text of name bytes, searched for as it stands. -/
theorem read_name {w : Text} (hw : ∀ b ∈ w, isNameByte b = true) (hne : w ≠ []) :
    Pattern.read w = .ok (.all ((w.map byteChar).map Pattern.literal)) := by
  have hplain : ∀ c ∈ w.map byteChar, Pattern.IsPlain c := by
    intro c hc
    obtain ⟨b, hb, rfl⟩ := List.mem_map.mp hc
    exact isPlain_of_isNameByte (hw b hb)
  have htokens := Pattern.tokens_plain_append hplain []
  rw [List.append_nil] at htokens
  have hfold :=
    Pattern.foldlM_readToken_atoms ((w.map byteChar).map Pattern.literal)
      (by simpa using hne)
    (Pattern.tokens []) .empty []
  rw [Pattern.read_word fun b hb => isAscii_of_isNameByte (hw b hb), htokens,
    Pattern.ofTokens_of_foldlM hfold]
  simp [Pattern.Group.empty, Pattern.Group.close, Pattern.oneOf]

/-- Such a text is found where it stands. -/
theorem found_name_iff {w line : Text} (hw : ∀ b ∈ w, isNameByte b = true)
    (hne : w ≠ []) :
    (Pattern.all ((w.map byteChar).map Pattern.literal)).found line.chars = true ↔
      ∃ u v, line = u ++ w ++ v := by
  have hascii : ∀ b ∈ w, IsAscii b := fun b hb => isAscii_of_isNameByte (hw b hb)
  rw [Pattern.found_iff]
  constructor
  · rintro ⟨cs, ds, es, hline, hreads⟩
    rw [← List.append_nil ((w.map byteChar).map _), Pattern.reads_literal_append]
      at hreads
    obtain ⟨v, rfl, rfl⟩ := hreads
    rw [List.append_nil] at hline
    obtain ⟨u, v, rfl, -, -⟩ := Text.chars_eq_append_word hascii hne hline
    exact ⟨u, v, rfl⟩
  · rintro ⟨u, v, rfl⟩
    refine ⟨u.chars, w.map byteChar, v.chars,
      Text.chars_append_word hascii hne u v, ?_⟩
    rw [← List.append_nil ((w.map byteChar).map _), Pattern.reads_literal_append]
    exact ⟨[], (List.append_nil _).symm, rfl⟩

/-! ## The expression for the import -/

def marginClass : CharClass := ⟨[('\t', '\r'), (' ', ' ')], false⟩

def boundaryClass : CharClass :=
  ⟨[('A', 'Z'), ('a', 'z'), ('0', '9'), ('_', '_'), (':', ':')], true⟩

theorem nextToken_margin (s : List Char) :
    Pattern.nextToken '[' ("[:space:]]".toList ++ s) =
      (.atom (.char marginClass), s) := by
  have hs : "[:space:]]".toList =
      ['[', ':', 's', 'p', 'a', 'c', 'e', ':', ']', ']'] := rfl
  have hname : Pattern.namedClass? ['s', 'p', 'a', 'c', 'e'] =
      some marginClass.ranges := by decide
  rw [hs]
  simp [Pattern.nextToken, Pattern.readClass, Pattern.classRanges, hname,
    marginClass]

theorem nextToken_boundary (s : List Char) :
    Pattern.nextToken '[' ("^A-Za-z0-9_:]".toList ++ s) =
      (.atom (.char boundaryClass), s) := by
  have hs : "^A-Za-z0-9_:]".toList =
      ['^', 'A', '-', 'Z', 'a', '-', 'z', '0', '-', '9', '_', ':', ']'] := rfl
  rw [hs]
  simp [Pattern.nextToken, Pattern.readClass, Pattern.classRanges,
    Pattern.classRanges.one, boundaryClass]

def marginTokens : List Pattern.Token :=
  [.atom .lineStart, .atom (.char marginClass), .repeated .many ['*']]

def boundaryTokens : List Pattern.Token :=
  [.openGroup, .atom (.char boundaryClass), .bar, .atom .lineEnd, .closeGroup]

theorem tokens_boundary :
    Pattern.tokens "([^A-Za-z0-9_:]|$)".toList = boundaryTokens := by
  have hs : "([^A-Za-z0-9_:]|$)".toList = '(' :: '[' ::
      ("^A-Za-z0-9_:]".toList ++ ['|', '$', ')']) := rfl
  rw [hs,
    Pattern.tokens_cons (show Pattern.nextToken '(' _ = (.openGroup, _) from rfl),
    Pattern.tokens_cons (nextToken_boundary _)]
  rfl

theorem tokens_import {cs : List Char} (hcs : ∀ c ∈ cs, Pattern.IsPlain c) :
    Pattern.tokens
      ("^[[:space:]]*use ".toList ++ cs ++ "([^A-Za-z0-9_:]|$)".toList) =
      marginTokens ++ ((("use ".toList ++ cs).map Pattern.literal).map .atom ++
        boundaryTokens) := by
  have huse : ∀ c ∈ "use ".toList, Pattern.IsPlain c :=
    List.all_iff_forall_prop.mp (by decide)
  have hplain : ∀ c ∈ "use ".toList ++ cs, Pattern.IsPlain c := by
    intro c hc
    rcases List.mem_append.mp hc with hc | hc
    · exact huse c hc
    · exact hcs c hc
  have hword := Pattern.tokens_plain_append hplain "([^A-Za-z0-9_:]|$)".toList
  have hs : "^[[:space:]]*use ".toList ++ cs ++ "([^A-Za-z0-9_:]|$)".toList =
      '^' :: '[' :: ("[:space:]]".toList ++
        ('*' :: ("use ".toList ++ cs ++ "([^A-Za-z0-9_:]|$)".toList))) := rfl
  rw [hs,
    Pattern.tokens_cons (show Pattern.nextToken '^' _ = (.atom .lineStart, _)
      from rfl),
    Pattern.tokens_cons (nextToken_margin _),
    Pattern.tokens_cons (show Pattern.nextToken '*' _ = (.repeated .many ['*'], _)
      from rfl),
    hword, tokens_boundary]
  rfl

def boundary : Pattern := .choice (.all [.char boundaryClass]) (.all [.lineEnd])

/-- What the expression for the import of a module reads. -/
def importPattern (cs : List Char) : Pattern :=
  .all (.lineStart :: .many (.char marginClass) ::
    (("use ".toList ++ cs).map Pattern.literal ++ [boundary]))

theorem ofTokens_import {ps : List Pattern} (hps : ps ≠ []) :
    Pattern.ofTokens (marginTokens ++ (ps.map .atom ++ boundaryTokens)) =
      .ok (.all
        (.lineStart :: .many (.char marginClass) :: (ps ++ [boundary]))) := by
  have hmargin : marginTokens.foldlM Pattern.readToken (Pattern.Group.empty, []) =
      .ok (⟨[], [.many (.char marginClass), .lineStart], ['*']⟩, []) := rfl
  have hboundary : ∀ g : Pattern.Group,
      boundaryTokens.foldlM Pattern.readToken (g, []) =
        .ok (g.push boundary, []) := fun _ => rfl
  have hfold :
      (marginTokens ++ (ps.map Pattern.Token.atom ++ boundaryTokens)).foldlM
        Pattern.readToken
      (Pattern.Group.empty, []) =
        .ok (⟨[], boundary :: (ps.reverse ++ [Pattern.many (.char marginClass),
          .lineStart]), []⟩, []) := by
    rw [List.foldlM_append, hmargin]
    exact (Pattern.foldlM_readToken_atoms ps hps _ _ _).trans (hboundary _)
  rw [Pattern.ofTokens_of_foldlM hfold]
  simp [Pattern.Group.close, Pattern.oneOf]

theorem read_import {m : Text} (hm : ∀ b ∈ m, isNameByte b = true) :
    Pattern.read (utf8 "^[[:space:]]*use " ++ m ++ utf8 "([^A-Za-z0-9_:]|$)") =
      .ok (importPattern (m.map byteChar)) := by
  have hhead : ∀ b ∈ utf8 "^[[:space:]]*use ", IsAscii b :=
    List.all_iff_forall_prop.mp (by decide)
  have htail : ∀ b ∈ utf8 "([^A-Za-z0-9_:]|$)", IsAscii b :=
    List.all_iff_forall_prop.mp (by decide)
  have hascii : ∀ b ∈ utf8 "^[[:space:]]*use " ++ m ++ utf8 "([^A-Za-z0-9_:]|$)",
      IsAscii b := by
    intro b hb
    rcases List.mem_append.mp hb with hb | hb
    · rcases List.mem_append.mp hb with hb | hb
      · exact hhead b hb
      · exact isAscii_of_isNameByte (hm b hb)
    · exact htail b hb
  have hplain : ∀ c ∈ m.map byteChar, Pattern.IsPlain c := by
    intro c hc
    obtain ⟨b, hb, rfl⟩ := List.mem_map.mp hc
    exact isPlain_of_isNameByte (hm b hb)
  have hheadChars : (utf8 "^[[:space:]]*use ").map byteChar =
      "^[[:space:]]*use ".toList := by decide
  have htailChars : (utf8 "([^A-Za-z0-9_:]|$)").map byteChar =
      "([^A-Za-z0-9_:]|$)".toList := by decide
  rw [Pattern.read_word hascii, List.map_append, List.map_append, hheadChars,
    htailChars, tokens_import hplain, ofTokens_import (by simp)]
  rfl

/-! ## What the import expression matches -/

theorem char_le_iff {a c : Char} : a ≤ c ↔ a.toNat ≤ c.toNat := by
  rw [Char.le_def, UInt32.le_iff_toNat_le]
  rfl

theorem has_margin_iff {c : Char} :
    marginClass.has c = true ↔ (0x09 ≤ c.toNat ∧ c.toNat ≤ 0x0D) ∨
      c.toNat = 0x20 := by
  simp [CharClass.has, marginClass, char_le_iff]
  omega

theorem has_boundary_iff {c : Char} :
    boundaryClass.has c = true ↔ ¬ ((0x41 ≤ c.toNat ∧ c.toNat ≤ 0x5A) ∨
      (0x61 ≤ c.toNat ∧ c.toNat ≤ 0x7A) ∨ (0x30 ≤ c.toNat ∧ c.toNat ≤ 0x39) ∨
      c.toNat = 0x5F ∨ c.toNat = 0x3A) := by
  simp [CharClass.has, boundaryClass, char_le_iff]
  omega

theorem isMargin_iff {b : UInt8} :
    isMargin b = true ↔ (0x09 ≤ b.toNat ∧ b.toNat ≤ 0x0D) ∨ b.toNat = 0x20 := by
  have hblank : (b == 0x20) = true ↔ b.toNat = 0x20 := by
    rw [beq_iff_eq, ← UInt8.toNat_inj]
    rfl
  simp only [isMargin, Bool.or_eq_true, Bool.and_eq_true, decide_eq_true_eq,
    UInt8.le_iff_toNat_le, hblank]
  rfl

theorem has_margin_byteChar {b : UInt8} :
    marginClass.has (byteChar b) = true ↔ isMargin b = true := by
  rw [has_margin_iff, isMargin_iff, byteChar_toNat]

theorem has_boundary_byteChar {b : UInt8} :
    boundaryClass.has (byteChar b) = true ↔ isNameByte b = false := by
  rw [has_boundary_iff, ← Bool.not_eq_true, isNameByte_iff, byteChar_toNat]

/-- A margin is the same among the bytes and among the characters of a line. -/
theorem isMargin_of_chars {u : Text}
    (h : ∀ c ∈ u.chars, marginClass.has c = true) :
    ∀ b ∈ u, isMargin b = true := by
  have hascii : ∀ b ∈ u, IsAscii b := by
    apply Text.isAscii_of_chars
    intro c hc
    have := has_margin_iff.mp (h c hc)
    omega
  intro b hb
  apply has_margin_byteChar.mp
  apply h
  rw [Text.chars_word hascii]
  exact List.mem_map_of_mem hb

/-- So is the boundary after a name. -/
theorem boundary_iff {v : Text} :
    (∀ c ∈ v.chars.head?, boundaryClass.has c = true) ↔ ∀ b ∈ v.head?,
      isNameByte b = false := by
  cases v with
  | nil => simp
  | cons b v =>
      simp only [List.head?_cons, Option.mem_some_iff, forall_eq']
      by_cases hb : IsAscii b
      · rw [Text.chars_cons_ascii hb]
        simp only [List.head?_cons, Option.mem_some_iff, forall_eq']
        exact has_boundary_byteChar
      · -- Neither the byte nor the character that it begins can be in a name.
        have hname : isNameByte b = false := by
          rw [← Bool.not_eq_true]
          exact fun h => hb (isAscii_of_isNameByte h)
        refine iff_of_true ?_ hname
        intro c hc
        obtain ⟨cs, hcs⟩ := List.head?_eq_some_iff.mp hc
        have hle := Text.le_toNat_of_chars_eq_cons hb hcs
        rw [has_boundary_iff]
        omega

theorem reads_import_iff {cs : List Char} {i : Nat} {w r : List Char} :
    (importPattern cs).Reads i w r ↔ i = 0 ∧ ∃ margin tail,
      w = margin ++ ("use ".toList ++ cs) ++ tail ∧
      (∀ c ∈ margin, marginClass.has c = true) ∧
        ((∃ c, tail = [c] ∧ boundaryClass.has c = true) ∨
          (tail = [] ∧ r = [])) := by
  unfold importPattern
  rw [Pattern.reads_all_cons_iff]
  constructor
  · rintro ⟨u, v, rfl, ⟨rfl, rfl⟩, hv⟩
    obtain ⟨margin, v, rfl, hmargin, hv⟩ := Pattern.reads_all_cons_iff.mp hv
    obtain ⟨tail, rfl, htail⟩ := Pattern.reads_literal_append.mp hv
    refine ⟨rfl, margin, tail, by simp, Pattern.reads_many_char_iff.mp hmargin,
      ?_⟩
    obtain ⟨t, e, rfl, ht, rfl⟩ := htail
    rcases ht with ⟨x, y, rfl, ⟨c, rfl, hc⟩, rfl⟩ | ⟨x, y, rfl, ⟨rfl, hr⟩, rfl⟩
    · exact Or.inl ⟨c, rfl, hc⟩
    · exact Or.inr ⟨rfl, hr⟩
  · rintro ⟨rfl, margin, tail, rfl, hmargin, htail⟩
    refine ⟨[], _, rfl, ⟨rfl, rfl⟩, Pattern.reads_all_cons_iff.mpr ⟨margin, _,
      List.append_assoc _ _ _, ?_⟩⟩
    refine ⟨Pattern.reads_many_char_iff.mpr hmargin,
      Pattern.reads_literal_append.mpr ⟨tail, rfl, ?_⟩⟩
    refine ⟨tail, [], (List.append_nil tail).symm, ?_, rfl⟩
    rcases htail with ⟨c, rfl, hc⟩ | ⟨rfl, hr⟩
    · exact Or.inl ⟨[c], [], rfl, ⟨c, rfl, hc⟩, rfl⟩
    · exact Or.inr ⟨[], [], rfl, ⟨rfl, hr⟩, rfl⟩

/-- The expression for the import finds the lines that import the module. -/
theorem found_import_iff {m line : Text} (hm : ∀ b ∈ m, isNameByte b = true) :
    (importPattern (m.map byteChar)).found line.chars = true ↔
      Imports m line := by
  have huse : ∀ b ∈ utf8 "use ", IsAscii b :=
    List.all_iff_forall_prop.mp (by decide)
  have hchars : (utf8 "use ").map byteChar = "use ".toList := by decide
  have hne : utf8 "use " ++ m ≠ [] := by simp [utf8, encodeChar]
  have hascii : ∀ b ∈ utf8 "use " ++ m, IsAscii b := by
    intro b hb
    rcases List.mem_append.mp hb with hb | hb
    · exact huse b hb
    · exact isAscii_of_isNameByte (hm b hb)
  rw [Pattern.found_iff]
  constructor
  · rintro ⟨u, w, r, hline, hreads⟩
    obtain ⟨hu, margin, tail, rfl, hmargin, htail⟩ := reads_import_iff.mp hreads
    obtain rfl := List.length_eq_zero_iff.mp hu
    rw [List.nil_append, List.append_assoc, ← hchars, ← List.map_append] at hline
    -- The word is ASCII, so it cuts the bytes of the line where it cuts the
    -- characters.
    obtain ⟨u, v, rfl, hu, hv⟩ := Text.chars_eq_append_word hascii hne hline
    refine ⟨u, v, rfl, isMargin_of_chars (by rwa [hu]), boundary_iff.mp ?_⟩
    rw [hv]
    rcases htail with ⟨c, rfl, hc⟩ | ⟨rfl, rfl⟩
    · simpa using hc
    · simp
  · rintro ⟨u, v, rfl, hmargin, hv⟩
    have hchars' : (u ++ (utf8 "use " ++ m) ++ v).chars =
        u.map byteChar ++ ("use ".toList ++ m.map byteChar) ++ v.chars := by
      rw [Text.chars_append_word hascii hne, List.map_append, hchars,
        Text.chars_word]
      intro b hb
      have := isMargin_iff.mp (hmargin b hb)
      unfold IsAscii
      omega
    have hmargin' : ∀ c ∈ u.map byteChar, marginClass.has c = true := by
      intro c hc
      obtain ⟨b, hb, rfl⟩ := List.mem_map.mp hc
      exact has_margin_byteChar.mpr (hmargin b hb)
    rw [hchars']
    -- The boundary is part of the match unless it is the end of the line.
    cases hcases : v.chars with
    | nil =>
        refine ⟨[], _, [], (List.append_nil _).symm,
          reads_import_iff.mpr ⟨rfl, u.map byteChar, [], rfl, ?_⟩⟩
        exact ⟨hmargin', Or.inr ⟨rfl, rfl⟩⟩
    | cons c cs =>
        have hc : boundaryClass.has c = true :=
          boundary_iff.mpr hv c (by rw [hcases]; rfl)
        refine ⟨[], u.map byteChar ++ ("use ".toList ++ m.map byteChar) ++ [c],
          cs, by simp, ?_⟩
        exact reads_import_iff.mpr ⟨rfl, u.map byteChar, [c], rfl, hmargin',
          Or.inl ⟨c, rfl, hc⟩⟩

end Module

end ToolLint
