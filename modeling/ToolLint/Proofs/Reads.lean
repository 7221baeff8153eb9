import ToolLint.Proofs.Pod.Documented
import ToolLint.Proofs.References
import ToolLint.Proofs.Search

/-!
# Reads of an option

A line reads an option if it passes the quoted name to one of two methods.
`ReadsBy` says so of the bytes of a line, and the search expression for a method
finds exactly these lines (`hits_readExpression`). The names of documented
options are made of letters, digits, underscores and hyphens, so they are
searched for as they stand.
-/

namespace ToolLint

/-! ## Names of options -/

namespace Pod

/-- A byte of an option's name is a byte of a module's name, or a hyphen. -/
theorem isNameByte_or_eq {b : UInt8} (hb : isOptionByte b = true) :
    Module.isNameByte b = true ∨ b = ascii '-' := by
  rw [isOptionByte, Bool.or_eq_true, beq_iff_eq] at hb
  rcases hb with hb | hb
  · exact Or.inl (by rw [Module.isNameByte, hb, Bool.true_or])
  · exact Or.inr hb

theorem isAscii_of_isOptionByte {b : UInt8} (hb : isOptionByte b = true) :
    IsAscii b := by
  rcases isNameByte_or_eq hb with hb | rfl
  · exact Module.isAscii_of_isNameByte hb
  · decide

theorem notMem_special_of_isOptionByte {b : UInt8} (hb : isOptionByte b = true) :
    b ∉ Pattern.special := by
  rcases isNameByte_or_eq hb with hb | rfl
  · exact Module.notMem_special_of_isNameByte hb
  · decide

theorem isPlain_of_isOptionByte {b : UInt8} (hb : isOptionByte b = true) :
    Pattern.IsPlain (byteChar b) := by
  rcases isNameByte_or_eq hb with hb | rfl
  · exact Module.isPlain_of_isNameByte hb
  · decide

end Pod

/-! ## Reads -/

namespace Check

def quotes : Text := utf8 "'\""

/-- A method is called with the name of an option, in any quotes. -/
def readForm (method : Text) (q : UInt8) (option : Text) (q' : UInt8) : Text :=
  method ++ utf8 "(" ++ q :: (option ++ q' :: utf8 ")")

def ReadsBy (method option line : Text) : Prop :=
  ∃ q ∈ quotes, ∃ q' ∈ quotes, readForm method q option q' <:+: line

instance (method option line : Text) : Decidable (ReadsBy method option line) :=
  inferInstanceAs (Decidable (∃ q ∈ quotes, _))

theorem not_readsBy_nil (method option : Text) : ¬ ReadsBy method option [] := by
  rintro ⟨q, -, q', -, h⟩
  simpa [readForm] using List.infix_nil.mp h

/-! ## The search expression -/

def readExpression (method option : Text) : Text :=
  method ++ utf8 "\\(['\"]" ++ option ++ utf8 "['\"]\\)"

theorem readPatterns_eq {option : Text}
    (h : ∀ b ∈ option, Pod.isOptionByte b = true) :
    readPatterns option = [utf8 "get",
      utf8 "got"].map (readExpression · option) := by
  have hescape : Pattern.escape option = option :=
    Pattern.escape_eq_self fun b hb => Pod.notMem_special_of_isOptionByte (h b hb)
  unfold readPatterns
  rw [hescape]
  rfl

def quoteClass : CharClass := ⟨[('\'', '\''), ('"', '"')], false⟩

theorem has_quoteClass_iff {c : Char} :
    quoteClass.has c = true ↔ ∃ q ∈ quotes, byteChar q = c := by
  have hquotes : quotes = [ascii '\'', ascii '"'] := by decide
  have hsingle : byteChar (ascii '\'') = '\'' := by decide
  have hdouble : byteChar (ascii '"') = '"' := by decide
  have heq : ∀ d : Char, (decide (d ≤ c) && decide (c ≤ d)) = true ↔ d = c := by
    intro d
    rw [Bool.and_eq_true, decide_eq_true_eq, decide_eq_true_eq]
    exact ⟨fun h => Char.le_antisymm h.1 h.2,
      fun h => h ▸ ⟨Char.le_refl _, Char.le_refl _⟩⟩
  simp only [CharClass.has, quoteClass, List.any_cons, List.any_nil,
    Bool.or_false, Bool.bne_false, Bool.or_eq_true, heq, hquotes, List.mem_cons,
    List.not_mem_nil, or_false, exists_eq_or_imp, exists_eq_left, hsingle,
    hdouble]

theorem nextToken_quotes (s : List Char) :
    Pattern.nextToken '[' ("'\"]".toList ++ s) =
      (.atom (.char quoteClass), s) := by
  have hs : "'\"]".toList = ['\'', '"', ']'] := rfl
  rw [hs]
  simp [Pattern.nextToken, Pattern.readClass, Pattern.classRanges,
    Pattern.classRanges.one, quoteClass]

def readParts (method option : List Char) : List Pattern :=
  (method ++ ['(']).map Pattern.literal ++
    .char quoteClass :: (option.map Pattern.literal ++
      [.char quoteClass, Pattern.literal ')'])

theorem tokens_read {method option : List Char}
    (hmethod : ∀ c ∈ method, Pattern.IsPlain c)
    (hoption : ∀ c ∈ option, Pattern.IsPlain c) :
    Pattern.tokens (method ++ "\\(['\"]".toList ++ option ++ "['\"]\\)".toList) =
      (readParts method option).map .atom := by
  have hopen : ∀ s, Pattern.nextToken '\\' ('(' :: s) =
      (.atom (Pattern.literal '('), s) := fun _ => rfl
  have hclose : Pattern.tokens ['\\', ')'] = [.atom (Pattern.literal ')')] := rfl
  have hs : method ++ "\\(['\"]".toList ++ option ++ "['\"]\\)".toList =
      method ++ '\\' :: '(' :: '[' :: ("'\"]".toList ++
        (option ++ '[' :: ("'\"]".toList ++ ['\\', ')']))) := by simp
  rw [hs, Pattern.tokens_plain_append hmethod, Pattern.tokens_cons (hopen _),
    Pattern.tokens_cons (nextToken_quotes _), Pattern.tokens_plain_append hoption,
    Pattern.tokens_cons (nextToken_quotes _), hclose]
  simp [readParts]

def readPattern (method option : Text) : Pattern :=
  .all (readParts (method.map byteChar) (option.map byteChar))

theorem read_readExpression {method option : Text}
    (hmethod : ∀ b ∈ method, Pod.isOptionByte b = true)
    (hoption : ∀ b ∈ option, Pod.isOptionByte b = true) :
    Pattern.read (readExpression method option) =
      .ok (readPattern method option) := by
  have hplain : ∀ {w : Text}, (∀ b ∈ w, Pod.isOptionByte b = true) →
      ∀ c ∈ w.map byteChar, Pattern.IsPlain c := by
    intro w hw
    rw [List.forall_mem_map]
    exact fun b hb => Pod.isPlain_of_isOptionByte (hw b hb)
  have hhead : ∀ b ∈ utf8 "\\(['\"]", IsAscii b :=
    List.all_iff_forall_prop.mp (by decide)
  have htail : ∀ b ∈ utf8 "['\"]\\)", IsAscii b :=
    List.all_iff_forall_prop.mp (by decide)
  have hascii : ∀ b ∈ readExpression method option, IsAscii b := by
    intro b hb
    simp only [readExpression, List.mem_append] at hb
    rcases hb with ((hb | hb) | hb) | hb
    · exact Pod.isAscii_of_isOptionByte (hmethod b hb)
    · exact hhead b hb
    · exact Pod.isAscii_of_isOptionByte (hoption b hb)
    · exact htail b hb
  have hheadChars : (utf8 "\\(['\"]").map byteChar = "\\(['\"]".toList := by
    decide
  have htailChars : (utf8 "['\"]\\)").map byteChar = "['\"]\\)".toList := by
    decide
  have hfold :=
    Pattern.foldlM_readToken_atoms
      (readParts (method.map byteChar) (option.map byteChar))
    (by simp [readParts]) [] .empty []
  rw [List.append_nil] at hfold
  rw [Pattern.read_word hascii]
  simp only [readExpression, List.map_append, hheadChars, htailChars]
  rw [tokens_read (hplain hmethod) (hplain hoption),
    Pattern.ofTokens_of_foldlM hfold]
  simp [Pattern.Group.empty, Pattern.Group.close, Pattern.oneOf, readPattern]

/-! ## What the search expression matches -/

theorem reads_readPattern_iff {method option : Text} {i : Nat} {w r : List Char} :
    (readPattern method option).Reads i w r ↔
      ∃ q ∈ quotes, ∃ q' ∈ quotes,
        w = (readForm method q option q').map byteChar := by
  have hopen : (utf8 "(").map byteChar = ['('] := by decide
  have hclose : (utf8 ")").map byteChar = [')'] := by decide
  unfold readPattern readParts
  rw [Pattern.reads_literal_append]
  constructor
  · rintro ⟨v, rfl, hv⟩
    obtain ⟨-, v, rfl, ⟨c, rfl, hc⟩, hname⟩ := Pattern.reads_all_cons_iff.mp hv
    obtain ⟨v, rfl, hrest⟩ := Pattern.reads_literal_append.mp hname
    obtain ⟨-, v, rfl, ⟨d, rfl, hd⟩, hlast⟩ := Pattern.reads_all_cons_iff.mp hrest
    obtain ⟨-, v, rfl, ⟨e, rfl, he⟩, rfl⟩ := Pattern.reads_all_cons_iff.mp hlast
    obtain rfl := Pattern.has_single_iff.mp he
    obtain ⟨q, hq, rfl⟩ := has_quoteClass_iff.mp hc
    obtain ⟨q', hq', rfl⟩ := has_quoteClass_iff.mp hd
    exact ⟨q, hq, q', hq', by simp [readForm, hopen, hclose]⟩
  · rintro ⟨q, hq, q', hq', rfl⟩
    refine ⟨byteChar q :: (option.map byteChar ++ [byteChar q', ')']),
      by simp [readForm, hopen, hclose], ?_⟩
    refine Pattern.reads_all_cons_iff.mpr
      ⟨[byteChar q], _, rfl, ⟨_, rfl, has_quoteClass_iff.mpr ⟨q, hq, rfl⟩⟩, ?_⟩
    refine Pattern.reads_literal_append.mpr ⟨[byteChar q', ')'], rfl, ?_⟩
    refine Pattern.reads_all_cons_iff.mpr
      ⟨[byteChar q'], _, rfl, ⟨_, rfl, has_quoteClass_iff.mpr ⟨q', hq', rfl⟩⟩, ?_⟩
    exact Pattern.reads_all_cons_iff.mpr ⟨[')'], [], rfl,
      ⟨_, rfl, Pattern.has_single_iff.mpr rfl⟩, rfl⟩

/-- **The expression finds the lines that read the option**, and no others. -/
theorem found_readPattern_iff {method option line : Text}
    (hmethod : ∀ b ∈ method, Pod.isOptionByte b = true)
    (hoption : ∀ b ∈ option, Pod.isOptionByte b = true) :
    (readPattern method option).found line.chars = true ↔
      ReadsBy method option line := by
  have hquotes : ∀ b ∈ quotes, IsAscii b :=
    List.all_iff_forall_prop.mp (by decide)
  have hform : ∀ q ∈ quotes, ∀ q' ∈ quotes, ∀ b ∈ readForm method q option q',
      IsAscii b := by
    intro q hq q' hq' b hb
    have hopen : ∀ b ∈ utf8 "(", IsAscii b :=
      List.all_iff_forall_prop.mp (by decide)
    have hclose : ∀ b ∈ utf8 ")", IsAscii b :=
      List.all_iff_forall_prop.mp (by decide)
    simp only [readForm, List.mem_append, List.mem_cons] at hb
    rcases hb with (hb | hb) | rfl | hb | rfl | hb
    · exact Pod.isAscii_of_isOptionByte (hmethod b hb)
    · exact hopen b hb
    · exact hquotes b hq
    · exact Pod.isAscii_of_isOptionByte (hoption b hb)
    · exact hquotes b hq'
    · exact hclose b hb
  have hne : ∀ q q', readForm method q option q' ≠ [] := by simp [readForm]
  rw [Pattern.found_iff]
  constructor
  · rintro ⟨cs, ds, es, hline, hreads⟩
    obtain ⟨q, hq, q', hq', rfl⟩ := reads_readPattern_iff.mp hreads
    obtain ⟨u, v, rfl, -, -⟩ :=
      Text.chars_eq_append_word (hform q hq q' hq') (hne q q') hline
    exact ⟨q, hq, q', hq', u, v, rfl⟩
  · rintro ⟨q, hq, q', hq', u, v, rfl⟩
    refine ⟨Text.chars u, (readForm method q option q').map byteChar,
      Text.chars v,
      Text.chars_append_word (hform q hq q' hq') (hne q q') u v, ?_⟩
    exact reads_readPattern_iff.mpr ⟨q, hq, q', hq', rfl⟩

/-- The lines of a file that the expression finds. -/
theorem hits_readExpression {method option : Text}
    (hmethod : ∀ b ∈ method, Pod.isOptionByte b = true)
    (hoption : ∀ b ∈ option, Pod.isOptionByte b = true) (content : Text) :
    Grep.hits content (readExpression method option) =
      content.lines.filter fun line => ReadsBy method option line := by
  have hfound :
      (fun line : Text => (readPattern method option).found line.chars) =
      fun line => decide (ReadsBy method option line) := by
    funext line
    rw [Bool.eq_iff_iff, found_readPattern_iff hmethod hoption, decide_eq_true_eq]
  have hnil : decide (ReadsBy method option []) = false :=
    decide_eq_false (not_readsBy_nil method option)
  unfold Grep.hits
  rw [read_readExpression hmethod hoption]
  simp only [Grep.matching, hfound]
  exact Grep.filter_fileLines hnil content

end Check

end ToolLint
