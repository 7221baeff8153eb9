import ToolLint.Help
import ToolLint.Proofs.Pod.Command
import ToolLint.Proofs.Text.Blank

/-!
# The line of an option

How an option can be laid out on a line (`Layout.line`), and that a line is read
as the option it gives: exactly the laid out lines are read
(`option?_eq_none_iff`), and what looks like a short form is one
(`option?_eq_some_iff`). The name, the type and the short form each end where
the next part begins, so none of them can be read in two ways; the one choice is
between a short form and a description that begins with a hyphen.
-/

namespace ToolLint

structure HelpOption.WellFormed (o : HelpOption) : Prop where
  long : Pod.IsOptionName o.long
  type : o.type = [] ∨ ∃ b, o.type = [b] ∧ isLetter b = true
  short : o.short = [] ∨ ∃ b, o.short = [b] ∧ Help.isShortByte b = true

namespace Help

/-- What a line has besides the option: white space before and within, the mark
of an option that can be negated, and what follows, which is set off by white
space. -/
structure Layout where
  margin : Text
  negatable : Bool
  gap : Text
  tail : Text
  margin_isGap : ∀ b ∈ margin, isGap b = true
  gap_isGap : ∀ b ∈ gap, isGap b = true
  gap_ne_nil : gap ≠ []
  tail_isBreak : isBreak tail = true

def typeForm (type : Text) : Text := if type = [] then [] else ascii '=' :: type

namespace Layout

def shortForm (layout : Layout) (short : Text) : Text :=
  if short = [] then [] else layout.gap ++ ascii '-' :: short

def line (layout : Layout) (o : HelpOption) : Text :=
  layout.margin ++ (utf8 "--" ++ (Pod.negation layout.negatable ++
    (o.long ++ (typeForm o.type ++ (layout.shortForm o.short ++ layout.tail)))))

def description (layout : Layout) : Text := layout.tail.dropWhile isGap

end Layout

/-! ## Parts of the line -/

theorem isOptionByte_of_isGap {b : UInt8} (hb : isGap b = true) :
    Pod.isOptionByte b = false := by
  simp only [isGap, Bool.or_eq_true, beq_iff_eq] at hb
  rcases hb with (((rfl | rfl) | rfl) | rfl) | rfl <;> decide

theorem isBreak_iff {s : Text} :
    isBreak s = true ↔ ∀ b ∈ s.head?, isGap b = true := by
  cases s with
  | nil => simp [isBreak]
  | cons b s => simp [isBreak]

theorem isBreak_shortForm (layout : Layout) (short : Text) :
    isBreak (layout.shortForm short ++ layout.tail) = true := by
  unfold Layout.shortForm
  split
  · exact layout.tail_isBreak
  · obtain ⟨b, gap, hgap⟩ := List.exists_cons_of_ne_nil layout.gap_ne_nil
    have hb : b ∈ layout.gap := by rw [hgap]; exact List.mem_cons_self
    rw [hgap]
    exact layout.gap_isGap b hb

theorem type?_eq_some_iff {s type r : Text} :
    type? s = some (type, r) ↔ ∃ b, isLetter b = true ∧ type = [b] ∧
      s = ascii '=' :: b :: r := by
  constructor
  · intro h
    unfold type? at h
    split at h
    · rename_i b t
      split at h
      · rename_i hb
        obtain ⟨rfl, rfl⟩ := Prod.mk.inj (Option.some.inj h)
        exact ⟨b, hb, rfl, rfl⟩
      · cases h
    · cases h
  · rintro ⟨b, hb, rfl, rfl⟩
    exact if_pos hb

/-- A type is read back, whether it is there or not. -/
theorem type?_typeForm {type r : Text}
    (htype : type = [] ∨ ∃ b, type = [b] ∧ isLetter b = true)
    (hr : isBreak r = true) :
    (type? (typeForm type ++ r)).getD ([], typeForm type ++ r) = (type, r) := by
  rcases htype with rfl | ⟨b, rfl, hb⟩
  · have hnone : type? r = none := by
      rw [Option.eq_none_iff_forall_ne_some]
      rintro ⟨type, t⟩ h
      obtain ⟨b, -, -, rfl⟩ := type?_eq_some_iff.mp h
      exact absurd (isBreak_iff.mp hr _ rfl) (by decide)
    rw [typeForm, if_pos rfl, List.nil_append, hnone, Option.getD_none]
  · have hsome : type? (typeForm [b] ++ r) = some ([b], r) :=
      type?_eq_some_iff.mpr ⟨b, hb, rfl, rfl⟩
    rw [hsome, Option.getD_some]

/-- What is read as a type leaves the rest as it is. -/
theorem eq_typeForm_append (r : Text) :
    ∃ type rest, (type? r).getD ([], r) = (type, rest) ∧
    r = typeForm type ++ rest ∧
    (type = [] ∨ ∃ b, type = [b] ∧ isLetter b = true) := by
  cases h : type? r with
  | none => exact ⟨[], r, rfl, rfl, Or.inl rfl⟩
  | some found =>
      obtain ⟨b, hb, htype, hr⟩ := type?_eq_some_iff.mp h
      refine ⟨found.1, found.2, rfl, ?_, Or.inr ⟨b, htype, hb⟩⟩
      rw [hr, htype]
      rfl

theorem short_eq_singleton_iff {s : Text} {b : UInt8} :
    short s = [b] ↔ isShortByte b = true ∧ ∃ gap r, (∀ c ∈ gap, isGap c = true) ∧
      isBreak r = true ∧
      s = gap ++ ascii '-' :: b :: r := by
  constructor
  · intro h
    unfold short at h
    split at h
    · rename_i c r hdrop
      split at h
      · rename_i hc
        obtain ⟨rfl, -⟩ := List.cons.inj h
        rw [Bool.and_eq_true] at hc
        refine ⟨hc.1, s.takeWhile isGap, r, fun c hc => List.mem_takeWhile_imp hc,
          hc.2, ?_⟩
        rw [show ascii '-' :: c :: r = s.dropWhile isGap from hdrop.symm,
          List.takeWhile_append_dropWhile]
      · cases h
    · cases h
  · rintro ⟨hb, gap, r, hgap, hr, rfl⟩
    have hdrop : (gap ++ ascii '-' :: b :: r).dropWhile isGap = 0x2D :: b :: r :=
      Text.dropWhile_append_of_head hgap (by rintro _ ⟨⟩; decide)
    rw [short, hdrop]
    simp only [hb, hr, Bool.and_self, if_true]

theorem short_eq (s : Text) : short s = [] ∨ ∃ b, short s = [b] := by
  unfold short
  split
  · rename_i b r _
    split
    · exact Or.inr ⟨b, rfl⟩
    · exact Or.inl rfl
  · exact Or.inl rfl

theorem short_shortForm (layout : Layout) {short : Text}
    (h : short = [] ∨ ∃ b, short = [b] ∧ isShortByte b = true) :
    Help.short (layout.shortForm short ++ layout.tail) = if short = [] then
      Help.short layout.tail else short := by
  rcases h with rfl | ⟨b, rfl, hb⟩
  · rfl
  · rw [if_neg (List.cons_ne_nil b []), short_eq_singleton_iff, Layout.shortForm,
      if_neg (List.cons_ne_nil b [])]
    refine ⟨hb, layout.gap, layout.tail, layout.gap_isGap, layout.tail_isBreak,
      ?_⟩
    rw [List.append_assoc]
    rfl

/-- The name ends before the type, the short form and what follows. -/
theorem isOptionByte_of_mem_head? (layout : Layout) (type short : Text) :
    ∀ b ∈ (typeForm type ++ (layout.shortForm short ++ layout.tail)).head?,
      Pod.isOptionByte b = false := by
  intro b hb
  unfold typeForm at hb
  split at hb
  · exact isOptionByte_of_isGap
      (isBreak_iff.mp (isBreak_shortForm layout short) b hb)
  · obtain rfl := Option.some.inj hb
    decide

/-! ## Reading a line -/

/-- A laid out option is read back, but a short form may be read into what
follows. -/
theorem option?_line (layout : Layout) {o : HelpOption} (h : o.WellFormed) :
    option? (layout.line o) =
      some { o with
        short := if o.short = [] then short layout.tail else o.short } := by
  have hbreak := isBreak_shortForm layout o.short
  have hname := isOptionByte_of_mem_head? layout o.type o.short
  have hmargin : (layout.line o).dropWhile isGap = _ :=
    Text.dropWhile_append_of_head layout.margin_isGap (by rintro _ ⟨⟩; decide)
  unfold option?
  rw [hmargin,
    Pod.longOption?_eq_some_iff.mpr ⟨h.long, hname, layout.negatable, rfl⟩]
  simp only [type?_typeForm h.type hbreak, hbreak, if_true,
    short_shortForm layout h.short]

/-- What is read is laid out on the line. -/
theorem exists_line_of_option? {line : Text} {o : HelpOption}
    (h : option? line = some o) :
    o.WellFormed ∧ ∃ layout : Layout, line = layout.line o := by
  unfold option? at h
  split at h
  · cases h
  · rename_i long r hlong
    obtain ⟨hname, -, negatable, hline⟩ := Pod.longOption?_eq_some_iff.mp hlong
    obtain ⟨type, rest, htype, rfl, htypeForm⟩ := eq_typeForm_append r
    simp only [htype] at h
    split at h
    · rename_i hbreak
      obtain rfl := Option.some.inj h
      have hmargin :
          line = line.takeWhile isGap ++ (utf8 "--" ++ (Pod.negation negatable ++
          (long ++ (typeForm type ++ rest)))) := by
        rw [← hline, List.takeWhile_append_dropWhile]
      have hisGap : ∀ b ∈ line.takeWhile isGap, isGap b = true :=
        fun b hb => List.mem_takeWhile_imp hb
      rcases short_eq rest with hshort | ⟨b, hshort⟩
      · refine ⟨⟨hname, htypeForm, Or.inl hshort⟩,
          ⟨line.takeWhile isGap, negatable, [space], rest, hisGap,
            List.forall_mem_singleton.mpr rfl,
            List.cons_ne_nil _ _, hbreak⟩, ?_⟩
        rw [Layout.line, Layout.shortForm, if_pos hshort]
        exact hmargin
      · obtain ⟨hb, gap, tail, hgap, htail, rfl⟩ :=
          short_eq_singleton_iff.mp hshort
        have hne : gap ≠ [] := by
          rintro rfl
          exact absurd (isBreak_iff.mp hbreak _ rfl) (by decide)
        refine ⟨⟨hname, htypeForm, Or.inr ⟨b, hshort, hb⟩⟩,
          ⟨line.takeWhile isGap, negatable, gap, tail, hisGap, hgap, hne, htail⟩,
            ?_⟩
        rw [Layout.line, Layout.shortForm, hshort, if_neg (List.cons_ne_nil b []),
          List.append_assoc]
        exact hmargin
    · cases h

/-- The line is laid out like that of an option. -/
def IsOptionLine (line : Text) : Prop :=
  ∃ (o : HelpOption) (layout : Layout), o.WellFormed ∧ line = layout.line o

/-- The line is laid out like that of the option, and has a short form if it can
be laid out with one. -/
structure Gives (line : Text) (o : HelpOption) : Prop where
  wellFormed : o.WellFormed
  laidOut : ∃ layout : Layout, line = layout.line o
  short_first : o.short = [] →
    ∀ (o' : HelpOption) (layout : Layout), o'.WellFormed → line = layout.line o' →
      o'.short = []

/-- **Exactly the laid out lines are read.** -/
theorem option?_eq_none_iff {line : Text} :
    option? line = none ↔ ¬ IsOptionLine line := by
  constructor
  · rintro h ⟨o, layout, ho, rfl⟩
    rw [option?_line layout ho] at h
    cases h
  · intro h
    rw [Option.eq_none_iff_forall_ne_some]
    intro o ho
    obtain ⟨hwf, layout, hline⟩ := exists_line_of_option? ho
    exact h ⟨o, layout, hwf, hline⟩

/-- **A line is read as the option that it gives.** -/
theorem option?_eq_some_iff {line : Text} {o : HelpOption} :
    option? line = some o ↔ Gives line o := by
  constructor
  · intro h
    obtain ⟨hwf, hlaidOut⟩ := exists_line_of_option? h
    refine ⟨hwf, hlaidOut, ?_⟩
    rintro hshort o' layout ho' rfl
    rw [option?_line layout ho'] at h
    obtain rfl := Option.some.inj h
    by_contra hne
    exact hne ((if_neg hne).symm.trans hshort)
  · rintro ⟨hwf, ⟨layout, rfl⟩, hfirst⟩
    have hread := option?_line layout hwf
    rw [hread]
    by_cases hshort : o.short = []
    · -- A short form that is read into what follows would be one that the line
      -- can be laid out with.
      obtain ⟨hwf', layout', hline⟩ := exists_line_of_option? hread
      have hnone : (if o.short = [] then short layout.tail else o.short) = [] :=
        hfirst hshort _ layout' hwf' hline
      rw [hnone, ← hshort]
    · rw [if_neg hshort]

theorem IsOptionLine.exists_gives {line : Text} (h : IsOptionLine line) :
    ∃ o, Gives line o := by
  have hne : option? line ≠ none := fun hnone => option?_eq_none_iff.mp hnone h
  obtain ⟨o, ho⟩ := Option.ne_none_iff_exists'.mp hne
  exact ⟨o, option?_eq_some_iff.mp ho⟩

/-- Without a hyphen at the beginning of the description there is no choice. -/
theorem option?_line_of_description {layout : Layout} {o : HelpOption}
    (ho : o.WellFormed)
    (h : o.short = [] → layout.description.head? ≠ some (ascii '-')) :
    option? (layout.line o) = some o := by
  rw [option?_line layout ho]
  by_cases hshort : o.short = []
  · have hnone : short layout.tail = [] := by
      rcases short_eq layout.tail with hnone | ⟨b, hb⟩
      · exact hnone
      · obtain ⟨-, gap, r, hgap, -, htail⟩ := short_eq_singleton_iff.mp hb
        refine absurd ?_ (h hshort)
        rw [Layout.description, htail,
          Text.dropWhile_append_of_head hgap (by rintro _ ⟨⟩; decide)]
        rfl
    rw [if_pos hshort, hnone, ← hshort]
  · rw [if_neg hshort]

/-! ## White space around the line -/

theorem isInk_of_isOptionByte {b : UInt8} (hb : Pod.isOptionByte b = true) :
    Text.isInk b = true := by
  have hforms : (whiteForms.all fun f => f.all fun c => !Pod.isOptionByte c) =
      true := by decide +kernel
  rw [Text.isInk, List.all_eq_true]
  intro f hf
  have hform := List.all_eq_true.mp (List.all_eq_true.mp hforms f hf) b
  rw [hb] at hform
  simpa using hform

/-- An option line claims to be one. -/
theorem isCandidate_line (layout : Layout) (o : HelpOption) :
    isCandidate (layout.line o) = true := by
  have hne : utf8 "--" ≠ [] := List.cons_ne_nil _ _
  have hhyphens : ∀ b ∈ utf8 "--", Text.isInk b = true :=
    List.all_eq_true.mp (by decide +kernel)
  obtain ⟨r, -, hr⟩ := Text.exists_trim_word layout.margin_isGap hne hhyphens
    (Pod.negation layout.negatable ++
      (o.long ++ (typeForm o.type ++ (layout.shortForm o.short ++ layout.tail))))
  rw [isCandidate, List.isPrefixOf_iff_prefix, Layout.line, hr]
  exact List.prefix_append _ r

theorem Gives.isCandidate {line : Text} {o : HelpOption} (h : Gives line o) :
    isCandidate line = true := by
  obtain ⟨layout, rfl⟩ := h.laidOut
  exact isCandidate_line layout o

theorem isHeading_dropCr (line : Text) :
    isHeading line.dropCr = isHeading line := by
  rw [isHeading, isHeading, Text.trim_dropCr]

theorem isCandidate_dropCr (line : Text) :
    isCandidate line.dropCr = isCandidate line := by
  rw [isCandidate, isCandidate, Text.trim_dropCr]

end Help

end ToolLint
