import ToolLint.Proofs.Help.Rendering

/-!
# The canonical line of an option

The canonical line has the name of an option, its type, its short form and a
description, the last two set off by two blanks. If it is the only line below
the heading, its option is what the listing gives, and the name and the type are
read back. So is a short form that is a letter or a question mark; any other
byte in its place is taken for a part of the description, and there is no short
form then (`parse_canonicalHelp`).
-/

namespace ToolLint

namespace Help

/-! ## One option alone -/

theorem Progress.foldl_other {options : List HelpOption} {lines : List Text}
    (h : ∀ line ∈ lines, isCandidate line = false) :
    (lines.map Text.dropCr).foldl Progress.step (.reading options) =
      .reading options := by
  induction lines with
  | nil => rfl
  | cons line lines ih =>
      obtain ⟨hline, hlines⟩ := List.forall_mem_cons.mp h
      rw [List.map_cons, List.foldl_cons,
        Progress.step_of_other (by rw [isCandidate_dropCr, hline])]
      exact ih hlines

theorem overlong_eq (output : Text) :
    output.delivered.overlong = !decide (∀ line ∈ output.terminated,
      Text.fits line = true) := by
  rw [Text.delivered, Bool.eq_iff_iff]
  simp

/-- After an empty line one option is listed, and the lines that follow do not
claim to be that of an option. -/
theorem parse_alone {output line : Text} {more : List Text} {o : HelpOption}
    (houtput : output.terminated = utf8 "Options:" :: [] :: line :: more)
    (hline : Gives line.dropCr o) (hmore : ∀ l ∈ more, isCandidate l = false) :
    parse output = if ∀ l ∈ output.terminated, Text.fits l = true then .ok [o]
      else .error (.helpReading .overlongLine) := by
  have hheading : isHeading (utf8 "Options:") = true := by decide +kernel
  have hempty : (Progress.reading []).step (Text.dropCr []) = .reading [] := by
    decide +kernel
  have hbelow : ∀ body, Below (utf8 "Options:" :: body) body :=
    fun body => ⟨[], _, rfl, List.forall_mem_nil _, hheading⟩
  by_cases hfits : Text.fits line = true
  · have htake : output.terminated.takeWhile Text.fits =
        utf8 "Options:" :: [] :: line :: more.takeWhile Text.fits := by
      rw [houtput, List.takeWhile_cons_of_pos (by decide),
        List.takeWhile_cons_of_pos (by decide), List.takeWhile_cons_of_pos hfits]
    have hrest : ∀ l ∈ more.takeWhile Text.fits, isCandidate l = false :=
      fun l hl => hmore l ((List.takeWhile_prefix _).subset hl)
    rw [parse_of_below (by rw [htake]; exact hbelow _), List.map_cons,
      List.foldl_cons, hempty, List.map_cons, List.foldl_cons,
      Progress.step_of_gives hline List.not_mem_nil, List.nil_append,
      Progress.foldl_other hrest, overlong_eq]
    split_ifs <;> simp_all
  · have htake :
        output.terminated.takeWhile Text.fits = [utf8 "Options:", []] := by
      rw [houtput, List.takeWhile_cons_of_pos (by decide),
        List.takeWhile_cons_of_pos (by decide), List.takeWhile_cons_of_neg hfits]
    have hlong : ¬ ∀ l ∈ output.terminated, Text.fits l = true := by
      intro hall
      apply hfits
      apply hall
      rw [houtput]
      simp
    rw [parse_of_below (by rw [htake]; exact hbelow _), List.map_cons,
      List.foldl_cons, hempty, overlong_eq]
    simp [hlong]

/-! ## The canonical line -/

def canonicalLine (o : HelpOption) (description : Text) : Text :=
  utf8 "  --" ++ o.long ++ typeForm o.type ++ (if o.short = [] then [] else
    utf8 "  -" ++ o.short) ++
    utf8 "  " ++ description

/-- The heading, an empty line, and the canonical line of one option. -/
def canonicalHelp (o : HelpOption) (description : Text) : Text :=
  utf8 "Options:" ++ lf :: lf :: canonicalLine o description

/-- Two blanks before the name and before the short form. -/
def Layout.canonical (tail : Text) (h : isBreak tail = true) : Layout :=
  ⟨utf8 "  ", false, utf8 "  ", tail, List.all_eq_true.mp rfl,
    List.all_eq_true.mp rfl, List.cons_ne_nil _ _, h⟩

theorem Layout.line_canonical (tail : Text) (h : isBreak tail = true)
    (o : HelpOption) :
    (Layout.canonical tail h).line o = utf8 "  --" ++ o.long ++ typeForm o.type ++
      (if o.short = [] then [] else utf8 "  -" ++ o.short) ++ tail := by
  have hmargin : utf8 "  --" = utf8 "  " ++ utf8 "--" := by decide
  have hgap : utf8 "  -" = utf8 "  " ++ [ascii '-'] := by decide
  have hnegation : Pod.negation false = [] := rfl
  simp only [line, canonical, shortForm, hmargin, hgap, hnegation,
    List.append_assoc, List.nil_append, List.singleton_append]

/-- A description that begins with a letter. -/
def IsDescription (description : Text) : Prop :=
  (∃ c d, description = c :: d ∧ isLetter c = true) ∧ lf ∉ description

theorem isGap_of_isLetter {c : UInt8} (hc : isLetter c = true) :
    isGap c = false := by
  by_contra hgap
  rw [Bool.not_eq_false] at hgap
  have hbyte := isOptionByte_of_isGap hgap
  rw [Pod.isOptionByte_of_isAlnum (by rw [isAlnum, hc, Bool.true_or])] at hbyte
  cases hbyte

/-- What can be read is read. -/
theorem gives_canonicalLine {o : HelpOption} {description : Text}
    (ho : o.WellFormed) (hdescription : IsDescription description) :
    Gives (canonicalLine o description).dropCr o := by
  obtain ⟨⟨c, d, rfl, hc⟩, -⟩ := hdescription
  have hbreak : isBreak (utf8 "  " ++ c :: d) = true := rfl
  have hline := Layout.line_canonical _ hbreak o
  rw [← List.append_assoc] at hline
  rw [canonicalLine, ← hline]
  refine gives_dropCr_line _ ho fun _ hhead => ?_
  have hdrop : (Layout.canonical _ hbreak).description = c :: d :=
    Text.dropWhile_append_of_head (List.all_eq_true.mp rfl)
      (by rintro _ ⟨rfl⟩; exact isGap_of_isLetter hc)
  rw [hdrop] at hhead
  obtain rfl := Option.some.inj hhead
  exact absurd hc (by decide)

/-- What follows the type is taken for a description if it does not begin with a
short form. -/
theorem gives_of_short_eq_nil {long type tail : Text}
    (ho : HelpOption.WellFormed ⟨long, type, []⟩) (hbreak : isBreak tail = true)
    (htail : short tail.dropCr = []) :
    Gives (utf8 "  --" ++ long ++ typeForm type ++ tail).dropCr
      ⟨long, type, []⟩ := by
  have hline := Layout.line_canonical tail hbreak ⟨long, type, []⟩
  rw [if_pos rfl, List.append_nil] at hline
  have hread := option?_line (Layout.canonical tail hbreak).withoutCr ho
  rw [if_pos rfl,
    show (Layout.canonical tail hbreak).withoutCr.tail = tail.dropCr from rfl,
    htail] at hread
  rw [← hline, Layout.dropCr_line _ ho]
  exact option?_eq_some_iff.mp hread

/-- A hyphen and a byte that can be no short form are the beginning of a
description. -/
theorem short_of_not_isShortByte {b : UInt8} (hb : isShortByte b = false)
    {r : Text} (hr : r ≠ []) : short (utf8 "  -" ++ b :: r).dropCr = [] := by
  have hsplit : utf8 "  -" ++ b :: r = (utf8 "  -" ++ [b]) ++ r := by simp
  have hdrop : (utf8 "  " ++ ascii '-' :: b :: r.dropCr).dropWhile isGap =
      ascii '-' :: b :: r.dropCr :=
    Text.dropWhile_append_of_head (List.all_eq_true.mp rfl)
      (by rintro _ ⟨⟩; decide)
  have hdropped : (utf8 "  -" ++ b :: r).dropCr = utf8 "  " ++ ascii '-' :: b ::
      r.dropCr := by
    rw [hsplit, Text.dropCr_append_of_ne_nil hr]
    rfl
  rw [hdropped, short, hdrop]
  show (if isShortByte b && isBreak r.dropCr then [b] else []) = []
  rw [hb, Bool.false_and, if_neg Bool.false_ne_true]

/-- A line that begins with a letter after some blanks does not claim to be that
of an option. -/
theorem not_isCandidate_of_isDescription {margin description : Text}
    (hmargin : ∀ b ∈ margin, isGap b = true) (h : IsDescription description) :
    isCandidate (margin ++ description) = false := by
  obtain ⟨⟨c, d, rfl, hc⟩, -⟩ := h
  have hletter :=
    isInk_of_isOptionByte
      (Pod.isOptionByte_of_isAlnum (by rw [isAlnum, hc, Bool.true_or]))
  obtain ⟨w, -, htrim⟩ :=
    Text.exists_trim_word hmargin (List.cons_ne_nil c [])
      (List.forall_mem_singleton.mpr hletter) d
  rw [List.singleton_append] at htrim
  rw [isCandidate, htrim, ← Bool.not_eq_true, List.isPrefixOf_iff_prefix]
  rintro ⟨r, hr⟩
  obtain rfl : ascii '-' = c := (List.cons.inj hr).1
  exact absurd hc (by decide)

/-! ## The canonical help -/

theorem terminated_canonicalHelp (o : HelpOption) (description ending : Text) :
    (canonicalHelp o description ++ ending).terminated =
      utf8 "Options:" :: [] ::
        (canonicalLine o description ++ ending).terminated := by
  have hempty := Text.terminated_line_append_lf List.not_mem_nil
    (canonicalLine o description ++ ending)
  rw [canonicalHelp, List.append_assoc, List.cons_append,
    Text.terminated_line_append_lf (by decide), List.cons_append]
  exact congrArg _ hempty

theorem lf_notMem_of_isOptionName {long type : Text}
    (hlong : Pod.IsOptionName long)
    (htype : type = [] ∨ ∃ b, type = [b] ∧ isLetter b = true) :
    lf ∉ utf8 "  --" ++ long ++ typeForm type := by
  have hname : lf ∉ long :=
    fun hmem => absurd (hlong.isOptionByte lf hmem) (by decide)
  have hform : lf ∉ typeForm type := by
    rcases htype with rfl | ⟨b, rfl, hb⟩
    · exact List.not_mem_nil
    · intro hmem
      rcases List.mem_cons.mp hmem with h | h
      · exact absurd h (by decide)
      · obtain rfl := List.mem_singleton.mp h
        exact absurd hb (by decide)
  exact List.not_mem_append (List.not_mem_append (by decide) hname) hform

/-- The lines of the canonical help, and what they give. -/
theorem exists_terminated_canonicalHelp {o : HelpOption}
    {description ending : Text} (hlong : Pod.IsOptionName o.long)
    (htype : o.type = [] ∨ ∃ b, o.type = [b] ∧ isLetter b = true)
    (hshort : o.short.length ≤ 1) (hdescription : IsDescription description)
    (hending : ending = [] ∨ ending = [lf]) :
    ∃ line more, (canonicalHelp o description ++ ending).terminated =
      utf8 "Options:" :: [] :: line :: more ∧
      Gives line.dropCr { o with
        short := if o.short.all isShortByte then o.short else [] } ∧
      ∀ l ∈ more, isCandidate l = false := by
  obtain ⟨long, type, short⟩ := o
  have hlength : short = [] ∨ ∃ b, short = [b] := by
    rw [← List.length_eq_one_iff, ← List.length_eq_zero_iff]
    exact Nat.le_one_iff_eq_zero_or_eq_one.mp hshort
  have hname : lf ∉ utf8 "  --" ++ long ++ typeForm type :=
    lf_notMem_of_isOptionName hlong htype
  have hdescribed : lf ∉ utf8 "  " ++ description :=
    List.not_mem_append (by decide) hdescription.2
  have hne : utf8 "  " ++ description ≠ [] := List.cons_ne_nil _ _
  rw [terminated_canonicalHelp]
  -- Unless the short form is a line feed, there is one line.
  have hone : lf ∉ short →
      (canonicalLine ⟨long, type, short⟩ description ++ ending).terminated =
      [canonicalLine ⟨long, type, short⟩ description] := by
    intro hlf
    have hform : lf ∉ if short = [] then [] else utf8 "  -" ++ short := by
      split
      · exact List.not_mem_nil
      · exact List.not_mem_append (by decide) hlf
    rw [canonicalLine, List.append_assoc _ (utf8 "  ")]
    exact Text.terminated_append_ending (List.append_ne_nil_of_right_ne_nil _ hne)
      (List.not_mem_append (List.not_mem_append hname hform) hdescribed) hending
  by_cases hall : short.all isShortByte = true
  · have hbyte := List.all_eq_true.mp hall
    have hwf : HelpOption.WellFormed ⟨long, type, short⟩ := by
      refine ⟨hlong, htype, ?_⟩
      rcases hlength with rfl | ⟨b, rfl⟩
      · exact Or.inl rfl
      · exact Or.inr ⟨b, rfl, hbyte b List.mem_cons_self⟩
    rw [if_pos hall, hone fun hmem => absurd (hbyte lf hmem) (by decide)]
    exact ⟨_, [], rfl, gives_canonicalLine hwf hdescription,
      List.forall_mem_nil _⟩
  · have hwithout : HelpOption.WellFormed ⟨long, type, []⟩ :=
      ⟨hlong, htype, Or.inl rfl⟩
    obtain ⟨b, rfl⟩ : ∃ b, short = [b] := by
      rcases hlength with rfl | hsingle
      · exact absurd rfl hall
      · exact hsingle
    have hb : isShortByte b = false := by simpa using hall
    have hline : canonicalLine ⟨long, type, [b]⟩ description =
        utf8 "  --" ++ long ++ typeForm type ++
          (utf8 "  -" ++ b :: (utf8 "  " ++ description)) := by
      simp [canonicalLine]
    rw [if_neg hall]
    by_cases hlf : b = lf
    · -- The line ends at the hyphen, and the description is a line of its own.
      subst hlf
      have hlines :
          (canonicalLine ⟨long, type, [lf]⟩ description ++ ending).terminated =
          [utf8 "  --" ++ long ++ typeForm type ++ utf8 "  -",
            utf8 "  " ++ description] := by
        rw [hline, ← List.append_assoc, List.append_assoc, List.cons_append,
          Text.terminated_line_append_lf (List.not_mem_append hname (by decide)),
          Text.terminated_append_ending hne hdescribed hending]
      rw [hlines]
      exact ⟨_, _, rfl, gives_of_short_eq_nil hwithout rfl (by decide),
        List.forall_mem_singleton.mpr (not_isCandidate_of_isDescription
          (List.all_eq_true.mp rfl) hdescription)⟩
    · rw [hone fun hmem => hlf (List.mem_singleton.mp hmem).symm, hline]
      exact ⟨_, [], rfl,
        gives_of_short_eq_nil hwithout rfl (short_of_not_isShortByte hb hne),
        List.forall_mem_nil _⟩

/-- **The canonical help gives its option**, but without a short form that is
neither a letter nor a question mark. It is not read at all if one of its lines
is too long. -/
theorem parse_canonicalHelp {o : HelpOption} {description ending : Text}
    (hlong : Pod.IsOptionName o.long)
    (htype : o.type = [] ∨ ∃ b, o.type = [b] ∧ isLetter b = true)
    (hshort : o.short.length ≤ 1) (hdescription : IsDescription description)
    (hending : ending = [] ∨ ending = [lf]) :
    parse (canonicalHelp o description ++ ending) =
      if ∀ line ∈ (canonicalHelp o description ++ ending).lines,
        line.length < Text.lineLimit then
        .ok [{ o with short := if o.short.all isShortByte then o.short else [] }]
      else .error (.helpReading .overlongLine) := by
  obtain ⟨line, more, hlines, hgives, hmore⟩ :=
    exists_terminated_canonicalHelp hlong htype hshort hdescription hending
  rw [parse_alone hlines hgives hmore]
  simp only [Text.fits_iff_lt]
  exact if_congr (Text.forall_mem_terminated_iff (by decide) _) rfl rfl

end Help

end ToolLint
