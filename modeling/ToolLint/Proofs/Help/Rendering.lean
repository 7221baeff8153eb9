import ToolLint.Proofs.Help.Listing

/-!
# What was listed is read back

A tool may lay out each option as it likes and write other lines between them
(`Rendering`). What it meant is read back from the text, whether the last line
is ended by a line feed or not, and it stays so if an option is then listed
again and anything follows. Lines that end in a carriage return are laid out
lines too: the carriage return is white space at their end.
-/

namespace ToolLint

namespace Help

/-! ## Laid out lines without the carriage return -/

theorem isBreak_dropCr {s : Text} (h : isBreak s = true) :
    isBreak s.dropCr = true := by
  rcases Text.eq_or_eq_append_cr s with hs | hs
  · rwa [← hs]
  · rw [isBreak_iff] at h ⊢
    intro b hb
    apply h b
    rw [hs, List.head?_append, Option.mem_def.mp hb]
    rfl

namespace Layout

/-- The layout without a carriage return at the end of the line. -/
def withoutCr (layout : Layout) : Layout :=
  { layout with
    tail := layout.tail.dropCr, tail_isBreak :=
      isBreak_dropCr layout.tail_isBreak }

/-- The option itself does not end in a carriage return. -/
theorem dropCr_line (layout : Layout) {o : HelpOption} (ho : o.WellFormed) :
    (layout.line o).dropCr = layout.withoutCr.line o := by
  have hlast : ∀ {u : Text}, cr ∉ u → u.getLast? ≠ some cr :=
    fun hu hlast => hu (List.mem_of_getLast? hlast)
  have hlong : o.long.getLast? ≠ some cr :=
    hlast fun hmem => absurd (ho.long.isOptionByte cr hmem) (by decide)
  have htype : (typeForm o.type).getLast? ≠ some cr := by
    rcases ho.type with htype | ⟨b, htype, hb⟩
    · rw [htype]
      decide
    · have hne : b ≠ cr := by
        rintro rfl
        exact absurd hb (by decide)
      rw [htype, typeForm, if_neg (List.cons_ne_nil b []),
        List.getLast?_cons_cons]
      simpa using hne
  have hshort : (layout.shortForm o.short).getLast? ≠ some cr := by
    rcases ho.short with hshort | ⟨b, hshort, hb⟩
    · rw [hshort, shortForm, if_pos rfl]
      decide
    · have hne : b ≠ cr := by
        rintro rfl
        exact absurd hb (by decide)
      rw [hshort, shortForm, if_neg (List.cons_ne_nil b []),
        List.getLast?_append_of_ne_nil _ (List.cons_ne_nil _ _),
        List.getLast?_cons_cons]
      simpa using hne
  have hnegation : (Pod.negation layout.negatable).getLast? ≠ some cr := by
    cases layout.negatable <;> decide
  rw [line,
    Text.dropCr_append_of_ne_nil
      (List.append_ne_nil_of_left_ne_nil (by decide) _),
    Text.dropCr_append (by decide), Text.dropCr_append hnegation,
    Text.dropCr_append hlong, Text.dropCr_append htype, Text.dropCr_append hshort]
  rfl

theorem head?_description_withoutCr {layout : Layout}
    (h : layout.description.head? ≠ some (ascii '-')) :
    layout.withoutCr.description.head? ≠ some (ascii '-') := by
  intro hhead
  apply h
  have hdescription :
      layout.withoutCr.description = layout.tail.dropCr.dropWhile isGap := rfl
  rw [hdescription] at hhead
  rcases Text.eq_or_eq_append_cr layout.tail with htail | htail
  · rw [description, htail]
    exact hhead
  · have hne : layout.tail.dropCr.dropWhile isGap ≠ [] := by
      intro hnil
      rw [hnil] at hhead
      cases hhead
    rw [description, htail, List.dropWhile_append, if_neg (by simpa using hne),
      List.head?_append, hhead, Option.some_or]

theorem line_ne_nil (layout : Layout) (o : HelpOption) : layout.line o ≠ [] :=
  List.append_ne_nil_of_right_ne_nil _
    (List.append_ne_nil_of_left_ne_nil (by decide) _)

end Layout

/-! ## Lists of lines -/

/-- The lines list the options: one line for each, and between them lines that
do not claim to be that of an option. A description that follows an option
without a short form does not begin with a hyphen. -/
inductive Rendering : List HelpOption → List Text → Prop
  | nil : Rendering [] []
  | option {o : HelpOption} {options : List HelpOption} {lines : List Text}
    (layout : Layout)
      (hdescription : o.short = [] →
        layout.description.head? ≠ some (ascii '-')) :
      Rendering options lines → Rendering (o :: options) (layout.line o :: lines)
  | other {options : List HelpOption} {line : Text} {lines : List Text}
    (hother : isCandidate line = false) :
      Rendering options lines → Rendering options (line :: lines)

theorem Rendering.of_append_nil {options : List HelpOption} {lines : List Text}
    (h : Rendering options (lines ++ [[]])) : Rendering options lines := by
  generalize hall : lines ++ [[]] = all at h
  induction h generalizing lines with
  | nil => simp at hall
  | option layout hdescription hrest ih =>
      cases lines with
      | nil => exact absurd (List.cons.inj hall).1.symm (layout.line_ne_nil _)
      | cons line lines =>
          obtain ⟨rfl, htail⟩ := List.cons.inj hall
          exact .option layout hdescription (ih htail)
  | other hother hrest ih =>
      cases lines with
      | nil =>
          obtain ⟨-, rfl⟩ := List.cons.inj hall
          exact hrest
      | cons line lines =>
          obtain ⟨rfl, htail⟩ := List.cons.inj hall
          exact .other hother (ih htail)

theorem gives_dropCr_line (layout : Layout) {o : HelpOption} (ho : o.WellFormed)
    (h : o.short = [] → layout.description.head? ≠ some (ascii '-')) :
    Gives (layout.line o).dropCr o := by
  rw [layout.dropCr_line ho, ← option?_eq_some_iff]
  exact option?_line_of_description ho fun hshort =>
    layout.head?_description_withoutCr (h hshort)

/-- The options are read one after another. -/
theorem Rendering.foldl_step {options : List HelpOption} {lines : List Text}
    (h : Rendering options lines) (hwf : ∀ o ∈ options, o.WellFormed)
    (done : List HelpOption)
    (hnodup : ((done ++ options).map HelpOption.long).Nodup) :
    (lines.map Text.dropCr).foldl Progress.step (.reading done) =
      .reading (done ++ options) := by
  induction h generalizing done with
  | nil => rw [List.append_nil]; rfl
  | @option o options lines layout hdescription _ ih =>
      rw [List.forall_mem_cons] at hwf
      have hnew : o.long ∉ done.map HelpOption.long := by
        rw [List.map_append, List.map_cons] at hnodup
        intro hmem
        exact (List.nodup_append.mp hnodup).2.2 _ hmem _ List.mem_cons_self rfl
      have hsplit : done ++ o :: options = (done ++ [o]) ++ options := by
        rw [List.append_assoc, List.singleton_append]
      rw [hsplit] at hnodup
      rw [List.map_cons, List.foldl_cons,
        Progress.step_of_gives (gives_dropCr_line layout hwf.1 hdescription) hnew,
          ih hwf.2 _ hnodup, hsplit]
  | other hother _ ih =>
      rw [List.map_cons, List.foldl_cons,
        Progress.step_of_other (by rw [isCandidate_dropCr]; exact hother)]
      exact ih hwf done hnodup

/-! ## Texts -/

theorem not_isHeading_nil : isHeading [] = false := by decide +kernel

theorem Below.ne_nil {lines body : List Text} (h : Below lines body) :
    lines ≠ [] := by
  obtain ⟨intro, heading, rfl, -, -⟩ := h
  exact List.append_ne_nil_of_right_ne_nil _ (List.cons_ne_nil _ _)

/-- An empty last line is below the heading. -/
theorem Below.of_append_nil {lines body : List Text}
    (h : Below (lines ++ [[]]) body) :
    ∃ body', body = body' ++ [[]] ∧ Below lines body' := by
  obtain ⟨intro, heading, hlines, hintro, hheading⟩ := h
  rcases List.eq_nil_or_concat body with rfl | ⟨body', last, rfl⟩
  · obtain ⟨-, hlast⟩ := List.append_inj' hlines rfl
    obtain ⟨rfl, -⟩ := List.cons.inj hlast
    rw [not_isHeading_nil] at hheading
    cases hheading
  · rw [List.concat_eq_append] at hlines ⊢
    rw [← List.cons_append, ← List.append_assoc] at hlines
    obtain ⟨rfl, hlast⟩ := List.append_inj' hlines rfl
    obtain ⟨rfl, -⟩ := List.cons.inj hlast
    exact ⟨body', rfl, intro, heading, rfl, hintro, hheading⟩

/-- A text with the lines of a listing, all of which fit. -/
theorem parse_of_rendering {output : Text} {options : List HelpOption}
    {lines listing : List Text} (hwf : ∀ o ∈ options, o.WellFormed)
    (hnodup : (options.map HelpOption.long).Nodup)
    (hbelow : Below lines listing) (hlisting : Rendering options listing)
    (hfits : ∀ line ∈ lines, Text.fits line = true)
    (houtput : output.terminated = lines) : parse output = .ok options := by
  subst houtput
  obtain ⟨htake, hoverlong⟩ := delivered_of_fits hfits
  rw [parse_of_below (by rw [htake]; exact hbelow),
    hlisting.foldl_step hwf [] hnodup, hoverlong]
  rfl

/-- A text with the lines of a listing, then the line of an option that is among
them, then anything. -/
theorem parse_of_rendering_again {output : Text} {options : List HelpOption}
    {lines listing more : List Text} {again : HelpOption} (layout : Layout)
    (hwf : ∀ o ∈ options, o.WellFormed)
    (hnodup : (options.map HelpOption.long).Nodup)
    (hbelow : Below lines listing) (hlisting : Rendering options listing)
    (hfits : ∀ line ∈ lines, Text.fits line = true) (hagain : again.WellFormed)
    (hseen : again.long ∈ options.map HelpOption.long)
    (hfits' : Text.fits (layout.line again) = true)
    (houtput : output.terminated = lines ++ layout.line again :: more) :
    parse output = .ok options := by
  have hread := option?_line layout.withoutCr hagain
  rw [← layout.dropCr_line hagain] at hread
  have hreached : Below (output.terminated.takeWhile Text.fits)
      (listing ++ layout.line again :: more.takeWhile Text.fits) := by
    rw [houtput, takeWhile_fits_of_fits hfits hfits']
    exact hbelow.append _
  rw [parse_of_below hreached, List.map_append, List.foldl_append,
    hlisting.foldl_step hwf [] hnodup, List.map_cons, List.foldl_cons,
    List.nil_append, Progress.step_of_seen (option?_eq_some_iff.mp hread) hseen,
    Progress.foldl_finished]

/-- **Options that are listed below the heading are read back**, in whatever
layout, and also if one of them is listed again after that and anything follows.
-/
theorem parse_rendered {options : List HelpOption} {lines listing : List Text}
    (hwf : ∀ o ∈ options, o.WellFormed)
    (hnodup : (options.map HelpOption.long).Nodup)
    (hbelow : Below lines listing) (hlisting : Rendering options listing)
    (hlines : ∀ line ∈ lines, lf ∉ line ∧ line.length < Text.lineLimit) :
    parse (Text.unlines lines) = .ok options ∧
    parse (Text.unlines lines ++ [lf]) = .ok options ∧
      ∀ (again : HelpOption) (layout : Layout), again.WellFormed →
        again.long ∈ options.map HelpOption.long →
        lf ∉ layout.line again → (layout.line again).length < Text.lineLimit →
        parse (Text.unlines lines ++ lf :: layout.line again) = .ok options ∧
        ∀ rest,
          parse (Text.unlines lines ++ lf :: (layout.line again ++ lf :: rest)) =
            .ok options := by
  have hlf : ∀ line ∈ lines, lf ∉ line := fun line hline => (hlines line hline).1
  have hfits : ∀ line ∈ lines, Text.fits line = true :=
    fun line hline => Text.fits_iff_lt.mpr (hlines line hline).2
  have hjoined : (Text.unlines lines).lines = lines :=
    Text.split_join hbelow.ne_nil hlf
  refine ⟨?_, ?_, ?_⟩
  · have hterminated := Text.terminated_unlines_eq hbelow.ne_nil hlf
    split at hterminated
    · -- The empty last line is one between options, so it can be missing.
      rename_i hlast
      obtain ⟨lines', rfl⟩ := List.getLast?_eq_some_iff.mp hlast
      obtain ⟨listing', rfl, hbelow'⟩ := hbelow.of_append_nil
      rw [List.dropLast_concat] at hterminated
      have hfits' : ∀ line ∈ lines', Text.fits line = true := fun line hline =>
        hfits line (List.mem_append_left _ hline)
      exact parse_of_rendering hwf hnodup hbelow' hlisting.of_append_nil hfits'
        hterminated
    · exact parse_of_rendering hwf hnodup hbelow hlisting hfits hterminated
  · exact parse_of_rendering hwf hnodup hbelow hlisting hfits
      (Text.terminated_unlines hbelow.ne_nil hlf)
  · intro again layout hagain hseen hlf' hlength
    have hfits' := Text.fits_iff_lt.mpr hlength
    have hagainLines :
        ∀ more, Text.terminated (Text.unlines lines ++ lf :: more) =
          lines ++ Text.terminated more := by
      intro more
      rw [Text.terminated_append_lf, hjoined]
    refine ⟨?_, fun rest => ?_⟩
    · have houtput := hagainLines (layout.line again)
      rw [Text.terminated_of_notMem (layout.line_ne_nil again) hlf'] at houtput
      exact parse_of_rendering_again layout hwf hnodup hbelow hlisting hfits
        hagain hseen hfits' houtput
    · have houtput := hagainLines (layout.line again ++ lf :: rest)
      rw [Text.terminated_line_append_lf hlf'] at houtput
      exact parse_of_rendering_again layout hwf hnodup hbelow hlisting hfits
        hagain hseen hfits' houtput

def Layout.bare (negatable : Bool) : Layout :=
  ⟨[], negatable, [space], [], List.forall_mem_nil _,
    List.forall_mem_singleton.mpr rfl, List.cons_ne_nil _ _, rfl⟩

def Layout.described (margin : Nat) (description : Text) : Layout :=
  ⟨Text.blanks margin, false, [tab], space :: description,
    fun b hb => by rw [List.eq_of_mem_replicate hb]; rfl,
    List.forall_mem_singleton.mpr rfl, List.cons_ne_nil _ _, rfl⟩

theorem parse_rendered_three :
    let options := [⟨utf8 "ask", utf8 "s", utf8 "a"⟩,
      ⟨utf8 "wait-for_it", [], []⟩, ⟨utf8 "7", [], utf8 "?"⟩]
    let listing := [(Layout.bare true).line ⟨utf8 "ask", utf8 "s", utf8 "a"⟩,
      utf8 "  - none of these --ask",
      (Layout.described 2 (utf8 "Wait -w\r")).line ⟨utf8 "wait-for_it", [], []⟩,
      (Layout.described 4 (utf8 "-h")).line ⟨utf8 "7", [], utf8 "?"⟩, []]
    let again := (Layout.described 2 (utf8 "-w")).line
      ⟨utf8 "wait-for_it", utf8 "i", []⟩
    listing.head? = some (utf8 "--[no]ask=s -a") ∧
    again = utf8 "  --wait-for_it=i -w" ∧
    ∀ rest,
      parse (Text.unlines (utf8 "--usage" :: utf8 "Options: \r" :: listing) ++
        lf :: (again ++ lf :: rest)) =
      .ok options := by
  intro options listing again
  have hwf : ∀ o ∈ options, o.WellFormed := by
    intro o ho
    rcases List.mem_cons.mp ho with rfl | ho
    · exact ⟨⟨_, _, rfl, rfl, List.all_eq_true.mp rfl⟩, Or.inr ⟨_, rfl, rfl⟩,
        Or.inr ⟨_, rfl, rfl⟩⟩
    rcases List.mem_cons.mp ho with rfl | ho
    · exact ⟨⟨_, _, rfl, rfl, List.all_eq_true.mp rfl⟩, Or.inl rfl, Or.inl rfl⟩
    · obtain rfl := List.mem_singleton.mp ho
      exact ⟨⟨_, _, rfl, rfl, List.all_eq_true.mp rfl⟩, Or.inl rfl,
        Or.inr ⟨_, rfl, rfl⟩⟩
  have hrendering : Rendering options listing :=
    .option _ (by decide)
      (.other (by decide +kernel) (.option _ (fun _ => by decide +kernel)
      (.option _ (by decide) (.other (by decide +kernel) .nil))))
  have hbelow : Below (utf8 "--usage" :: utf8 "Options: \r" :: listing) listing :=
    ⟨[utf8 "--usage"], _, rfl, by decide +kernel, by decide +kernel⟩
  have hagain : HelpOption.WellFormed ⟨utf8 "wait-for_it", utf8 "i", []⟩ :=
    ⟨⟨_, _, rfl, rfl, List.all_eq_true.mp rfl⟩, Or.inr ⟨_, rfl, rfl⟩, Or.inl rfl⟩
  refine ⟨by decide +kernel, by decide +kernel, ?_⟩
  exact ((parse_rendered hwf (by decide) hbelow hrendering
    (by decide +kernel)).2.2 _ _ hagain (by decide)
    (by decide +kernel) (by decide +kernel)).2

end Help

end ToolLint
