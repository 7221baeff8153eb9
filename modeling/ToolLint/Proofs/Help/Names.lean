import ToolLint.Proofs.Help.Canonical

/-!
# Names in listings and in the documentation

An option is named in two places, by the item that documents it and by its line
in the listing. The two are read apart: an item is first freed from all white
space around it and may go on in any way after the name, while a line may begin
with some kinds of white space only and has to be laid out to its end. Still a
line that is laid out names its option also when it is taken for an item
(`optionName?_line`), however its parts are told from each other.
-/

namespace ToolLint

namespace Help

/-- What comes before the end of the name has no white space in it. -/
theorem isInk_of_mem_name {long : Text} (h : Pod.IsOptionName long)
    (negatable : Bool) :
    ∀ b ∈ utf8 "--" ++ (Pod.negation negatable ++ long), Text.isInk b = true := by
  have hhyphens : ∀ b ∈ utf8 "--", Text.isInk b = true :=
    List.all_eq_true.mp (by decide +kernel)
  have hnegation : ∀ b ∈ Pod.negation negatable, Text.isInk b = true := by
    cases negatable with
    | false => exact List.forall_mem_nil _
    | true => exact List.all_eq_true.mp (by decide +kernel)
  rw [List.forall_mem_append, List.forall_mem_append]
  exact ⟨hhyphens, hnegation,
    fun b hb => isInk_of_isOptionByte (h.isOptionByte b hb)⟩

/-- A line names its option also when it is taken for an item, whatever the
layout. -/
theorem optionName?_line (layout : Layout) {o : HelpOption} (ho : o.WellFormed) :
    Pod.optionName? (layout.line o) = some o.long := by
  have hend := isOptionByte_of_mem_head? layout o.type o.short
  have hne : utf8 "--" ++ (Pod.negation layout.negatable ++ o.long) ≠ [] :=
    List.cons_ne_nil _ _
  obtain ⟨r, hr, htrim⟩ := Text.exists_trim_word layout.margin_isGap hne
    (isInk_of_mem_name ho.long layout.negatable)
    (typeForm o.type ++ (layout.shortForm o.short ++ layout.tail))
  -- What is left of the rest begins like the rest, so the name does not go on
  -- there.
  have hstop : ∀ b ∈ r.head?, Pod.isOptionByte b = false := by
    intro b hb
    obtain ⟨t, rfl⟩ := List.head?_eq_some_iff.mp hb
    obtain ⟨u, hu⟩ := hr
    exact hend b (hu ▸ rfl)
  simp only [List.append_assoc] at htrim
  have hlong : Pod.longOption? (layout.line o).trim = some (o.long, r) :=
    Pod.longOption?_eq_some_iff.mpr ⟨ho.long, hstop, layout.negatable, htrim⟩
  rw [Pod.optionName?, hlong]
  rfl

/-- The name alone, after two blanks and two hyphens, is a line of the listing. -/
theorem option?_name {name : Text} (h : Pod.IsOptionName name) :
    option? (utf8 "  --" ++ name) = some ⟨name, [], []⟩ := by
  have hbreak : isBreak [] = true := rfl
  have hdescription : (Layout.canonical [] hbreak).description.head? ≠
      some (ascii '-') := by
    simp [Layout.description, Layout.canonical]
  have hline := Layout.line_canonical [] hbreak ⟨name, [], []⟩
  simp only [typeForm, if_true, List.append_nil] at hline
  rw [← hline]
  exact option?_line_of_description ⟨h, Or.inl rfl, Or.inl rfl⟩ fun _ =>
    hdescription

/-- **Listings and documentation have the same names.**

* A line that is read as that of an option names this option also when it is
  taken for an item, and so does a line in every other way to tell its parts
  from each other.
* The name that an item documents can stand in a listing, without a type and a
  short form, and is read there as it is.
* So lines and items can have the same names: a letter or a digit, then also
  underscores and hyphens. -/
theorem optionNames_agree :
    (∀ line o, option? line = some o → Pod.optionName? line = some o.long) ∧
    (∀ (layout : Layout) (o : HelpOption), o.WellFormed →
      Pod.optionName? (layout.line o) = some o.long) ∧
    (∀ arg name, Pod.optionName? arg = some name → option? (utf8 "  --" ++ name) =
      some ⟨name, [], []⟩) ∧
    ∀ name, ((∃ arg, Pod.optionName? arg = some name) ↔ Pod.IsOptionName name) ∧
      ((∃ line o, option? line = some o ∧ o.long = name) ↔
        Pod.IsOptionName name) := by
  have hline : ∀ line o, option? line = some o →
      Pod.optionName? line = some o.long := by
    intro line o h
    obtain ⟨ho, layout, rfl⟩ := exists_line_of_option? h
    exact optionName?_line layout ho
  refine ⟨hline, fun layout o => optionName?_line layout, ?_, ?_⟩
  · intro arg name h
    exact option?_name (Pod.isOptionName_of_optionName? h)
  · intro name
    constructor
    · constructor
      · rintro ⟨arg, h⟩
        exact Pod.isOptionName_of_optionName? h
      · intro h
        exact ⟨_, hline _ _ (option?_name h)⟩
    · constructor
      · rintro ⟨line, o, h, rfl⟩
        exact (exists_line_of_option? h).1.long
      · intro h
        exact ⟨_, _, option?_name h, rfl⟩

/-- An option that can be negated, with a type, a short form and white space of
another kind at the end of the line. -/
theorem optionNames_agree_negatable :
    let line := utf8 "\t--[no]dry_run=s  -d  Change nothing\u00a0\u000b"
    option? line = some ⟨utf8 "dry_run", utf8 "s", utf8 "d"⟩ ∧
    Pod.optionName? line = some (utf8 "dry_run") ∧
      option? (utf8 "  --dry_run") = some ⟨utf8 "dry_run", [], []⟩ := by
  intro line
  obtain ⟨hline, -, hname, -⟩ := optionNames_agree
  have hread : option? line = some ⟨utf8 "dry_run", utf8 "s", utf8 "d"⟩ := by
    decide +kernel
  have hoption := hline line _ hread
  exact ⟨hread, hoption, hname line _ hoption⟩

end Help

end ToolLint
