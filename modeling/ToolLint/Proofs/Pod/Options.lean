import ToolLint.Proofs.Pod.Locality

/-!
# Options of sections

An option belongs to the heading that came last before it, however deep that is.
So the options of a section are those between its heading and the next one
(`entries_heading`), and all sections together have the options from the first
heading on, in the order of the commands and with repetitions
(`flatMap_options_entries`).
-/

namespace ToolLint

namespace Pod

def Command.isHeading (c : Command) : Bool := (headingLevel? c.name).isSome

/-- The options that the items among some commands name. -/
def itemOptions (cmds : List Command) : List Text :=
  (cmds.filter fun c => c.name = utf8 "item").filterMap fun c => optionName? c.arg

theorem filterMap_option? (cmds : List Command) :
    cmds.filterMap Command.option? = itemOptions cmds := by
  rw [itemOptions, ← List.filterMap_eq_filter, List.filterMap_filterMap]
  congr 1
  funext c
  unfold Command.option?
  by_cases h : c.name = utf8 "item"
  · simp [h]
  · simp [h, Option.guard]

theorem headingLevel?_of_not_isHeading {c : Command} (h : c.isHeading = false) :
    headingLevel? c.name = none :=
  Option.not_isSome_iff_eq_none.mp (Bool.eq_false_iff.mp h)

/-- No heading is an item. -/
theorem option?_of_heading {c : Command} {l : Nat}
    (h : headingLevel? c.name = some l) : c.option? = none := by
  have hitem : headingLevel? (utf8 "item") = none := by decide +kernel
  refine if_neg fun hname => ?_
  rw [hname, hitem] at h
  cases h

/-! ## One command after another -/

/-- Without a heading, what was opened last stays open and gets the option. -/
theorem push_of_not_isHeading {c : Command} (h : c.isHeading = false)
    (e : Entry) (done : List Entry) :
    Entry.push (e :: done) c = { e with options := e.options ++ c.option?.toList }
      :: done := by
  unfold Entry.push Entry.ofCommand?
  rw [headingLevel?_of_not_isHeading h]
  cases c.option? with
  | none => simp
  | some o => rfl

theorem foldl_push_of_not_isHeading {inside : List Command}
    (h : ∀ c ∈ inside, c.isHeading = false) (e : Entry) (done : List Entry) :
    inside.foldl Entry.push (e :: done) =
      { e with options := e.options ++ inside.filterMap Command.option? } ::
        done := by
  induction inside generalizing e with
  | nil => simp
  | cons c inside ih =>
      rw [List.forall_mem_cons] at h
      rw [List.foldl_cons, push_of_not_isHeading h.1, ih h.2]
      cases hc : c.option? with
      | none => simp [hc]
      | some o => simp [hc]

/-- Once something is open, a command adds its option after all others. -/
theorem flatMap_options_push (e : Entry) (done : List Entry) (c : Command) :
    (Entry.push (e :: done) c).reverse.flatMap Entry.options =
      (e :: done).reverse.flatMap Entry.options ++ c.option?.toList := by
  cases hc : headingLevel? c.name with
  | some l =>
      rw [push_of_heading hc, option?_of_heading hc]
      simp
  | none =>
      rw [push_of_not_isHeading (by rw [Command.isHeading, hc]; rfl)]
      simp

theorem flatMap_options_foldl_push (e : Entry) (done : List Entry)
    (cmds : List Command) :
    (cmds.foldl Entry.push (e :: done)).reverse.flatMap Entry.options =
      (e :: done).reverse.flatMap Entry.options ++
        cmds.filterMap Command.option? := by
  induction cmds generalizing e done with
  | nil => simp
  | cons c cmds ih =>
      have hstep := flatMap_options_push e done c
      obtain ⟨d, ds, hpush, -⟩ := push_append e done [] c
      rw [hpush] at hstep
      rw [List.foldl_cons, hpush, ih, hstep, List.append_assoc]
      cases hc : c.option? with
      | none => simp [hc]
      | some o => simp [hc]

/-! ## Entries -/

/-- The next heading, if there is one, comes first when all before it is
dropped. -/
theorem dropWhile_heading_cases (cmds : List Command) :
    cmds.dropWhile (fun c => !c.isHeading) = [] ∨ ∃ c l rest,
      headingLevel? c.name = some l ∧
      cmds.dropWhile (fun c => !c.isHeading) = c :: rest := by
  have hhead := List.head?_dropWhile_not (fun c : Command => !c.isHeading) cmds
  cases h : cmds.dropWhile fun c => !c.isHeading with
  | nil => exact Or.inl rfl
  | cons c rest =>
      have hc : c.isHeading = true := by simpa [h] using hhead
      obtain ⟨l, hl⟩ := Option.isSome_iff_exists.mp hc
      exact Or.inr ⟨c, l, rest, hl, rfl⟩

theorem exists_closes_dropWhile (cmds : List Command) :
    ∃ level, Closes level (cmds.dropWhile fun c => !c.isHeading) := by
  rcases dropWhile_heading_cases cmds with h | ⟨c, l, rest, hl, h⟩
  · exact ⟨0, by rw [h]; trivial⟩
  · exact ⟨l, by rw [h]; exact closes_of_heading hl (Nat.le_refl l) rest⟩

/-- A heading has the options up to the next one. -/
theorem entries_heading {h : Command} {l : Nat}
    (hl : headingLevel? h.name = some l) (after : List Command) :
    entries (h :: after) =
      ⟨h.arg.trim, l, h.line,
        (after.takeWhile fun c => !c.isHeading).filterMap Command.option?⟩ ::
        entries (after.dropWhile fun c => !c.isHeading) := by
  obtain ⟨level, hclosed⟩ := exists_closes_dropWhile after
  have hinside : ∀ c ∈ after.takeWhile fun c => !c.isHeading,
      c.isHeading = false := by
    intro c hc
    simpa using List.mem_takeWhile_imp hc
  have hfirst : entries (h :: after.takeWhile fun c => !c.isHeading) =
      [⟨h.arg.trim, l, h.line,
        (after.takeWhile fun c => !c.isHeading).filterMap Command.option?⟩] := by
    rw [entries, List.foldl_cons, push_of_heading hl,
      foldl_push_of_not_isHeading hinside]
    simp
  conv_lhs => rw [← List.takeWhile_append_dropWhile
      (p := fun c : Command => !c.isHeading) (l := after)]
  rw [← List.cons_append, entries_append hclosed, hfirst, List.singleton_append]

/-- Nothing is opened before the first heading. -/
theorem entries_eq_dropWhile (cmds : List Command) :
    entries cmds = entries (cmds.dropWhile fun c => !c.isHeading) := by
  induction cmds with
  | nil => rfl
  | cons c cmds ih =>
      by_cases hc : c.isHeading = true
      · rw [List.dropWhile_cons_of_neg (by simp [hc])]
      · have hpush : Entry.push [] c = [] := by
          unfold Entry.push Entry.ofCommand?
          rw [headingLevel?_of_not_isHeading (Bool.eq_false_iff.mpr hc)]
          cases c.option? <;> rfl
        rw [List.dropWhile_cons_of_pos (by simp [hc]), ← ih, entries, entries,
          List.foldl_cons, hpush]

/-- All entries together have the options from the first heading on. -/
theorem flatMap_options_entries (cmds : List Command) :
    (entries cmds).flatMap Entry.options =
      (cmds.dropWhile fun c => !c.isHeading).filterMap Command.option? := by
  rw [entries_eq_dropWhile]
  rcases dropWhile_heading_cases cmds with h | ⟨c, l, rest, hl, h⟩
  · rw [h]
    rfl
  · rw [h, entries, List.foldl_cons, push_of_heading hl,
      flatMap_options_foldl_push,
      List.filterMap_cons_none (option?_of_heading hl)]
    rfl

theorem length_entries (cmds : List Command) :
    (entries cmds).length = (headings cmds).length := by
  have h := congrArg List.length (entries_title cmds)
  rwa [List.length_map, List.length_map] at h

/-! ## Sections -/

/-- **No option is lost or filed in the wrong place.** There are as many
sections as headings. In pre-order, the section of a heading comes after as many
others as there are headings before it, and its options are those that the items
after the heading name, up to the next heading, in order and with repetitions.
All sections together have the options of the items after the first heading, so
no item before it is in any section. -/
theorem sections_options (cmds : List Command) :
    (Section.preorderAll (sections cmds)).length = (headings cmds).length ∧
    (∀ (before after : List Command) (h : Command), cmds = before ++ h :: after →
      h.isHeading = true →
      ∃ s, (Section.preorderAll (sections cmds))[(headings before).length]? =
        some s ∧ s.line = h.line ∧
        s.options = itemOptions (after.takeWhile fun c => !c.isHeading)) ∧
    (Section.preorderAll (sections cmds)).flatMap Section.options =
      itemOptions (cmds.dropWhile fun c => !c.isHeading) := by
  have hentries : (Section.preorderAll (sections cmds)).map Section.entry =
      entries cmds :=
    preorderAll_sections cmds
  refine ⟨?_, ?_, ?_⟩
  · rw [← length_entries, ← hentries, List.length_map]
  · rintro before after h hcmds hheading
    obtain ⟨l, hl⟩ := Option.isSome_iff_exists.mp hheading
    have hsplit : entries cmds = entries before ++ entries (h :: after) := by
      rw [hcmds, entries_append (closes_of_heading hl (Nat.le_refl l) after)]
    have hplace :
        ((Section.preorderAll (sections cmds)).map Section.entry)[(headings
          before).length]? =
        some ⟨h.arg.trim, l, h.line,
          (after.takeWhile fun c => !c.isHeading).filterMap Command.option?⟩ := by
      rw [hentries, hsplit, entries_heading hl, ← length_entries,
        List.getElem?_append_right (Nat.le_refl _), Nat.sub_self,
        List.getElem?_cons_zero]
    rw [List.getElem?_map, Option.map_eq_some_iff] at hplace
    obtain ⟨s, hs, hentry⟩ := hplace
    refine ⟨s, hs, congrArg Entry.line hentry, ?_⟩
    rw [← filterMap_option?]
    exact congrArg Entry.options hentry
  · rw [← filterMap_option?, ← flatMap_options_entries, ← hentries,
      List.flatMap_map]
    rfl

/-- An item before all headings, one that comes twice below a deeper heading,
and an item after that which names no option. -/
theorem sections_options_deeper :
    let cmds : List Command := [⟨utf8 "item", utf8 "--z", 1⟩,
      ⟨utf8 "head1", utf8 "A", 2⟩,
      ⟨utf8 "item", utf8 "--a", 3⟩, ⟨utf8 "head2", utf8 "B", 4⟩,
        ⟨utf8 "item", utf8 " --[no]b=s ", 5⟩,
      ⟨utf8 "over", [], 6⟩, ⟨utf8 "item", utf8 "--b", 7⟩,
        ⟨utf8 "item", utf8 "*", 8⟩, ⟨utf8 "head1", utf8 "C", 9⟩]
    (Section.preorderAll (sections cmds)).length = 3 ∧
    (∃ s, (Section.preorderAll (sections cmds))[1]? = some s ∧ s.line = 4 ∧
      s.options = [utf8 "b", utf8 "b"]) ∧
    (Section.preorderAll (sections cmds)).flatMap Section.options =
      [utf8 "a", utf8 "b", utf8 "b"] := by
  intro cmds
  obtain ⟨hlength, hsection, hall⟩ := sections_options cmds
  obtain ⟨s, hs, hline, hoptions⟩ :=
    hsection (cmds.take 3) (cmds.drop 4) ⟨utf8 "head2", utf8 "B", 4⟩ rfl
    (by decide +kernel)
  refine ⟨hlength.trans (by decide +kernel),
    ⟨s, ?_, hline, hoptions.trans (by decide +kernel)⟩,
    hall.trans (by decide +kernel)⟩
  have hplace : (headings (cmds.take 3)).length = 1 := by decide +kernel
  rwa [hplace] at hs

end Pod

end ToolLint
