import ToolLint.Proofs.Pod.Command
import ToolLint.Proofs.Pod.Options
import Mathlib.Data.List.Induction

/-!
# Documented options

One reader takes the options of a text from its commands one after another and
keeps of each the first (`eraseDups_eq_firsts`), another files them below the
headings. They have the same options in the same order, if those before the
first heading are added, which belong to no section (`filterMap_option?_eq`).
-/

namespace ToolLint

namespace Pod

/-! ## Names -/

theorem isOptionByte_of_mem_documentedOptions {src o : Text}
    (h : o ∈ documentedOptions src) : ∀ b ∈ o, isOptionByte b = true := by
  rw [documentedOptions, List.mem_eraseDups, List.mem_filterMap] at h
  obtain ⟨c, -, hc⟩ := h
  unfold Command.option? at hc
  split at hc
  · exact (isOptionName_of_optionName? hc).isOptionByte
  · cases hc

/-! ## First occurrences -/

theorem nodup_eraseDups (ts : List Text) : ts.eraseDups.Nodup := by
  cases ts with
  | nil => exact List.nodup_nil
  | cons t ts =>
      rw [List.eraseDups_cons, List.nodup_cons, List.mem_eraseDups]
      exact ⟨by simp, nodup_eraseDups _⟩
termination_by ts.length
decreasing_by exact Nat.lt_succ_of_le (List.length_filter_le _ _)

/-- No option is documented twice. -/
theorem nodup_documentedOptions (src : Text) : (documentedOptions src).Nodup :=
  nodup_eraseDups _

/-- The members of a list that do not stand among those before them. -/
def firsts (ts : List Text) : List Text :=
  (ts.zipIdx.filter fun p => !(ts.take p.2).contains p.1).map Prod.fst

theorem firsts_concat (ts : List Text) (t : Text) :
    firsts (ts ++ [t]) = firsts ts ++ if t ∈ ts then [] else [t] := by
  have hbefore : ∀ p ∈ ts.zipIdx, (!((ts ++ [t]).take p.2).contains p.1) =
      !(ts.take p.2).contains p.1 := by
    intro p hp
    have hlt : p.2 < ts.length := by simpa using List.snd_lt_of_mem_zipIdx hp
    rw [List.take_append_of_le_length (Nat.le_of_lt hlt)]
  unfold firsts
  rw [List.zipIdx_append, List.filter_append, List.map_append,
    List.filter_congr hbefore]
  by_cases ht : t ∈ ts
  · simp [ht]
  · simp [ht]

theorem eraseDups_eq_firsts (ts : List Text) : ts.eraseDups = firsts ts := by
  -- Both look back only, so the induction is from the end: the last member is
  -- kept if it is new.
  induction ts using List.reverseRecOn with
  | nil => rfl
  | append_singleton ts t ih =>
      rw [List.eraseDups_append, ih, firsts_concat]
      by_cases ht : t ∈ ts
      · simp [List.removeAll, ht]
      · simp [List.removeAll, ht, List.eraseDups_cons]

/-! ## Options of sections -/

/-- The options of all commands are those before the first heading, and then
those of the sections. -/
theorem filterMap_option?_eq (cmds : List Command) :
    cmds.filterMap Command.option? =
      itemOptions (cmds.takeWhile fun c => !c.isHeading) ++
      (Section.preorderAll (sections cmds)).flatMap Section.options := by
  have hentries : (Section.preorderAll (sections cmds)).map Section.entry =
      entries cmds :=
    preorderAll_sections cmds
  have hsections : (Section.preorderAll (sections cmds)).flatMap Section.options =
      (cmds.dropWhile fun c => !c.isHeading).filterMap Command.option? := by
    rw [← flatMap_options_entries, ← hentries, List.flatMap_map]
    rfl
  rw [hsections, ← filterMap_option?, ← List.filterMap_append,
    List.takeWhile_append_dropWhile]

/-- **The documented options are those of the sections.** No option is
documented twice, and the documented options are the first occurrences among the
options that the items before the first heading name, followed by those of all
sections in pre-order. So if no item before the first heading names an option,
the documented options are those that some section has. -/
theorem documentedOptions_sections (src : Text) :
    let forest := Section.preorderAll (sections (commands src))
    let outside := itemOptions ((commands src).takeWhile fun c => !c.isHeading)
    (documentedOptions src).Nodup ∧
    documentedOptions src = firsts (outside ++ forest.flatMap Section.options) ∧
    (outside = [] → ∀ o, o ∈ documentedOptions src ↔ ∃ s ∈ forest,
      o ∈ s.options) := by
  intro forest outside
  have hall : (commands src).filterMap Command.option? =
      outside ++ forest.flatMap Section.options :=
    filterMap_option?_eq (commands src)
  refine ⟨nodup_documentedOptions src, ?_, ?_⟩
  · rw [documentedOptions, hall, eraseDups_eq_firsts]
  · intro hnone o
    rw [documentedOptions, hall, hnone, List.nil_append, List.mem_eraseDups,
      List.mem_flatMap]

/-- One option is documented below two headings, and the item before them names
none. -/
theorem documentedOptions_sections_twice :
    let src :=
      utf8 "=item *\n=head1 A\n=item --b\n=head2 B\n=item --a\n=item --[no]b\n"
    let forest := Section.preorderAll (sections (commands src))
    itemOptions ((commands src).takeWhile fun c => !c.isHeading) = [] ∧
    documentedOptions src = [utf8 "b", utf8 "a"] ∧
    ∀ o, o ∈ [utf8 "b", utf8 "a"] ↔ ∃ s ∈ forest, o ∈ s.options := by
  intro src forest
  obtain ⟨-, -, hmem⟩ := documentedOptions_sections src
  have hnone : itemOptions ((commands src).takeWhile fun c => !c.isHeading) =
      [] := by decide +kernel
  have hdocumented : documentedOptions src = [utf8 "b", utf8 "a"] := by
    decide +kernel
  have hsections := hmem hnone
  rw [hdocumented] at hsections
  exact ⟨hnone, hdocumented, hsections⟩

end Pod

end ToolLint
