import ToolLint.Check.Options
import ToolLint.Proofs.Activity
import ToolLint.Proofs.Order
import ToolLint.Proofs.Pod.Locality

/-!
# The check of the order of options is exact and local

The check looks at the first top-level section named `OPTIONS` and at all
sections below it. It compares the options of a section with their sorted form
if they are not in order, and says nothing of the section if they are. What
follows the section after it is closed makes no difference.
-/

namespace ToolLint

namespace Check

open Pod (Section Closes commands sections)

/-- What is reported of a section whose options are not in order. -/
def orderEntry (tool : Tool) (s : Section) : Report.Entry :=
  .compare (tool.name ++ utf8 " has unsorted options in " ++ s.name ++ utf8 ":")
    (Order.displaced s.options)

theorem sectionOrder_eq (tool : Tool) (s : Section) :
    sectionOrder tool s =
      ⟨if Order.InOrder s.options then [] else [.report (orderEntry tool s)],
        .ok ()⟩ := by
  rw [sectionOrder, compare_eq]
  simp only [Order.displaced_eq_nil_iff]
  rfl

/-- Each section that is not in order gets one entry, in the order of the
sections. -/
theorem each_sectionOrder (tool : Tool) (ss : List Section) :
    Activity.each (sectionOrder tool) ss =
      ⟨(ss.filter fun t => ¬ Order.InOrder t.options).map fun t =>
        .report (orderEntry tool t),
        .ok (ss.map fun _ => ())⟩ := by
  rw [Activity.each_eq fun s _ => sectionOrder_eq tool s]
  congr 1
  induction ss with
  | nil => rfl
  | cons s ss ih =>
      rw [List.flatMap_cons, ih]
      by_cases h : Order.InOrder s.options
      · simp [h]
      · simp [h]

theorem optionOrder_of_find {tool : Tool} {s : Section}
    (h : Pod.find? (sections (commands tool.text)) (utf8 "OPTIONS") = some s) :
    optionOrder.run tool =
      ⟨(s.preorder.filter fun t => ¬ Order.InOrder t.options).map fun t =>
        .report (orderEntry tool t),
        .ok ()⟩ := by
  unfold optionOrder
  simp only [h, each_sectionOrder, Activity.andThen, Activity.done,
    List.append_nil]

theorem optionOrder_of_not_find {tool : Tool}
    (h : Pod.find? (sections (commands tool.text)) (utf8 "OPTIONS") = none) :
    optionOrder.run tool = .error .noOptionsSection := by
  unfold optionOrder
  simp only [h]

/-- **The check of the order of options is exact and local.**

* It fails, without a report, exactly if no top-level section is named
  `OPTIONS`.
* Otherwise it comes to its end. Let `s` be the first such section. In pre-order
  over `s` and the sections below it, each whose own options are not in bytewise
  order gets one comparison, and nothing else is seen of the check.
* Let the commands of the text be cut after those of `s`, where nothing goes on
  with it: the first heading or option that follows, if any, is a heading that
  is not deeper than that of `s`. Any other commands of this kind may stand
  there instead, or none, and the check does the same. -/
theorem optionOrder_exact (tool : Tool) :
    ((optionOrder.run tool).result = .error (.error .noOptionsSection) ∧
        Event.reportText (optionOrder.run tool).events = [] ↔
      ∀ s ∈ sections (commands tool.text), s.name ≠ utf8 "OPTIONS") ∧
    Error.noOptionsSection.message = utf8 "no OPTIONS section" ∧
    ∀ (earlier later : List Section) (s : Section),
      sections (commands tool.text) = earlier ++ s :: later →
      (∀ t ∈ earlier, t.name ≠ utf8 "OPTIONS") → s.name = utf8 "OPTIONS" →
      (optionOrder.run tool).result = .ok () ∧
      (optionOrder.run tool).events =
        (s.preorder.filter fun t => ¬ t.options.Pairwise fun a b => a ≤ b).map
          (fun t =>
          .report
            (.compare (tool.name ++ utf8 " has unsorted options in " ++
              t.name ++ utf8 ":")
            (Order.displaced t.options))) ∧
      ∀ (text : Text) (before inside rest rest' : List Pod.Command)
        (o : Pod.Command),
        commands tool.text = before ++ o :: (inside ++ rest) → o.line = s.line →
        Closes s.level rest →
        commands text = before ++ o :: (inside ++ rest') → Closes s.level rest' →
        optionOrder.run { tool with text := text } = optionOrder.run tool := by
  refine ⟨?_, rfl, ?_⟩
  · cases h : Pod.find? (sections (commands tool.text)) (utf8 "OPTIONS") with
    | none =>
        have hnone : ∀ s ∈ sections (commands tool.text),
            s.name ≠ utf8 "OPTIONS" := by
          simpa [Pod.find?] using h
        rw [optionOrder_of_not_find h]
        exact iff_of_true ⟨rfl, rfl⟩ hnone
    | some s =>
        rw [optionOrder_of_find h]
        refine iff_of_false (fun hfail => by cases hfail.1) fun hnone => ?_
        have hname :=
          List.find?_some (p := fun t : Section => t.name == utf8 "OPTIONS") h
        exact hnone s (List.mem_of_find?_eq_some h) (beq_iff_eq.mp hname)
  · intro earlier later s hroots hearlier hname
    have hfind : Pod.find? (sections (commands tool.text)) (utf8 "OPTIONS") =
        some s := by
      rw [hroots, Pod.find?, List.find?_append]
      have hnone : (earlier.find? fun t => t.name == utf8 "OPTIONS") = none := by
        simpa using hearlier
      rw [hnone, Option.none_or]
      exact List.find?_cons_of_pos (beq_iff_eq.mpr hname)
    have hrun := optionOrder_of_find hfind
    refine ⟨by rw [hrun], by rw [hrun]; rfl, ?_⟩
    intro text before inside rest rest' o hcmds hline hrest hcmds' hrest'
    have hfind' :
        Pod.find? (sections (commands text)) (utf8 "OPTIONS") = some s :=
      Pod.find?_sections_of_closes hfind hcmds hline hrest hcmds' hrest'
    rw [hrun]
    exact @optionOrder_of_find { tool with text := text } s hfind'

/-! A section that is in order, with one below it that is not. Neither the
options before the section nor those after it count. -/

def unsortedTool : Tool where
  name := utf8 "pt-x"
  path := utf8 "pt-x"
  absolutePath := utf8 "/w/pt-x"
  text :=
    utf8 "=head2 A\n=item --q\n=head1 OPTIONS\n=item --b\n=head2 B\n=item --d\n=item --c\n=head1 C\n=item --a"

theorem optionOrder_exact_below :
    (optionOrder.run unsortedTool).result = .ok () ∧
    (optionOrder.run unsortedTool).events =
      [.report (.compare (utf8 "pt-x has unsorted options in B:")
        [⟨utf8 "d", utf8 "c"⟩, ⟨utf8 "c", utf8 "d"⟩])] ∧
    optionOrder.run { unsortedTool with
      text :=
        utf8 "=head2 A\n=item --q\n=head1 OPTIONS\n=item --b\n=head2 B\n=item --d\n=item --c\n=over" } =
        optionOrder.run unsortedTool := by
  have hentries : Pod.entries (commands unsortedTool.text) =
      [⟨utf8 "A", 2, 1, [utf8 "q"]⟩, ⟨utf8 "OPTIONS", 1, 3, [utf8 "b"]⟩,
        ⟨utf8 "B", 2, 5, [utf8 "d", utf8 "c"]⟩,
        ⟨utf8 "C", 1, 8, [utf8 "a"]⟩] := by decide +kernel
  have hroots : sections (commands unsortedTool.text) =
      [.node ⟨utf8 "A", 2, 1, [utf8 "q"]⟩ []] ++
        .node ⟨utf8 "OPTIONS", 1, 3, [utf8 "b"]⟩
          [.node ⟨utf8 "B", 2, 5, [utf8 "d", utf8 "c"]⟩ []] ::
          [.node ⟨utf8 "C", 1, 8, [utf8 "a"]⟩ []] := by
    rw [Pod.sections_eq, hentries]
    simp [Pod.nest]
  obtain ⟨hresult, hevents, hlocal⟩ :=
    (optionOrder_exact unsortedTool).2.2 _ _ _ hroots
      (by simp [Section.name, Section.entry]; decide) rfl
  refine ⟨hresult, hevents.trans ?_, ?_⟩
  · have hb : Order.InOrder [utf8 "b"] := by decide +kernel
    have hdc : ¬ Order.InOrder [utf8 "d", utf8 "c"] := by decide +kernel
    have hle : Text.le (utf8 "d") (utf8 "c") = false := by decide +kernel
    have hne : utf8 "d" ≠ utf8 "c" := by decide
    have hrows : Order.displaced [utf8 "d", utf8 "c"] =
        [⟨utf8 "d", utf8 "c"⟩, ⟨utf8 "c", utf8 "d"⟩] := by
      simp [Order.displaced_eq, Order.differing, Order.paired, Order.sorted,
        List.mergeSort, hle, hne, hne.symm]
    have hheading :
        unsortedTool.name ++
          (utf8 " has unsorted options in " ++ (utf8 "B" ++ utf8 ":")) =
        utf8 "pt-x has unsorted options in B:" := by decide
    unfold Order.InOrder at hb hdc
    simp [Section.preorder, Section.preorderAll_cons, Section.options,
      Section.name, Section.entry, hb, hdc, hrows, hheading]
  · refine hlocal _
      [⟨utf8 "head2", utf8 "A", 1⟩, ⟨utf8 "item", utf8 "--q", 2⟩]
      [⟨utf8 "item", utf8 "--b", 4⟩, ⟨utf8 "head2", utf8 "B", 5⟩,
        ⟨utf8 "item", utf8 "--d", 6⟩,
        ⟨utf8 "item", utf8 "--c", 7⟩]
      [⟨utf8 "head1", utf8 "C", 8⟩,
        ⟨utf8 "item", utf8 "--a", 9⟩] [⟨utf8 "over", [], 8⟩]
      ⟨utf8 "head1", utf8 "OPTIONS", 3⟩ (by decide +kernel) rfl ?_
        (by decide +kernel) ?_
    · exact Pod.closes_of_heading (l := 1) (by decide +kernel) (Nat.le_refl 1) _
    · have hover : Pod.headingLevel? (utf8 "over") = none := by decide +kernel
      rw [Closes, hover]
      exact ⟨by decide +kernel, trivial⟩

/-- If something stands in the place of what follows the section that does not
close it, it goes on: here the next heading is replaced by an option, which is
out of order. -/
theorem optionOrder_not_local :
    ¬ ∀ (tool : Tool) (text : Text) (before inside rest rest' : List Pod.Command)
      (o h : Pod.Command)
        (s : Section) (l : Nat),
      Pod.find? (sections (commands tool.text)) (utf8 "OPTIONS") = some s →
      commands tool.text = before ++ o :: (inside ++ h :: rest) →
      o.line = s.line →
      (∀ c ∈ inside, ∀ k, Pod.headingLevel? c.name = some k → s.level < k) →
      Pod.headingLevel? h.name = some l → l ≤ s.level →
      commands text = before ++ o :: (inside ++ rest') →
      optionOrder.run { tool with text := text } = optionOrder.run tool := by
  intro hlocal
  let tool : Tool :=
    { unsortedTool with text := utf8 "=head1 OPTIONS\n=item --b\n=head1 C" }
  let text : Text := utf8 "=head1 OPTIONS\n=item --b\n=item --a"
  have hentries : Pod.entries (commands tool.text) =
      [⟨utf8 "OPTIONS", 1, 1, [utf8 "b"]⟩, ⟨utf8 "C", 1, 3, []⟩] := by
        decide +kernel
  have hentries' : Pod.entries (commands text) =
      [⟨utf8 "OPTIONS", 1, 1, [utf8 "b", utf8 "a"]⟩] := by decide +kernel
  have hfind : Pod.find? (sections (commands tool.text)) (utf8 "OPTIONS") =
      some (.node ⟨utf8 "OPTIONS", 1, 1, [utf8 "b"]⟩ []) := by
    rw [Pod.sections_eq, hentries]
    simp [Pod.nest, Pod.find?, Section.name, Section.entry]
  have hfind' : Pod.find? (sections (commands text)) (utf8 "OPTIONS") =
      some (.node ⟨utf8 "OPTIONS", 1, 1, [utf8 "b", utf8 "a"]⟩ []) := by
    rw [Pod.sections_eq, hentries']
    simp [Pod.nest, Pod.find?, Section.name, Section.entry]
  have hsame : optionOrder.run { tool with text := text } =
      optionOrder.run tool := by
    refine hlocal tool text [] [⟨utf8 "item", utf8 "--b", 2⟩] []
      [⟨utf8 "item", utf8 "--a", 3⟩]
      ⟨utf8 "head1", utf8 "OPTIONS", 1⟩ ⟨utf8 "head1", utf8 "C", 3⟩ _ 1 hfind
        (by decide +kernel) rfl ?_
      (by decide +kernel) (Nat.le_refl 1) (by decide +kernel)
    have hitem : Pod.headingLevel? (utf8 "item") = none := by decide +kernel
    simp [hitem]
  have hb : Order.InOrder [utf8 "b"] := by decide +kernel
  have hba : ¬ Order.InOrder [utf8 "b", utf8 "a"] := by decide +kernel
  rw [optionOrder_of_find hfind,
    @optionOrder_of_find { tool with text := text } _ hfind'] at hsame
  simp [Section.preorder, Section.options, Section.entry, hb, hba] at hsame

end Check

end ToolLint
