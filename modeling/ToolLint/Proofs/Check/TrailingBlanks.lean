import ToolLint.Proofs.Check.HeaderOrder
import Mathlib.Data.List.DropRight

/-!
# Blanks at the ends of headers

The check of headers reports the blanks at the end of a name, and compares the
name without them. Three parts of it remove something from a header line: the
reader of lines one carriage return at the end, then the blanks before the name
are dropped, and then the blanks and carriage returns after it. The order in
which this is done does not matter for the name that is left
(`trimHeader_namePart`). So the comparison is the same if the lines had no
blanks at their ends in the first place, and then there is nothing else to
report.
-/

namespace ToolLint

/-! ## Trimming at the end -/

namespace Text

variable {p q : UInt8 → Bool}

theorem dropWhileEnd_concat_pos {b : UInt8} (hb : p b = true) (s : Text) :
    dropWhileEnd p (s ++ [b]) = dropWhileEnd p s :=
      List.rdropWhile_concat_pos p s b hb

theorem dropWhileEnd_concat_neg {b : UInt8} (hb : p b = false) (s : Text) :
    dropWhileEnd p (s ++ [b]) = s ++ [b] :=
  List.rdropWhile_concat_neg p s b (by simp [hb])

theorem dropWhileEnd_isPrefix (p : UInt8 → Bool) (s : Text) :
    dropWhileEnd p s <+: s :=
  List.rdropWhile_prefix p s

theorem dropWhileEnd_idempotent (p : UInt8 → Bool) (s : Text) :
    dropWhileEnd p (dropWhileEnd p s) = dropWhileEnd p s :=
      List.rdropWhile_idempotent p s

/-- Nothing is dropped if and only if the last byte is one to be kept. -/
theorem dropWhileEnd_eq_self_iff {s : Text} :
    dropWhileEnd p s = s ↔ s.getLast?.any p = false := by
  rcases List.eq_nil_or_concat s with rfl | ⟨s, b, rfl⟩
  · exact iff_of_true rfl rfl
  · rw [List.concat_eq_append, List.getLast?_concat, Option.any_some]
    cases hb : p b with
    | false => simp [dropWhileEnd_concat_neg hb]
    | true =>
        rw [dropWhileEnd_concat_pos hb]
        refine iff_of_false (fun heq => ?_) (by simp)
        have hlength := (dropWhileEnd_isPrefix p s).length_le
        rw [heq, List.length_append, List.length_singleton] at hlength
        omega

/-- What ends in a byte to be kept is kept as a whole. -/
theorem dropWhileEnd_append_right {u : Text} {b : UInt8}
    (hu : u.getLast? = some b) (hb : p b = false) (v : Text) :
    dropWhileEnd p (u ++ v) = u ++ dropWhileEnd p v := by
  induction v using List.reverseRecOn with
  | nil =>
      rw [List.append_nil,
        dropWhileEnd_eq_self_iff.mpr (by rw [hu, Option.any_some, hb])]
      exact (List.append_nil u).symm
  | append_singleton v c ih =>
      rw [← List.append_assoc]
      cases hc : p c with
      | false =>
          rw [dropWhileEnd_concat_neg hc, dropWhileEnd_concat_neg hc,
            List.append_assoc]
      | true => rw [dropWhileEnd_concat_pos hc, dropWhileEnd_concat_pos hc, ih]

/-- The two ends may be trimmed in either order if what goes at the beginning
would go at the end as well. -/
theorem dropWhileEnd_dropWhile (hqp : ∀ b, q b = true → p b = true) (s : Text) :
    dropWhileEnd p (s.dropWhile q) = (dropWhileEnd p s).dropWhile q := by
  induction s using List.reverseRecOn with
  | nil => rfl
  | append_singleton s b ih =>
      rw [List.dropWhile_append]
      cases hb : p b with
      | false =>
          have hq : ¬ q b = true := fun h => by rw [hqp b h] at hb; cases hb
          rw [dropWhileEnd_concat_neg hb, List.dropWhile_append,
            List.dropWhile_cons_of_neg hq]
          split
          · exact dropWhileEnd_concat_neg hb []
          · exact dropWhileEnd_concat_neg hb _
      | true =>
          rw [dropWhileEnd_concat_pos hb, ← ih]
          split
          · rename_i hempty
            rw [List.isEmpty_iff.mp hempty]
            cases hq : q b with
            | true => rw [List.dropWhile_cons_of_pos hq]; rfl
            | false =>
                rw [List.dropWhile_cons_of_neg
                    (by simp [hq])]; exact dropWhileEnd_concat_pos hb []
          · exact dropWhileEnd_concat_pos hb _

theorem dropWhileEnd_dropCr (hcr : p cr = true) (s : Text) :
    dropWhileEnd p (dropCr s) = dropWhileEnd p s := by
  rcases eq_or_eq_append_cr s with heq | heq
  · rw [← heq]
  · conv_rhs => rw [heq, dropWhileEnd_concat_pos hcr]

end Text

namespace Check

/-! ## Header lines -/

/-- A byte that should not be at the end of a header. -/
def isTrailing (b : UInt8) : Bool := b == space || b == tab || b == cr

theorem trimHeader_eq (name : Text) :
    trimHeader name = Text.dropWhileEnd isTrailing name :=
  rfl

/-- The part of a header line after `=head1`, without one carriage return at its
end and without the blanks before the name. -/
def namePart (line : Text) : Text :=
  (line.dropCr.drop (utf8 "=head1").length).dropWhile isSpaceOrTab

def endsTrailing (name : Text) : Bool := name.getLast?.any isTrailing

theorem namePart_append (r : Text) :
    namePart (utf8 "=head1" ++ r) = (Text.dropCr r).dropWhile isSpaceOrTab := by
  rw [namePart, Text.dropCr_append (by decide), List.drop_left]

theorem headerName_dropCr {line : Text} (h : marksHeader line = true) :
    headerName line.dropCr = namePart line := by
  obtain ⟨r, rfl⟩ := marksHeader_iff.mp h
  rw [Text.dropCr_append (by decide), headerName_append, namePart_append]

/-- A header line without blanks and carriage returns at its end. Other lines
stay as they are. -/
def stripLine (line : Text) : Text :=
  if marksHeader line then Text.dropWhileEnd isTrailing line else line

theorem stripLine_append (r : Text) :
    stripLine (utf8 "=head1" ++ r) = utf8 "=head1" ++
      Text.dropWhileEnd isTrailing r := by
  have hlast : (utf8 "=head1").getLast? = some (ascii '1') := by decide
  rw [stripLine, if_pos (marksHeader_iff.mpr (List.prefix_append _ r)),
    Text.dropWhileEnd_append_right hlast (by decide)]

theorem marksHeader_stripLine (line : Text) :
    marksHeader (stripLine line) = marksHeader line := by
  by_cases h : marksHeader line = true
  · obtain ⟨r, rfl⟩ := marksHeader_iff.mp h
    rw [h, stripLine_append, marksHeader_iff]
    exact List.prefix_append _ _
  · rw [stripLine, if_neg h]

theorem stripLine_isPrefix (line : Text) : stripLine line <+: line := by
  unfold stripLine
  split
  · exact Text.dropWhileEnd_isPrefix isTrailing line
  · exact List.prefix_rfl

/-- **The name that is compared** is the one that the line has without the
blanks at its end. -/
theorem trimHeader_namePart {line : Text} (h : marksHeader line = true) :
    trimHeader (namePart line) = namePart (stripLine line) := by
  have hblank : ∀ b, isSpaceOrTab b = true → isTrailing b = true := by
    intro b hb
    rw [isTrailing, ← isSpaceOrTab, hb, Bool.true_or]
  obtain ⟨r, rfl⟩ := marksHeader_iff.mp h
  have hcr : Text.dropCr (Text.dropWhileEnd isTrailing r) =
      Text.dropWhileEnd isTrailing r := by
    have hself :=
      Text.dropWhileEnd_eq_self_iff.mp (Text.dropWhileEnd_idempotent isTrailing r)
    rw [Text.dropCr, Text.dropLastIf, if_neg]
    intro hlast
    rw [hlast] at hself
    exact absurd hself (by decide)
  calc trimHeader (namePart (utf8 "=head1" ++ r))
      = Text.dropWhileEnd isTrailing
        ((Text.dropCr r).dropWhile isSpaceOrTab) := by
          rw [namePart_append, trimHeader_eq]
    _ = (Text.dropWhileEnd isTrailing (Text.dropCr r)).dropWhile isSpaceOrTab :=
      Text.dropWhileEnd_dropWhile hblank _
    _ = (Text.dropCr (Text.dropWhileEnd isTrailing r)).dropWhile
      isSpaceOrTab := by
        rw [Text.dropWhileEnd_dropCr rfl, hcr]
    _ = namePart (stripLine (utf8 "=head1" ++ r)) := by
      rw [stripLine_append, namePart_append]

/-! ## Texts -/

/-- The text without blanks and carriage returns at the ends of its header
lines. -/
def stripHeaders (s : Text) : Text := Text.unlines (s.lines.map stripLine)

theorem lines_stripHeaders (s : Text) :
    (stripHeaders s).lines = s.lines.map stripLine := by
  have hne : s.lines.map stripLine ≠ [] :=
    fun heq => Text.split_ne_nil lf s (List.map_eq_nil_iff.mp heq)
  refine Text.split_join hne fun part hpart => ?_
  obtain ⟨line, hline, rfl⟩ := List.mem_map.mp hpart
  exact fun hmem => Text.notMem_of_mem_split hline
    ((stripLine_isPrefix line).subset hmem)

theorem headerLines_stripHeaders (s : Text) :
    headerLines (stripHeaders s) = (headerLines s).map stripLine := by
  have hcomp : marksHeader ∘ stripLine = marksHeader :=
    funext marksHeader_stripLine
  rw [headerLines, lines_stripHeaders, List.filter_map, hcomp, headerLines]

theorem map_headerName_headerLines (s : Text) :
    ((headerLines s).map Text.dropCr).map headerName =
      (headerLines s).map namePart := by
  rw [List.map_map]
  apply List.map_congr_left
  intro line hline
  exact headerName_dropCr (List.mem_filter.mp hline).2

theorem map_headerName_stripHeaders (s : Text) :
    ((headerLines (stripHeaders s)).map Text.dropCr).map headerName =
      (headerLines s).map fun line => trimHeader (namePart line) := by
  rw [map_headerName_headerLines, headerLines_stripHeaders, List.map_map]
  apply List.map_congr_left
  intro line hline
  exact (trimHeader_namePart (List.mem_filter.mp hline).2).symm

theorem markedHeaders_stripHeaders (s : Text) :
    markedHeaders (stripHeaders s) = markedHeaders s := by
  have hnames : ∀ lines : List Text,
      namesIn lines = (lines.map headerName).map trimHeader := by
    intro lines
    rw [List.map_map]
    rfl
  rw [markedHeaders, markedHeaders, hnames, hnames, map_headerName_stripHeaders,
    map_headerName_headerLines, List.map_map, List.map_map]
  apply List.map_congr_left
  intro line _
  exact Text.dropWhileEnd_idempotent isTrailing (namePart line)

/-! ## What is written -/

/-- What is reported of a header with blanks at its end. -/
def trailingEntry (tool : Tool) (name : Text) : Report.Entry :=
  .violation (utf8 "%s has trailing whitespace in header %q") [tool.name, name]

def trailingLine (tool : Tool) (name : Text) : Text :=
  tool.name ++ utf8 " has trailing whitespace in header " ++ name.quoted ++ [lf]

theorem render_trailingEntry (tool : Tool) (name : Text) :
    (trailingEntry tool name).render = trailingLine tool name := by
  have hpieces :
      Text.pieces (utf8 "%s has trailing whitespace in header %q" ++ [lf]) =
      "%s has trailing whitespace in header %q\n".toList.map .char :=
    Text.pieces_flatMap_encodeChar
      "%s has trailing whitespace in header %q\n".toList
  have hfill :
      Format.fill []
        ("%s has trailing whitespace in header %q\n".toList.map .char)
        [tool.name, name] =
      (tool.name :: " has trailing whitespace in header ".toList.map encodeChar ++
        [name.quoted, [lf]]).flatten ++ [] :=
    rfl
  rw [trailingEntry, Report.Entry.render, Format.apply, hpieces, hfill,
    trailingLine, utf8, List.flatMap_def]
  simp only [List.cons_append, List.flatten_cons, List.flatten_append,
    List.flatten_nil, List.append_nil, List.append_assoc]

theorem reports_endEvents (tool : Tool) (names : List Text) :
    Event.reports (names.flatMap (endEvents tool)) =
      (names.filter endsTrailing).map (trailingEntry tool) := by
  induction names with
  | nil => rfl
  | cons name names ih =>
      have hself : trimHeader name = name ↔ endsTrailing name = false :=
        Text.dropWhileEnd_eq_self_iff
      rw [List.flatMap_cons, Event.reports_append, ih, endEvents,
        List.filter_cons]
      cases hends : endsTrailing name with
      | false =>
          rw [if_pos (hself.mpr hends)]
          rfl
      | true =>
          rw [if_neg (by rw [hself, hends]; exact Bool.noConfusion)]
          rfl

/-- First the names that end in a blank, then the comparison. -/
theorem reportText_headerEvents (rules : Rules) (tool : Tool)
    (lines : List Text) :
    Event.reportText (headerEvents rules tool lines) =
      ((lines.map headerName).filter endsTrailing).flatMap (trailingLine tool) ++
        Report.render (orderEntries rules tool (namesIn lines)) := by
  rw [Event.reportText, headerEvents, Event.reports_append, reports_endEvents,
    Event.reports_map_report, Report.render, List.flatMap_append,
    List.flatMap_map]
  simp only [render_trailingEntry]
  rfl

/-- **Blanks at the ends of headers do not matter for their order.** Let no
header line of the text be too long to be read, and let the search program see
the text in one case, and in the other its copy without blanks and carriage
returns at the ends of the header lines. The check comes to its end both times.

* For the copy it writes the comparison of the headers, or nothing if there is
  none.
* For the text it writes one line for each header whose name ends in a blank or
  a carriage return, in the order of the text, and then the same comparison. -/
theorem headerOrder_trailing (rules : Rules) (script : Script)
    (files files' : Files) (tool : Tool) (hscript : script.LeavesSearch)
    (hlines : ∀ line ∈ tool.text.lines, utf8 "=head1" <+: line →
      line.length < 65536)
    (hfile : files.read tool.path = .ok tool.text)
    (hfile' : files'.read tool.path = .ok (stripHeaders tool.text)) :
    let copy : Tool := { tool with text := stripHeaders tool.text }
    let activity := (headerOrder rules (script.programs files)).run tool
    let activity' := (headerOrder rules (script.programs files')).run copy
    let table := Report.render (orderEntries rules tool (markedHeaders tool.text))
    activity.result = .ok () ∧ activity'.result = .ok () ∧
    Event.reportText activity'.events = table ∧
    Event.reportText activity.events =
      (((tool.text.lines.filter (utf8 "=head1").isPrefixOf).map namePart).filter
        endsTrailing).flatMap
        (trailingLine tool) ++ table := by
  have hfits : ∀ line ∈ headerLines tool.text, line.fits = true := by
    intro line hline
    obtain ⟨hmem, hmark⟩ := List.mem_filter.mp hline
    exact decide_eq_true (hlines line hmem (marksHeader_iff.mp hmark))
  have hfits' : ∀ line ∈ headerLines (stripHeaders tool.text),
      line.fits = true := by
    rw [headerLines_stripHeaders]
    intro line hline
    obtain ⟨line, hmem, rfl⟩ := List.mem_map.mp hline
    exact decide_eq_true (Nat.lt_of_le_of_lt (stripLine_isPrefix line).length_le
      (of_decide_eq_true (hfits line hmem)))
  intro copy activity activity' table
  have hrun : activity = _ := headerOrder_eq hscript hfile hfits
  have hrun' : activity' = _ :=
    @headerOrder_eq rules script files' copy _ hscript hfile' hfits'
  have hclean :
      ((headerLines tool.text).map fun line => trimHeader (namePart line)).filter
        endsTrailing = [] := by
    rw [List.filter_eq_nil_iff]
    intro name hname
    obtain ⟨line, -, rfl⟩ := List.mem_map.mp hname
    rw [Bool.not_eq_true]
    exact Text.dropWhileEnd_eq_self_iff.mp
      (Text.dropWhileEnd_idempotent isTrailing _)
  refine ⟨congrArg Activity.result hrun, congrArg Activity.result hrun', ?_, ?_⟩
  · rw [hrun']
    show Event.reportText (headerEvents rules copy _) = table
    rw [reportText_headerEvents, map_headerName_stripHeaders, hclean,
      ← markedHeaders, markedHeaders_stripHeaders]
    rfl
  · rw [hrun]
    show Event.reportText (headerEvents rules tool _) = _
    rw [reportText_headerEvents, map_headerName_headerLines]
    rfl

/-! A name with a blank and a carriage return behind it, a name that is all
blank, and one with two carriage returns, of which one belongs to the end of the
line. -/

def trailingTool : Tool :=
  { headedTool with text := utf8 "=head1 B \r\n=head1 \t\nx \n=head1\tA\t\r\r\n" }

theorem headerOrder_trailing_three :
    let content := utf8 "=head1 B\n=head1\nx \n=head1\tA\n"
    let copy : Tool := { trailingTool with text := content }
    let activity :=
      (headerOrder headedRules
        (Script.empty.programs (headedFiles trailingTool.text))).run trailingTool
    let activity' :=
      (headerOrder headedRules (Script.empty.programs (headedFiles content))).run
        copy
    let table :=
      utf8 "pt-x has headers out of order:\nACTUAL  CORRECT \nB       A        \nA       B        \n\n"
    activity.result = .ok () ∧ activity'.result = .ok () ∧
    Event.reportText activity'.events = table ∧
    Event.reportText activity.events =
      utf8 "pt-x has trailing whitespace in header \"B \"\npt-x has trailing whitespace in header \"A\\t\\r\"\n" ++
        table := by
  intro content copy activity activity' table
  have hcontent : stripHeaders trailingTool.text = content := by decide +kernel
  have htable :
      Report.render (orderEntries headedRules trailingTool
        (markedHeaders trailingTool.text)) = table := by
    decide +kernel
  have hwritten :
      (((trailingTool.text.lines.filter (utf8 "=head1").isPrefixOf).map
        namePart).filter endsTrailing).flatMap
      (trailingLine trailingTool) =
      utf8 "pt-x has trailing whitespace in header \"B \"\npt-x has trailing whitespace in header \"A\\t\\r\"\n" := by
    decide +kernel
  have htrailing :=
    headerOrder_trailing headedRules Script.empty (headedFiles trailingTool.text)
    (headedFiles (stripHeaders trailingTool.text)) trailingTool
      Script.leavesSearch_empty (by decide +kernel)
    (by decide +kernel) (by decide +kernel)
  rw [hcontent, htable, hwritten] at htrailing
  exact htrailing

end Check

end ToolLint
