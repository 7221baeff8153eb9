import ToolLint.Check.Documentation
import ToolLint.Proofs.Pattern.Reading
import ToolLint.Proofs.Pod.Command
import ToolLint.Proofs.Search

/-!
# The check of the order of headers

The check takes every line for a header that begins with `=head1`, whatever
follows. The reader of commands wants a blank, or nothing, after the name.
`headerOrder_eq` says what the check does in terms of the lines that it takes
for headers. The two readers have the same headers of a text exactly if no line
goes on after `=head1` with something else than a blank
(`markedHeaders_eq_iff`).
-/

namespace ToolLint

/-! ## The search expression -/

namespace Check

def marksHeader (line : Text) : Bool := (utf8 "=head1").isPrefixOf line

theorem marksHeader_iff {line : Text} :
    marksHeader line = true ↔ utf8 "=head1" <+: line :=
  List.isPrefixOf_iff_prefix

def headerPattern : Pattern :=
  .all (.lineStart :: "=head1".toList.map Pattern.literal)

theorem read_header : Pattern.read (utf8 "^=head1") = .ok headerPattern := by
  decide +kernel

theorem found_header (line : Text) :
    headerPattern.found line.chars = marksHeader line := by
  have hascii : ∀ b ∈ utf8 "=head1", IsAscii b :=
    List.all_iff_forall_prop.mp (by decide)
  have hchars : (utf8 "=head1").map byteChar = "=head1".toList := by decide
  rw [Bool.eq_iff_iff, Pattern.found_iff, marksHeader_iff]
  constructor
  · rintro ⟨u, w, r, hline, hreads⟩
    obtain ⟨x, y, rfl, ⟨rfl, hu⟩, hy⟩ := Pattern.reads_all_cons_iff.mp hreads
    rw [← List.append_nil ("=head1".toList.map _), Pattern.reads_literal_append]
      at hy
    obtain ⟨v, rfl, rfl⟩ := hy
    obtain rfl := List.length_eq_zero_iff.mp hu
    rw [List.nil_append, List.nil_append, List.append_nil, ← hchars] at hline
    obtain ⟨s, rfl, -⟩ := Text.eq_append_of_chars_eq_word_append hascii hline
    exact List.prefix_append _ s
  · rintro ⟨r, rfl⟩
    refine ⟨[], "=head1".toList, Text.chars r, ?_, ?_⟩
    · rw [Text.chars_word_append hascii, hchars]
      rfl
    · refine Pattern.reads_all_cons_iff.mpr ⟨[], _, rfl, ⟨rfl, rfl⟩, ?_⟩
      rw [← List.append_nil ("=head1".toList.map _), Pattern.reads_literal_append]
      exact ⟨[], (List.append_nil _).symm, rfl⟩

def headerLines (content : Text) : List Text := content.lines.filter marksHeader

theorem hits_header (content : Text) :
    Grep.hits content (utf8 "^=head1") = headerLines content := by
  have hnil : marksHeader [] = false := by decide
  unfold Grep.hits
  rw [read_header]
  simp only [Grep.matching, found_header]
  exact Grep.filter_fileLines hnil content

/-! ## What the check does -/

/-- What is reported of a header with blanks at its end. -/
def endEvents (tool : Tool) (name : Text) : List Event :=
  if trimHeader name = name then []
  else [.report (.violation (utf8 "%s has trailing whitespace in header %q")
    [tool.name, name])]

theorem headerEnd_eq (tool : Tool) (name : Text) :
    headerEnd tool name = ⟨endEvents tool name, .ok ()⟩ := by
  unfold headerEnd endEvents
  by_cases h : trimHeader name = name
  · rw [if_pos h, if_pos h]
    rfl
  · rw [if_neg h, if_neg h]
    rfl

/-- The names in some header lines, as they are compared with the required ones.
-/
def namesIn (lines : List Text) : List Text :=
  lines.map fun line => trimHeader (headerName line)

/-- What is reported of headers that are not in the order that the rules want. -/
def orderEntries (rules : Rules) (tool : Tool) (names : List Text) :
    List Report.Entry :=
  let rows := Order.divergence names (rules.headers tool.name)
  if rows = [] then [] else
    [.compare (tool.name ++ utf8 " has headers out of order:") rows]

/-- The events of the check after the search, if it found the given lines. -/
def headerEvents (rules : Rules) (tool : Tool) (lines : List Text) : List Event :=
  (lines.map headerName).flatMap (endEvents tool) ++
    (orderEntries rules tool (namesIn lines)).map .report

/-- All depends on the lines that are found, without their carriage returns. -/
theorem headerOrder_eq {rules : Rules} {script : Script} {files : Files}
    {tool : Tool} {content : Text} (hscript : script.LeavesSearch)
    (hfile : files.read tool.path = .ok content)
    (hfits : ∀ line ∈ headerLines content, line.fits = true) :
    (headerOrder rules (script.programs files)).run tool =
      ⟨.call (Search.linesCall tool.path (utf8 "^=head1")) ::
          headerEvents rules tool ((headerLines content).map Text.dropCr),
            .ok ()⟩ := by
  have hlines :=
    Search.allLines_eq hscript hfile read_header (by rwa [hits_header])
  have heach : ∀ names : List Text, Activity.each (headerEnd tool) names =
      ⟨names.flatMap (endEvents tool), .ok (names.map fun _ => ())⟩ :=
    fun names => Activity.each_eq fun name _ => headerEnd_eq tool name
  rw [hits_header] at hlines
  simp only [headerOrder, hlines, Activity.during, Activity.bind_eq, heach,
    compare_eq, List.map_map]
  simp only [headerEvents, orderEntries, apply_ite (List.map Event.report)]
  rfl

theorem filter_reports_headerEvents (rules : Rules) (tool : Tool)
    (lines : List Text) :
    (Event.reports (headerEvents rules tool lines)).filter
        Report.Entry.isCompare =
      orderEntries rules tool (namesIn lines) := by
  have hend : ∀ names : List Text,
      (Event.reports (names.flatMap (endEvents tool))).filter
        Report.Entry.isCompare = [] := by
    intro names
    induction names with
    | nil => rfl
    | cons name names ih =>
        rw [List.flatMap_cons, Event.reports_append, List.filter_append, ih,
          endEvents]
        split <;> rfl
  rw [headerEvents, Event.reports_append, List.filter_append, hend,
    Event.reports_map_report, List.nil_append, orderEntries]
  split <;> rfl

/-! ## The headers among the commands -/

/-- The top-level headers that the commands of a text are, without blanks around
their names. -/
def topHeaders (src : Text) : List Text :=
  ((Pod.commands src).filter fun c => c.name = utf8 "head1").map fun c =>
    trimHeader (c.arg.dropWhile isSpaceOrTab)

/-- The header that a line is as a command. -/
def commandHeader? (line : Text) : Option Text :=
  (Pod.Command.read? line.dropCr).bind fun (name, arg) =>
    if name = utf8 "head1" then some (trimHeader (arg.dropWhile isSpaceOrTab))
      else none

theorem topHeaders_eq (src : Text) :
    topHeaders src = src.lines.filterMap commandHeader? := by
  unfold commandHeader?
  rw [← Pod.filterMap_commands, topHeaders, ← List.filterMap_eq_map,
    ← List.filterMap_eq_filter, List.filterMap_filterMap]
  congr 1
  funext c
  by_cases h : c.name = utf8 "head1"
  · simp [h]
  · simp [h]

/-- The header that a line is taken for by the check. -/
def markedHeader? (line : Text) : Option Text :=
  if marksHeader line then some (trimHeader (headerName line.dropCr)) else none

/-- The headers that the check sees in a text, without blanks around their
names. -/
def markedHeaders (content : Text) : List Text :=
  namesIn ((headerLines content).map Text.dropCr)

theorem markedHeaders_eq (content : Text) :
    markedHeaders content = content.lines.filterMap markedHeader? := by
  rw [markedHeaders, namesIn, headerLines, List.map_map, ← List.filterMap_eq_map,
    ← List.filterMap_eq_filter, List.filterMap_filterMap]
  congr 1
  funext line
  unfold markedHeader?
  by_cases h : marksHeader line = true
  · simp [h]
  · simp [h]

/-- If the line begins with `=head1`, it ends there or goes on with a blank. -/
def EndsMark (line : Text) : Prop :=
  ∀ b ∈ (Text.after? (utf8 "=head1") line.dropCr).bind List.head?,
    isSpaceOrTab b = true

instance (line : Text) : Decidable (EndsMark line) :=
  inferInstanceAs (Decidable (∀ b ∈ _, _))

theorem endsMark_iff {line : Text} : EndsMark line ↔
    ∀ r, line.dropCr = utf8 "=head1" ++ r → ∀ b ∈ r.head?,
      isSpaceOrTab b = true := by
  constructor
  · intro h r hr b hb
    refine h b (Option.bind_eq_some_iff.mpr ⟨r, Text.after?_eq_some_iff.mpr hr,
      hb⟩)
  · intro h b hb
    obtain ⟨r, hr, hb⟩ := Option.bind_eq_some_iff.mp hb
    exact h r (Text.after?_eq_some_iff.mp hr) b hb

theorem headerName_append (r : Text) :
    headerName (utf8 "=head1" ++ r) = r.dropWhile isSpaceOrTab := by
  rw [headerName, Text.after?_eq_some_iff.mpr rfl]
  rfl

theorem markedHeader?_eq_some_iff {line name : Text} :
    markedHeader? line = some name ↔
      ∃ r, line.dropCr = utf8 "=head1" ++ r ∧
        trimHeader (r.dropWhile isSpaceOrTab) = name := by
  have hlast : (utf8 "=head1").getLast? ≠ some cr := by decide
  unfold markedHeader?
  constructor
  · intro h
    split at h
    · rename_i hmark
      obtain ⟨r, hr⟩ :=
        (Text.prefix_dropCr_iff hlast).mpr (marksHeader_iff.mp hmark)
      rw [← hr, headerName_append] at h
      exact ⟨r, hr.symm, Option.some.inj h⟩
    · cases h
  · rintro ⟨r, hr, rfl⟩
    have hmark : marksHeader line = true :=
      marksHeader_iff.mpr ((Text.prefix_dropCr_iff hlast).mp ⟨r, hr.symm⟩)
    rw [if_pos hmark, hr, headerName_append]

theorem commandHeader?_eq_some_iff {line name : Text} :
    commandHeader? line = some name ↔ markedHeader? line = some name ∧
      EndsMark line := by
  have hisName : Pod.Command.IsName (utf8 "head1") :=
    ⟨⟨ascii 'h', utf8 "ead1", rfl, by decide,
      List.all_iff_forall_prop.mp (by decide)⟩, by decide⟩
  have hmark : (0x3D : UInt8) :: utf8 "head1" = utf8 "=head1" := rfl
  unfold commandHeader?
  rw [Option.bind_eq_some_iff, markedHeader?_eq_some_iff, endsMark_iff]
  constructor
  · rintro ⟨⟨command, arg⟩, hread, hname⟩
    simp only at hname
    split at hname
    · rename_i hcommand
      subst hcommand
      obtain rfl := Option.some.inj hname
      obtain ⟨-, ⟨hline, rfl⟩ | ⟨b, hb, hline⟩⟩ :=
        Pod.Command.read?_eq_some_iff.mp hread
      · rw [hmark] at hline
        refine ⟨⟨[], by rw [hline, List.append_nil], rfl⟩, ?_⟩
        intro r hr
        rw [hline, List.self_eq_append_right] at hr
        simp [hr]
      · rw [← List.cons_append, hmark] at hline
        refine ⟨⟨b :: arg, hline, by rw [List.dropWhile_cons_of_pos hb]⟩, ?_⟩
        intro r hr
        rw [hline, List.append_right_inj] at hr
        simpa [← hr] using hb
    · cases hname
  · rintro ⟨⟨r, hr, rfl⟩, hends⟩
    have hblank := hends r hr
    cases r with
    | nil =>
        refine ⟨(utf8 "head1", []),
          Pod.Command.read?_eq_some_iff.mpr ⟨hisName, Or.inl ⟨?_, rfl⟩⟩, rfl⟩
        rw [hr, List.append_nil, hmark]
    | cons b arg =>
        have hb : isSpaceOrTab b = true := hblank b rfl
        refine ⟨(utf8 "head1", arg),
          Pod.Command.read?_eq_some_iff.mpr ⟨hisName, Or.inr ⟨b, hb, ?_⟩⟩, ?_⟩
        · rw [hr, ← List.cons_append, hmark]
        · simp only [if_true, List.dropWhile_cons_of_pos hb]

/-- If one of two ways to take something from a list takes less than the other,
they take the same if and only if they do so from each member. -/
theorem filterMap_eq_iff {α β : Type} {f g : α → Option β}
    (hle : ∀ a b, g a = some b → f a = some b) {as : List α} :
    as.filterMap f = as.filterMap g ↔ ∀ a ∈ as, f a = g a := by
  have hlength : ∀ as : List α,
      (as.filterMap g).length ≤ (as.filterMap f).length := by
    intro as
    induction as with
    | nil => exact Nat.le_refl 0
    | cons a as ih =>
        cases hg : g a with
        | some b => simpa [hg, hle a b hg] using ih
        | none =>
            cases hf : f a with
            | none => simpa [hg, hf] using ih
            | some b => simpa [hg, hf] using Nat.le_succ_of_le ih
  constructor
  · intro h
    induction as with
    | nil => exact List.forall_mem_nil _
    | cons a as ih =>
        rw [List.forall_mem_cons]
        cases hg : g a with
        | some b =>
            rw [List.filterMap_cons_some (hle a b hg),
              List.filterMap_cons_some hg, List.cons.injEq] at h
            exact ⟨hle a b hg, ih h.2⟩
        | none =>
            cases hf : f a with
            | none =>
                rw [List.filterMap_cons_none hf, List.filterMap_cons_none hg] at h
                exact ⟨rfl, ih h⟩
            | some b =>
                -- One more is taken here, and never made up for later.
                have hmore := congrArg List.length h
                rw [List.filterMap_cons_some hf, List.filterMap_cons_none hg,
                  List.length_cons] at hmore
                have hrest := hlength as
                omega
  · intro h
    exact List.filterMap_congr h

/-- **When the two readers agree.** The check takes the same headers from a text
as the reader of commands exactly if every line that begins with `=head1` ends
there or goes on with a blank. -/
theorem markedHeaders_eq_iff (content : Text) :
    markedHeaders content = topHeaders content ↔
      ∀ line ∈ content.lines, EndsMark line := by
  have hle : ∀ line name, commandHeader? line = some name →
      markedHeader? line = some name :=
    fun line name h => (commandHeader?_eq_some_iff.mp h).1
  rw [markedHeaders_eq, topHeaders_eq, filterMap_eq_iff hle]
  apply forall₂_congr
  intro line _
  constructor
  · intro h
    rw [endsMark_iff]
    intro r hr
    have hmarked := markedHeader?_eq_some_iff.mpr ⟨r, hr, rfl⟩
    exact endsMark_iff.mp (commandHeader?_eq_some_iff.mp (h ▸ hmarked)).2 r hr
  · intro h
    cases hmarked : markedHeader? line with
    | some name => exact (commandHeader?_eq_some_iff.mpr ⟨hmarked, h⟩).symm
    | none =>
        cases hcommand : commandHeader? line with
        | none => rfl
        | some name =>
            exact absurd (hle line name hcommand) (by rw [hmarked]; simp)

/-- **The table of headers that are out of order.** Let no line of the text be
too long to be read.

* The check comes to its end. Its only comparison, if any, is that of the
  headers it sees with the required ones.
* The headers it sees are the `head1` commands of the text, in order, exactly if
  every line that begins with `=head1` ends there or goes on with a blank. In
  this case the comparison is that of the commands. -/
theorem headerOrder_table (rules : Rules) (script : Script) (files : Files)
    (tool : Tool) (content : Text) (hscript : script.LeavesSearch)
    (hfile : files.read tool.path = .ok content)
    (hfits : ∀ line ∈ content.lines, line.length < 65536) :
    let activity := (headerOrder rules (script.programs files)).run tool
    let tables := (Event.reports activity.events).filter Report.Entry.isCompare
    activity.result = .ok () ∧
    tables = orderEntries rules tool (markedHeaders content) ∧
    (markedHeaders content = topHeaders content ↔ ∀ line ∈ content.lines,
      EndsMark line) ∧
    ((∀ line ∈ content.lines, EndsMark line) →
      tables = orderEntries rules tool (topHeaders content)) := by
  have hheaders : ∀ line ∈ headerLines content, line.fits = true := by
    intro line hline
    exact decide_eq_true (hfits line (List.mem_of_mem_filter hline))
  have hrun := @headerOrder_eq rules _ _ _ _ hscript hfile hheaders
  have htables :
      (Event.reports
        ((headerOrder rules (script.programs files)).run tool).events).filter
      Report.Entry.isCompare = orderEntries rules tool
        (markedHeaders content) := by
    rw [hrun]
    exact filter_reports_headerEvents rules tool _
  intro activity tables
  refine ⟨congrArg Activity.result hrun, htables, markedHeaders_eq_iff content,
    fun hends => ?_⟩
  rw [← (markedHeaders_eq_iff content).mpr hends]
  exact htables

/-! A text with a carriage return, a tab and blanks at the end of a name, and
another without a blank. -/

def headedRules : Rules where
  file := { RuleFile.empty with headers := [utf8 "A", utf8 "B"] }
  valid := RuleFile.fault?_eq_none_iff.mp (by decide)

def headedTool : Tool where
  name := utf8 "pt-x"
  path := utf8 "pt-x"
  absolutePath := utf8 "/w/pt-x"
  text := []

def headedFiles (content : Text) : Files :=
  .ofPaths (utf8 "/w") [(headedTool.path, content)] []

theorem headerOrder_table_swapped :
    let content := utf8 "=head1 B\r\n=head2 A\n=head1\tA \n"
    let activity :=
      (headerOrder headedRules (Script.empty.programs (headedFiles content))).run
        headedTool
    activity.result = .ok () ∧
    (Event.reports activity.events).filter Report.Entry.isCompare =
      [.compare (utf8 "pt-x has headers out of order:")
        [⟨utf8 "B", utf8 "A"⟩, ⟨utf8 "A", utf8 "B"⟩]] := by
  intro content activity
  obtain ⟨hresult, -, -, htables⟩ :=
    headerOrder_table headedRules Script.empty (headedFiles content) headedTool
    content Script.leavesSearch_empty (by decide +kernel) (by decide +kernel)
  refine ⟨hresult, (htables (by decide +kernel)).trans ?_⟩
  decide +kernel

/-- Without the condition the comparison is not that of the commands: `=head1A`
is no command, but a header. -/
theorem headerOrder_not_commands :
    ¬ ∀ (rules : Rules) (script : Script) (files : Files) (tool : Tool)
      (content : Text),
      script.LeavesSearch → files.read tool.path = .ok content →
      (∀ line ∈ content.lines, line.length < 65536) →
      (Event.reports
        ((headerOrder rules (script.programs files)).run tool).events).filter
          Report.Entry.isCompare =
        orderEntries rules tool (topHeaders content) := by
  intro hcommands
  let content := utf8 "=head1A\n=head1 B\n"
  have hfile : (headedFiles content).read headedTool.path = .ok content := by
    decide +kernel
  have hfits : ∀ line ∈ headerLines content, line.fits = true := by decide +kernel
  have htables :=
    hcommands headedRules Script.empty (headedFiles content) headedTool content
    Script.leavesSearch_empty hfile (by decide +kernel)
  rw [headerOrder_eq Script.leavesSearch_empty hfile hfits] at htables
  revert htables
  decide +kernel

end Check

end ToolLint
