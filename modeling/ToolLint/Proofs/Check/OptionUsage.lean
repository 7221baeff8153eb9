import ToolLint.Proofs.Check.Failure
import ToolLint.Proofs.Format
import ToolLint.Proofs.Reads
import ToolLint.Proofs.Region
import Mathlib.Data.List.Infix

/-!
# The check of option usage is exact

The check has two parts. It lists the documented options that are read nowhere:
`Check.IsRead` says of a whole text that it reads an option, and although the
search goes line by line and adds up two counts, the list has exactly the
options for which this fails (`unusedOptions_exact`). Then it looks at the main
package of a tool that connects to a database: whether there is one, and whether
the options for the connection are parsed in it (`dsnParsing_exact`).

The second part depends on the text alone. So it is described for all programs,
as long as their answers let the first part come to its end.
-/

namespace ToolLint

namespace Check

/-! ## Reads in a text -/

/-- The methods that read an option. -/
def readMethods : List Text := [utf8 "get", utf8 "got"]

/-- Somewhere in the text one of the methods is called with the quoted name of
the option. -/
def IsRead (option text : Text) : Prop :=
  ∃ method ∈ readMethods, ReadsBy method option text

instance (option text : Text) : Decidable (IsRead option text) :=
  inferInstanceAs (Decidable (∃ method ∈ readMethods, _))

theorem isOptionByte_of_mem_readMethods :
    ∀ method ∈ readMethods, ∀ b ∈ method, Pod.isOptionByte b = true := by
  rw [readMethods, List.forall_mem_cons, List.forall_mem_singleton]
  exact ⟨List.all_eq_true.mp rfl, List.all_eq_true.mp rfl⟩

theorem length_of_mem_readMethods :
    ∀ method ∈ readMethods, method.length = 3 := by
  rw [readMethods, List.forall_mem_cons, List.forall_mem_singleton]
  exact ⟨rfl, rfl⟩

theorem not_isOptionByte_of_mem_quotes :
    ∀ q ∈ quotes, Pod.isOptionByte q = false :=
  List.all_iff_forall_prop.mp (by decide)

/-- A read lies in one line. -/
theorem readsBy_iff_exists_line {method option : Text}
    (hmethod : ∀ b ∈ method, Pod.isOptionByte b = true)
    (hoption : ∀ b ∈ option, Pod.isOptionByte b = true) (text : Text) :
    ReadsBy method option text ↔ ∃ line ∈ text.lines,
      ReadsBy method option line := by
  have hlf : ∀ {w : Text}, (∀ b ∈ w, Pod.isOptionByte b = true) → lf ∉ w :=
    fun hw hmem => absurd (hw lf hmem) (by decide)
  have hform : ∀ q ∈ quotes, ∀ q' ∈ quotes, lf ∉ readForm method q option q' := by
    have hquotes : lf ∉ quotes := by decide
    intro q hq q' hq' hmem
    simp only [readForm, List.mem_append, List.mem_cons] at hmem
    rcases hmem with (hmem | hmem) | rfl | hmem | rfl | hmem
    · exact hlf hmethod hmem
    · exact absurd hmem (by decide)
    · exact hquotes hq
    · exact hlf hoption hmem
    · exact hquotes hq'
    · exact absurd hmem (by decide)
  constructor
  · rintro ⟨q, hq, q', hq', hread⟩
    obtain ⟨line, hline, h⟩ :=
      (Text.infix_iff_exists_mem_split (hform q hq q' hq') text).mp hread
    exact ⟨line, hline, q, hq, q', hq', h⟩
  · rintro ⟨line, hline, q, hq, q', hq', h⟩
    exact ⟨q, hq, q', hq', h.trans (Text.infix_of_mem_split hline)⟩

/-- At one place of a text only one option is read: the quotes are no bytes of a
name, so the name between them is neither shorter nor longer. -/
theorem readForm_append_inj {method method' o p v v' : Text} {q q' r r' : UInt8}
    (hmethod : method ∈ readMethods) (hmethod' : method' ∈ readMethods)
    (hq' : q' ∈ quotes) (hr' : r' ∈ quotes)
    (ho : ∀ b ∈ o, Pod.isOptionByte b = true)
    (hp : ∀ b ∈ p, Pod.isOptionByte b = true)
    (h : readForm method q o q' ++ v = readForm method' r p r' ++ v') :
    o = p := by
  have hlength : method.length = method'.length := by
    rw [length_of_mem_readMethods method hmethod,
      length_of_mem_readMethods method' hmethod']
  have hname : ∀ {o w : Text} {q : UInt8}, (∀ b ∈ o, Pod.isOptionByte b = true) →
      q ∈ quotes →
      (o ++ q :: w).takeWhile Pod.isOptionByte = o := by
    intro o w q ho hq
    apply Text.takeWhile_append_of_head ho
    rintro _ ⟨rfl⟩
    exact not_isOptionByte_of_mem_quotes q hq
  simp only [readForm, List.append_assoc, List.cons_append] at h
  obtain ⟨-, hrest⟩ := List.append_inj h hlength
  have htail := (List.cons.inj (List.append_cancel_left hrest)).2
  rw [← hname ho hq', htail, hname hp hr']

/-! ## Reads that are counted -/

theorem length_of_readsBy {method option line : Text}
    (h : ReadsBy method option line) : 2 ≤ line.length := by
  obtain ⟨q, -, q', -, hread⟩ := h
  have hle := hread.length_le
  simp only [readForm, List.length_append, List.length_cons] at hle
  omega

/-- The expressions find the lines that read the option by one of the methods. -/
theorem finds_readPatterns {option : Text}
    (h : ∀ b ∈ option, Pod.isOptionByte b = true) :
    List.Forall₂ Grep.Finds (readPatterns option)
      (readMethods.map fun method => ReadsBy method option) := by
  rw [readPatterns_eq h, ← readMethods, List.forall₂_map_left_iff,
    List.forall₂_map_right_iff, List.forall₂_same]
  intro method hmethod
  have hbytes := isOptionByte_of_mem_readMethods method hmethod
  exact ⟨_, read_readExpression hbytes h, fun _ => found_readPattern_iff hbytes h⟩

/-! ## The list of options -/

section Unread

variable {rules : Rules} {script : Script} {files : Files} {tool : Tool}

theorem reads_eq {option : Text} (hscript : script.LeavesSearch)
    (hfile : files.read tool.path = .ok tool.text)
    (hfits : tool.text.length < Decimal.halfModulus)
    (h : ∀ b ∈ option, Pod.isOptionByte b = true) :
    reads (script.programs files) tool option =
      ⟨(readPatterns option).map fun pattern =>
        .call (Search.countCall tool.path pattern),
        .ok (decide (IsRead option tool.text))⟩ := by
  have hlong : ∀ P ∈ readMethods.map (fun method => ReadsBy method option),
      ∀ line, P line → (readPatterns option).length ≤ line.length := by
    rw [List.forall_mem_map]
    exact fun _ _ _ hline => length_of_readsBy hline
  obtain ⟨n, hn, hpos⟩ :=
    occurrences_of_finds hscript hfile hfits (finds_readPatterns h) hlong
  have hread : n ≠ 0 ↔ IsRead option tool.text := by
    rw [← Nat.pos_iff_ne_zero, hpos]
    simp only [List.mem_map, exists_exists_and_eq_and]
    refine exists_congr fun method => and_congr_right fun hmethod => ?_
    exact (readsBy_iff_exists_line
      (isOptionByte_of_mem_readMethods method hmethod) h
      tool.text).symm
  unfold reads
  rw [hn]
  simp only [Activity.during, Activity.bind_eq, Activity.andThen,
    Activity.pure_eq, Activity.done, List.append_nil, ne_eq, Int.natCast_eq_zero,
    hread]

def toBeRead (rules : Rules) (tool : Tool) : List Text :=
  (Pod.documentedOptions tool.text).filter fun o =>
    !rules.file.ignoredOptions.contains o

/-- The options that have to be read and are not, in the order of the
documentation. -/
def unread (rules : Rules) (tool : Tool) : List Text :=
  (toBeRead rules tool).filter fun o => !decide (IsRead o tool.text)

theorem mem_unread_iff {rules : Rules} {tool : Tool} {o : Text} :
    o ∈ unread rules tool ↔
      o ∈ Pod.documentedOptions tool.text ∧ o ∉ rules.file.ignoredOptions ∧
      ¬ IsRead o tool.text := by
  simp only [unread, toBeRead, List.mem_filter, Bool.not_eq_true',
    List.contains_eq_mem, decide_eq_false_iff_not, and_assoc]

def readCalls (rules : Rules) (tool : Tool) : List (List Text) :=
  (toBeRead rules tool).flatMap fun o => (readPatterns o).map
    (Search.countCall tool.path)

theorem unreadOptions_eq (rules : Rules) (hscript : script.LeavesSearch)
    (hfile : files.read tool.path = .ok tool.text)
    (hfits : tool.text.length < Decimal.halfModulus) :
    unreadOptions rules (script.programs files) tool =
      ⟨(readCalls rules tool).map .call, .ok (unread rules tool)⟩ := by
  have heach := Activity.each_eq (f := reads (script.programs files) tool)
    fun o (ho : o ∈ toBeRead rules tool) =>
      reads_eq hscript hfile hfits
        (Pod.isOptionByte_of_mem_documentedOptions (List.mem_of_mem_filter ho))
  have hoptions :
      ((Pod.documentedOptions tool.text).filter fun o => !rules.ignoresOption o) =
      toBeRead rules tool := rfl
  unfold unreadOptions
  simp only [hoptions, Activity.bind_eq]
  rw [heach]
  simp only [Activity.andThen, Activity.pure_eq, Activity.done, List.append_nil,
    filter_zip_map, unread, readCalls, List.map_flatMap, List.map_map,
    Function.comp_def]

end Unread

/-! ## The main package -/

/-- The sentence about a main package that does not parse the options of the
connection. -/
def unparsedDsn (tool : Tool) : Report.Entry :=
  .violation (utf8 "%s does not call parse_options() in package %s")
    [tool.name, tool.package]

def unparsedDsnText (tool : Tool) : Text :=
  tool.name ++ utf8 " does not call parse_options() in package " ++
    tool.package ++ [lf]

theorem render_unparsedDsn (tool : Tool) :
    (unparsedDsn tool).render = unparsedDsnText tool := by
  have hmiddle :
      Format.percent ∉ utf8 " does not call parse_options() in package " := by
    decide
  have hend : Format.Fills [lf] [] [lf] := Format.Fills.nil.literal (by decide)
  have hfills := ((hend.verbatim tool.package).word hmiddle).verbatim tool.name
  have happly := hfills.apply_eq
  simp only [unparsedDsnText, List.append_assoc]
  exact happly

theorem isAscii_package {tool : Tool} (hname : Tool.isName tool.name = true) :
    ∀ b ∈ tool.package, IsAscii b :=
  Tool.isAscii_of_mem_packageName hname

theorem dsnParsing_of_isRegion {tool : Tool} {r : Text}
    (hname : Tool.isName tool.name = true)
    (h : Package.IsRegion tool.package tool.text r) : dsnParsing tool =
      ⟨if utf8 "parse_options(" <:+: r then [] else [.report (unparsedDsn tool)],
        .ok ()⟩ := by
  have hcalls : Text.hasInfix (utf8 "parse_options(") r = true ↔
      utf8 "parse_options(" <:+: r := by
    rw [Module.hasInfix_iff]
    simp only [List.IsInfix, eq_comm]
  unfold dsnParsing
  rw [Package.rejection?_eq_none (isAscii_package hname),
    (Package.region?_eq_some_iff (isAscii_package hname)).mpr h]
  by_cases hcalled : utf8 "parse_options(" <:+: r
  · rw [if_pos hcalled]
    simp only [hcalls.mpr hcalled, if_true]
    rfl
  · rw [if_neg hcalled]
    simp only [mt hcalls.mp hcalled]
    rfl

theorem dsnParsing_of_not_isRest {tool : Tool}
    (hname : Tool.isName tool.name = true)
    (h : ¬ ∃ r, Package.IsRest tool.package tool.text r) :
    dsnParsing tool = .error (.noMainPackage tool.package) := by
  unfold dsnParsing
  rw [Package.rejection?_eq_none (isAscii_package hname),
    (Package.region?_eq_none_iff (isAscii_package hname)).mpr h]
  rfl

/-- There is one sentence to report. -/
theorem events_dsnParsing (tool : Tool) :
    (dsnParsing tool).events = [] ∨
    (dsnParsing tool).events = [.report (unparsedDsn tool)] := by
  unfold dsnParsing
  cases Package.rejection? tool.package with
  | some v => exact Or.inl rfl
  | none =>
      cases Package.region? tool.text tool.package with
      | none => exact Or.inl rfl
      | some r =>
          simp only
          split
          · exact Or.inl rfl
          · exact Or.inr rfl

/-! ## The check -/

def dsnPart (rules : Rules) (tool : Tool) : Activity Unit :=
  if rules.requiresDsn tool.name then dsnParsing tool else .done ()

theorem events_dsnPart (rules : Rules) (tool : Tool) :
    (dsnPart rules tool).events = [] ∨ (dsnPart rules tool).events =
      [.report (unparsedDsn tool)] := by
  unfold dsnPart
  split
  · exact events_dsnParsing tool
  · exact Or.inl rfl

/-- What the first part of the check reports. -/
def optionEntries (tool : Tool) (options : List Text) : List Report.Entry :=
  if options = [] then []
  else [.list (tool.name ++ utf8 " has unused options:")
    (options.map fun o => utf8 "--" ++ o)]

def optionText (tool : Tool) (options : List Text) : Text :=
  if options = [] then []
  else tool.name ++ utf8 " has unused options:" ++ [lf] ++
    options.flatMap fun o => tab :: (utf8 "--" ++ o ++ [lf])

theorem render_optionEntries (tool : Tool) (options : List Text) :
    Report.render (optionEntries tool options) = optionText tool options := by
  unfold optionEntries optionText
  split
  · rfl
  · simp [Report.render, Report.Entry.render, List.flatMap_map]

theorem optionUsage_of_search {rules : Rules} {programs : Programs}
    {tool : Tool} {events : List Event} {options : List Text}
    (h : unreadOptions rules programs tool = ⟨events, .ok options⟩) :
    (optionUsage rules programs).run tool =
      ⟨events ++
        ((optionEntries tool options).map .report ++ (dsnPart rules tool).events),
        (dsnPart rules tool).result⟩ := by
  have hlist : list (tool.name ++ utf8 " has unused options:")
      (options.map fun o => utf8 "--" ++ o) =
      ⟨(optionEntries tool options).map .report, .ok ()⟩ := by
    rw [list_eq, optionEntries]
    by_cases hnil : options = []
    · simp [hnil]
    · simp [hnil]
  show Activity.andThen _ _ = _
  rw [h]
  simp only [Activity.andThen, hlist]
  rfl

/-- The list comes from the first part of the check, and all else from the
second. -/
theorem reports_optionUsage {rules : Rules} {programs : Programs} {tool : Tool}
    {events : List Event} {options : List Text}
    (h : unreadOptions rules programs tool = ⟨events, .ok options⟩)
    (hquiet : Event.reports events = []) :
    Event.reports ((optionUsage rules programs).run tool).events =
      optionEntries tool options ++ Event.reports
        (dsnPart rules tool).events := by
  rw [optionUsage_of_search h, Event.reports_append, hquiet, List.nil_append,
    Event.reports_append, Event.reports_map_report]

theorem reportText_optionUsage {rules : Rules} {programs : Programs} {tool : Tool}
    {events : List Event} {options : List Text}
    (h : unreadOptions rules programs tool = ⟨events, .ok options⟩)
    (hquiet : Event.reports events = []) :
    Event.reportText ((optionUsage rules programs).run tool).events =
      optionText tool options ++ Event.reportText
        (dsnPart rules tool).events := by
  rw [Event.reportText, reports_optionUsage h hquiet, Event.reportText,
    ← render_optionEntries]
  exact List.flatMap_append

theorem reportText_unparsedDsn (tool : Tool) :
    Event.reportText [.report (unparsedDsn tool)] = unparsedDsnText tool := by
  rw [← render_unparsedDsn]
  exact List.append_nil _

/-- The sentence about the main package can only come from the second part. -/
theorem mem_reports_optionUsage_iff {rules : Rules} {programs : Programs}
    {tool : Tool} {events : List Event} {options : List Text}
    (h : unreadOptions rules programs tool = ⟨events, .ok options⟩)
    (hquiet : Event.reports events = []) :
    unparsedDsn tool ∈ Event.reports
      ((optionUsage rules programs).run tool).events ↔
      unparsedDsn tool ∈ Event.reports (dsnPart rules tool).events := by
  have hlist : unparsedDsn tool ∉ optionEntries tool options := by
    unfold optionEntries
    split
    · exact List.not_mem_nil
    · intro hmem
      cases List.mem_singleton.mp hmem
  rw [reports_optionUsage h hquiet, List.mem_append, or_iff_right hlist]

/-- **The check lists exactly the options that are not read**, in the order of
the documentation and each of them once. The list is written unless it is empty,
at most the sentence about the main package follows it, and the search program
is called twice for each option that has to be read. A place where one option is
read is not one where another is, for instance one with a shorter or a longer
name. The text of the tool is also the content of its file, and its length is a
64-bit integer. -/
theorem unusedOptions_exact (rules : Rules) {script : Script} {files : Files}
    {tool : Tool} (hscript : script.LeavesSearch)
    (hfile : files.read tool.path = .ok tool.text)
    (hfits : tool.text.length < Decimal.halfModulus) :
    let activity := (optionUsage rules (script.programs files)).run tool
    (unread rules tool).Sublist (Pod.documentedOptions tool.text) ∧
    (unread rules tool).Nodup ∧
    (∀ o, o ∈ unread rules tool ↔ o ∈ Pod.documentedOptions tool.text ∧
      o ∉ rules.file.ignoredOptions ∧ ¬ IsRead o tool.text) ∧
    (∃ rest, Event.reports activity.events =
        (if unread rules tool = [] then []
        else [.list (tool.name ++ utf8 " has unused options:")
          ((unread rules tool).map fun o => utf8 "--" ++ o)]) ++ rest ∧
      ((rest = [] ∧
          Event.reportText activity.events = optionText tool
            (unread rules tool)) ∨
        (rest = [unparsedDsn tool] ∧ Event.reportText activity.events =
          optionText tool (unread rules tool) ++ unparsedDsnText tool))) ∧
    Event.calls activity.events = readCalls rules tool ∧
    ∀ o ∈ Pod.documentedOptions tool.text,
      ∀ p : Text, (∀ b ∈ p, Pod.isOptionByte b = true) → p ≠ o →
      ∀ method ∈ readMethods, ∀ method' ∈ readMethods,
      ∀ q, ∀ q' ∈ quotes, ∀ r, ∀ r' ∈ quotes, ∀ u v v',
        tool.text = u ++ readForm method q p q' ++ v →
        tool.text ≠ u ++ readForm method' r o r' ++ v' := by
  intro activity
  have hsearch := unreadOptions_eq rules hscript hfile hfits
  have hquiet : Event.reports ((readCalls rules tool).map .call) = [] :=
    Event.reports_map_call _
  have hreports : Event.reports activity.events = _ :=
    reports_optionUsage hsearch hquiet
  have htext : Event.reportText activity.events = _ :=
    reportText_optionUsage hsearch hquiet
  have hsublist : (unread rules tool).Sublist (Pod.documentedOptions tool.text) :=
    List.filter_sublist.trans List.filter_sublist
  refine ⟨hsublist, hsublist.nodup (Pod.nodup_documentedOptions _),
    fun o => mem_unread_iff, ?_, ?_, ?_⟩
  · refine ⟨Event.reports (dsnPart rules tool).events, hreports, ?_⟩
    rw [htext]
    rcases events_dsnPart rules tool with h | h
    · rw [h]
      exact Or.inl ⟨rfl, List.append_nil _⟩
    · rw [h, reportText_unparsedDsn]
      exact Or.inr ⟨rfl, rfl⟩
  · have hdsn : Event.calls (dsnPart rules tool).events = [] := by
      rcases events_dsnPart rules tool with h | h
      · rw [h]
        rfl
      · rw [h]
        rfl
    rw [show activity = _ from optionUsage_of_search hsearch, Event.calls_append,
      Event.calls_map_call, Event.calls_append, Event.calls_map_report, hdsn,
      List.append_nil, List.append_nil]
  · intro o ho p hp hne method hmethod method' hmethod' q q' hq' r r' hr' u v v'
      htext htext'
    rw [htext, List.append_assoc, List.append_assoc] at htext'
    exact hne (readForm_append_inj hmethod hmethod' hq' hr' hp
      (Pod.isOptionByte_of_mem_documentedOptions ho)
        (List.append_cancel_left htext'))

/-! The names of three options extend one another, and a fourth need not be
read. -/

def similarNames : Tool where
  name := utf8 "pt-x"
  path := utf8 "pt-x"
  absolutePath := utf8 "/w/pt-x"
  text :=
    utf8 "=item --a\n=item --ab\n=item --a-b\n=item --c\nget('ab'); got(\"a-b'), get('a \n')"

def lenientRules : Rules where
  file :=
    { RuleFile.empty with headers := [utf8 "NAME"], ignoredOptions := [utf8 "c"] }
  valid := RuleFile.fault?_eq_none_iff.mp (by decide)

theorem unusedOptions_exact_similar :
    let files :=
      Files.ofPaths (utf8 "/w") [(similarNames.path, similarNames.text)] []
    let activity :=
      (optionUsage lenientRules (Script.empty.programs files)).run similarNames
    files.read similarNames.path = .ok similarNames.text ∧
    (∃ rest, Event.reports activity.events =
        [.list (utf8 "pt-x has unused options:") [utf8 "--a"]] ++ rest ∧
      ((rest = [] ∧
          Event.reportText activity.events =
            utf8 "pt-x has unused options:\n\t--a\n") ∨
        (rest = [unparsedDsn similarNames] ∧ Event.reportText activity.events =
          utf8 "pt-x has unused options:\n\t--a\n" ++
            unparsedDsnText similarNames))) ∧
    Event.calls activity.events =
      [utf8 "get\\(['\"]a['\"]\\)", utf8 "got\\(['\"]a['\"]\\)",
        utf8 "get\\(['\"]ab['\"]\\)",
        utf8 "got\\(['\"]ab['\"]\\)", utf8 "get\\(['\"]a-b['\"]\\)",
        utf8 "got\\(['\"]a-b['\"]\\)"].map
          (Search.countCall similarNames.path) := by
  intro files activity
  have hfile : files.read similarNames.path = .ok similarNames.text := by
    decide +kernel
  have hfits : similarNames.text.length < Decimal.halfModulus := by decide +kernel
  have hunread : unread lenientRules similarNames = [utf8 "a"] := by
    decide +kernel
  obtain ⟨-, -, -, hreports, hcalls, -⟩ :=
    unusedOptions_exact lenientRules Script.leavesSearch_empty hfile hfits
  rw [hunread] at hreports
  exact ⟨hfile, hreports, hcalls.trans (by decide +kernel)⟩

/-- **The check looks at the main package.** The region of the package is the
rest of the text from the first line that opens it, and there is one if any line
does. Whenever the searches of the check come to their end, the options that
they leave over are listed, and then:

* a tool that connects to a database fails for lack of the main package if and
  only if no line opens it, and else the call of `parse_options` is missed, in
  one sentence after the list, if and only if it is nowhere in the region;
* of any other tool neither is said, whatever its text is. -/
theorem dsnParsing_exact {tool : Tool} {path : Text}
    (hname : Tool.nameOf path = .ok tool.name) :
    ((∃ r, Package.region? tool.text tool.package = some r) ↔
      ∃ r, Package.IsRest tool.package tool.text r) ∧
    (∀ r, Package.region? tool.text tool.package = some r ↔
      Package.IsRegion tool.package tool.text r) ∧
    ∀ (rules : Rules) (programs : Programs) (options : List Text),
      programs.Quiet →
      (unreadOptions rules programs tool).result = .ok options →
      let activity := (optionUsage rules programs).run tool
      let notFound := ∃ e, activity.result = .error (.error e) ∧
        e.message = utf8 "cannot find package " ++ tool.package
      let missed := unparsedDsn tool ∈ Event.reports activity.events
      let written := Event.reportText activity.events
      (tool.name ∉ rules.file.noDsnTools →
        (notFound ↔ ¬ ∃ r, Package.IsRest tool.package tool.text r) ∧
        (notFound → written = optionText tool options) ∧
        ∀ r, Package.IsRegion tool.package tool.text r →
          activity.result = .ok () ∧ (missed ↔ ¬ utf8 "parse_options(" <:+: r) ∧
          written = optionText tool options ++
            if utf8 "parse_options(" <:+: r then [] else unparsedDsnText tool) ∧
      (tool.name ∈ rules.file.noDsnTools →
        activity.result = .ok () ∧ ¬ missed ∧
        written = optionText tool options) := by
  have hvalid : Tool.isName tool.name = true := Tool.isName_of_nameOf hname
  have hpackage := isAscii_package hvalid
  refine ⟨?_, fun r => Package.region?_eq_some_iff hpackage, ?_⟩
  · rw [← not_iff_not, ← Package.region?_eq_none_iff hpackage,
      Option.eq_none_iff_forall_ne_some, not_exists]
  intro rules programs options hprograms hoptions activity notFound missed written
  have hsearched : unreadOptions rules programs tool =
      ⟨(unreadOptions rules programs tool).events, .ok options⟩ := by
        rw [← hoptions]
  have hquiet := quiet_unreadOptions hprograms rules tool
  have hresult : activity.result = (dsnPart rules tool).result := by
    rw [show activity = _ from optionUsage_of_search hsearched]
  have hmissed :
      missed ↔ unparsedDsn tool ∈ Event.reports (dsnPart rules tool).events :=
    mem_reports_optionUsage_iff hsearched hquiet
  have hwritten : written =
      optionText tool options ++ Event.reportText (dsnPart rules tool).events :=
    reportText_optionUsage hsearched hquiet
  constructor
  · intro hdsn
    have hpart : dsnPart rules tool = dsnParsing tool :=
      if_pos (by simp [Rules.requiresDsn, hdsn])
    rw [hpart] at hresult hmissed hwritten
    have hregion : ∀ r, Package.IsRegion tool.package tool.text r →
        activity.result = .ok () ∧ (missed ↔ ¬ utf8 "parse_options(" <:+: r) ∧
        written = optionText tool options ++
          if utf8 "parse_options(" <:+: r then [] else unparsedDsnText tool := by
      intro r hr
      rw [dsnParsing_of_isRegion hvalid hr] at hresult hmissed hwritten
      refine ⟨hresult, hmissed.trans ?_, hwritten.trans ?_⟩
      · by_cases hcalled : utf8 "parse_options(" <:+: r
        · simp [hcalled, Event.reports]
        · simp [hcalled, Event.reports, Event.report?]
      · by_cases hcalled : utf8 "parse_options(" <:+: r
        · rw [if_pos hcalled, if_pos hcalled]
          rfl
        · rw [if_neg hcalled, if_neg hcalled, reportText_unparsedDsn]
    have hnotFound : notFound ↔ ¬ ∃ r,
        Package.IsRest tool.package tool.text r := by
      constructor
      · rintro ⟨e, he, -⟩
        rcases Package.region?_cases hpackage tool.text with ⟨-, hnone⟩
          | ⟨r, -, hr⟩
        · exact not_exists.mpr hnone
        · rw [(hregion r hr).1] at he
          cases he
      · intro hnone
        rw [dsnParsing_of_not_isRest hvalid hnone] at hresult
        exact ⟨_, hresult, rfl⟩
    refine ⟨hnotFound, fun h => ?_, hregion⟩
    rw [dsnParsing_of_not_isRest hvalid (hnotFound.mp h)] at hwritten
    exact hwritten.trans (List.append_nil _)
  · intro hdsn
    have hpart : dsnPart rules tool = .done () :=
      if_neg (by simp [Rules.requiresDsn, hdsn])
    rw [hpart] at hresult hmissed hwritten
    exact ⟨hresult, fun h => List.not_mem_nil (hmissed.mp h),
      hwritten.trans (List.append_nil _)⟩

/-! The main package is opened twice, with blanks before the first semicolon,
and the only call stands before it. -/

def earlyCall : Tool where
  name := utf8 "pt-x"
  path := utf8 "bin/pt-x"
  absolutePath := utf8 "/w/bin/pt-x"
  text :=
    utf8 "package pt_xy;\nparse_options();\n package pt_x;\npackage \tpt_x ;1\npackage pt_x;\n"

theorem dsnParsing_exact_early :
    let programs := Script.empty.programs (.ofPaths (utf8 "/w") [] [])
    let activity := (optionUsage lenientRules programs).run earlyCall
    Tool.nameOf earlyCall.path = .ok earlyCall.name ∧
    Package.IsRegion (utf8 "pt_x") earlyCall.text
      (utf8 "package \tpt_x ;1\npackage pt_x;\n") ∧
    activity.result = .ok () ∧
    unparsedDsn earlyCall ∈ Event.reports activity.events ∧
    Event.reportText activity.events =
      utf8 "pt-x does not call parse_options() in package pt_x\n" := by
  intro programs activity
  have hname : Tool.nameOf earlyCall.path = .ok earlyCall.name := by
    decide +kernel
  have hregion : Package.region? earlyCall.text earlyCall.package =
      some (utf8 "package \tpt_x ;1\npackage pt_x;\n") := by decide +kernel
  have hoptions : Pod.documentedOptions earlyCall.text = [] := by decide +kernel
  have hsearch : (unreadOptions lenientRules programs earlyCall).result =
      .ok [] := by
    unfold unreadOptions
    rw [hoptions]
    rfl
  obtain ⟨-, hregions, hrun⟩ := dsnParsing_exact hname
  have hfirst := (hregions _).mp hregion
  obtain ⟨hdsn, -⟩ :=
    hrun lenientRules programs [] (Script.quiet_programs _ _) hsearch
  obtain ⟨hresult, hmissed, hwritten⟩ := (hdsn (by decide)).2.2 _ hfirst
  refine ⟨hname, hfirst, hresult, hmissed.mpr (by decide), hwritten.trans ?_⟩
  rw [if_neg (by decide)]
  decide +kernel

end Check

end ToolLint
