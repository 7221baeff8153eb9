import ToolLint.Proofs.Check.HeaderOrder
import ToolLint.Proofs.Package
import ToolLint.Proofs.Reads

/-!
# The checks of the documentation and line ends

A text may end its lines with a line feed, or with a carriage return and a line
feed. Each of the three checks that read the documentation meets the carriage
returns in its own way. The reader of commands drops them. The search for
headers leaves them at the ends of the lines that it finds, and the reader of
its output drops them there. The expressions for reads of an option, and the
line that opens the main package, end before them. So the checks do the same in
both cases.
-/

namespace ToolLint

open Text (crlf)

/-! ## The documentation -/

theorem Pod.commands_crlf {s : Text} (h : cr ∉ s) :
    commands (crlf s) = commands s := by
  rw [commands_eq, commands_eq, Text.lines_crlf h, Text.map_dropCr_lines h]

theorem Pod.documentedOptions_crlf {s : Text} (h : cr ∉ s) :
    documentedOptions (crlf s) = documentedOptions s := by
  unfold documentedOptions
  rw [commands_crlf h]

namespace Check

/-! ## The search for headers -/

theorem marksHeader_dropCr (line : Text) :
    marksHeader line.dropCr = marksHeader line := by
  rw [Bool.eq_iff_iff, marksHeader_iff, marksHeader_iff]
  exact Text.prefix_dropCr_iff (by decide)

theorem headerLines_crlf {s : Text} (h : cr ∉ s) :
    (headerLines (crlf s)).map Text.dropCr = headerLines s :=
  Text.filter_lines_crlf marksHeader_dropCr h

theorem map_dropCr_headerLines {s : Text} (h : cr ∉ s) :
    (headerLines s).map Text.dropCr = headerLines s := by
  have hcomp : marksHeader ∘ Text.dropCr = marksHeader :=
    funext marksHeader_dropCr
  unfold headerLines
  rw [← hcomp, ← List.filter_map, Text.map_dropCr_lines h, hcomp]

/-- A line gets longer by one byte. -/
theorem fits_of_mem_headerLines_crlf {s : Text} (h : cr ∉ s)
    (hlines : ∀ line ∈ headerLines s, line.length ≤ 65534) :
    ∀ line ∈ headerLines (crlf s), line.fits = true := by
  intro line hline
  have hmem : line.dropCr ∈ headerLines s := by
    rw [← headerLines_crlf h]
    exact List.mem_map_of_mem hline
  have hlength := hlines _ hmem
  apply decide_eq_true
  unfold Text.lineLimit
  rcases Text.eq_or_eq_append_cr line with heq | heq
  · rw [heq]
    omega
  · rw [heq, List.length_append, List.length_singleton]
    omega

/-! ## The searches for reads -/

theorem readsBy_dropCr_iff {method option line : Text} :
    ReadsBy method option line.dropCr ↔ ReadsBy method option line := by
  have hlast : ∀ q q', (readForm method q option q').getLast? ≠ some cr := by
    intro q q'
    have hend : readForm method q option q' =
        (method ++ utf8 "(" ++ q :: (option ++ [q'])) ++ [ascii ')'] := by
      simp [readForm]
      rfl
    rw [hend, List.getLast?_concat]
    decide
  unfold ReadsBy
  simp only [Text.infix_dropCr_iff (hlast _ _)]

variable {script : Script} {files files' : Files} {tool : Tool}

theorem reads_crlf {option : Text} (hscript : script.LeavesSearch)
    (hcr : cr ∉ tool.text) (hfile : files.read tool.path = .ok tool.text)
    (hfile' : files'.read tool.path = .ok (crlf tool.text))
    (hoption : ∀ b ∈ option, Pod.isOptionByte b = true) :
    reads (script.programs files') tool option =
      reads (script.programs files) tool option := by
  have hget : ∀ b ∈ utf8 "get", Pod.isOptionByte b = true :=
    List.all_iff_forall_prop.mp (by decide)
  have hgot : ∀ b ∈ utf8 "got", Pod.isOptionByte b = true :=
    List.all_iff_forall_prop.mp (by decide)
  have hcount : ∀ pattern ∈ readPatterns option,
      Search.count (script.programs files') pattern tool.path =
        Search.count (script.programs files) pattern tool.path := by
    intro pattern hpattern
    rw [readPatterns_eq hoption] at hpattern
    obtain ⟨method, hmethod, rfl⟩ := List.mem_map.mp hpattern
    have hletters : ∀ b ∈ method, Pod.isOptionByte b = true := by
      rcases List.mem_pair.mp hmethod with rfl | rfl
      · exact hget
      · exact hgot
    refine Search.count_congr hscript hfile hfile'
      (read_readExpression hletters hoption) ?_
    rw [hits_readExpression hletters hoption,
      hits_readExpression hletters hoption,
      ← Text.filter_lines_crlf
        (fun line => decide_eq_decide.mpr readsBy_dropCr_iff) hcr,
      List.length_map]
  have heach := Activity.each_congr hcount
  unfold reads occurrences
  rw [heach]

theorem unreadOptions_crlf (rules : Rules) (hscript : script.LeavesSearch)
    (hcr : cr ∉ tool.text) (hfile : files.read tool.path = .ok tool.text)
    (hfile' : files'.read tool.path = .ok (crlf tool.text)) :
    unreadOptions rules (script.programs files') { tool with
      text := crlf tool.text } =
      unreadOptions rules (script.programs files) tool := by
  have heach :
      Activity.each
        (reads (script.programs files') { tool with text := crlf tool.text })
        ((Pod.documentedOptions tool.text).filter fun o =>
          !rules.ignoresOption o) =
      Activity.each (reads (script.programs files) tool)
        ((Pod.documentedOptions tool.text).filter fun o =>
          !rules.ignoresOption o) := by
    apply Activity.each_congr
    intro o ho
    show reads (script.programs files') tool o =
        reads (script.programs files) tool o
    exact reads_crlf hscript hcr hfile hfile'
      (Pod.isOptionByte_of_mem_documentedOptions (List.mem_of_mem_filter ho))
  simp only [unreadOptions, Pod.documentedOptions_crlf hcr, heach]

theorem dsnParsing_crlf (hname : lf ∉ tool.name) :
    dsnParsing { tool with text := crlf tool.text } = dsnParsing tool := by
  have hpackage : lf ∉ tool.package := by
    intro hmem
    obtain ⟨b, hb, heq⟩ := List.mem_map.mp hmem
    split at heq
    · exact absurd heq (by decide)
    · exact hname (heq ▸ hb)
  unfold dsnParsing
  simp only [Tool.package] at hpackage ⊢
  rw [Package.region?_crlf hpackage]
  cases Package.region? tool.text (Tool.packageName tool.name) with
  | none => rfl
  | some region =>
      simp only [Option.map_some,
        Text.hasInfix_crlf (show lf ∉ utf8 "parse_options(" by decide)
          (show cr ∉ utf8 "parse_options(" by decide)]

/-- **The checks of the documentation do not depend on line ends.** Let a text
have no carriage returns, and let its header lines leave room for one. Then each
check does the same with the text and with its copy that has a carriage return
before every line feed, if the search program gets to see the copy too: the same
calls and reports, in the same order, and the same end. The last check wants the
name of the tool on one line. -/
theorem documentation_crlf (rules : Rules) (script : Script)
    (files files' : Files) (tool : Tool) (hscript : script.LeavesSearch)
    (hcr : cr ∉ tool.text)
    (hlines : ∀ line ∈ tool.text.lines, utf8 "=head1" <+: line →
      line.length ≤ 65534)
    (hfile : files.read tool.path = .ok tool.text)
    (hfile' : files'.read tool.path = .ok (crlf tool.text)) :
    let copy : Tool := { tool with text := crlf tool.text }
    optionOrder.run copy = optionOrder.run tool ∧
    (headerOrder rules (script.programs files')).run copy =
      (headerOrder rules (script.programs files)).run tool ∧
    (lf ∉ tool.name → (optionUsage rules (script.programs files')).run copy =
      (optionUsage rules (script.programs files)).run tool) := by
  intro copy
  refine ⟨?_, ?_, ?_⟩
  · simp only [optionOrder, copy, Pod.commands_crlf hcr]
    rfl
  · have hheaders : ∀ line ∈ headerLines tool.text, line.length ≤ 65534 := by
      intro line hline
      obtain ⟨hmem, hmark⟩ := List.mem_filter.mp hline
      exact hlines line hmem (marksHeader_iff.mp hmark)
    have hfits : ∀ line ∈ headerLines tool.text, line.fits = true := by
      intro line hline
      exact decide_eq_true (Nat.lt_of_le_of_lt (hheaders line hline) (by decide))
    have hfits' := fits_of_mem_headerLines_crlf hcr hheaders
    rw [headerOrder_eq hscript hfile hfits,
      @headerOrder_eq rules script files' copy _ hscript hfile' hfits',
      headerLines_crlf hcr, map_dropCr_headerLines hcr]
    rfl
  · intro hname
    have hunread : unreadOptions rules (script.programs files') copy =
        unreadOptions rules (script.programs files) tool :=
          unreadOptions_crlf rules hscript hcr hfile hfile'
    have hdsn : dsnParsing copy = dsnParsing tool := dsnParsing_crlf hname
    simp only [optionUsage, hunread, hdsn]
    rfl

/-! A tool with something for each check to find: an unsorted option, a
misplaced header, and an option that is read nowhere. -/

def linedTool : Tool := { headedTool with
  text :=
    utf8 "package pt_x;\nget('b')\n=head1 OPTIONS\n=item --b\n=item --a\n=head1 A\n" }

theorem documentation_crlf_all :
    let content := utf8
      "package pt_x;\r\nget('b')\r\n=head1 OPTIONS\r\n=item --b\r\n=item --a\r\n=head1 A\r\n"
    let copy : Tool := { linedTool with text := content }
    let programs := Script.empty.programs (headedFiles linedTool.text)
    let programs' := Script.empty.programs (headedFiles content)
    optionOrder.run copy = optionOrder.run linedTool ∧
    (headerOrder headedRules programs').run copy =
      (headerOrder headedRules programs).run linedTool ∧
    (optionUsage headedRules programs').run copy =
      (optionUsage headedRules programs).run linedTool := by
  intro content copy programs programs'
  have hcontent : crlf linedTool.text = content := by decide +kernel
  obtain ⟨horder, hheaders, husage⟩ :=
    documentation_crlf headedRules Script.empty (headedFiles linedTool.text)
    (headedFiles (crlf linedTool.text)) linedTool Script.leavesSearch_empty
      (by decide +kernel) (by decide +kernel)
    (by decide +kernel) (by decide +kernel)
  rw [hcontent] at horder hheaders husage
  exact ⟨horder, hheaders, husage (by decide)⟩

end Check

end ToolLint
