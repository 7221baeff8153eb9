import ToolLint.Proofs.Check.Failure
import ToolLint.Proofs.Help.Canonical
import ToolLint.Proofs.Rules.Layers

/-!
# Specifications and help lines

The rules say what an option should look like in a help listing. What a rule
file may ask for and what a help line can say are described apart from each
other, and they are not the same: every type that is known can be written on a
line, but a short form may be any byte, and only a letter or a question mark is
read as one. The canonical line of an option meets its specification unless
there is such a short form (`optionTypes_canonical`).
-/

namespace ToolLint

/-! ## Specifications of valid rules -/

/-- Every known type can be written on a help line. -/
theorem OptionSpec.Valid.type {spec : OptionSpec} (h : spec.Valid) :
    spec.type = [] ∨ ∃ b, spec.type = [b] ∧ isLetter b = true := by
  have hknown : ∀ t ∈ knownTypes, t = [] ∨ t.length = 1 ∧
      t.all isLetter = true := by decide
  refine (hknown spec.type h.1).imp_right fun ⟨hlength, hall⟩ => ?_
  obtain ⟨b, hb⟩ := List.length_eq_one_iff.mp hlength
  rw [hb] at hall
  exact ⟨b, hb, List.all_eq_true.mp hall b List.mem_cons_self⟩

namespace Check

/-! ## What the check reports -/

def typeEntries (rules : Rules) (tool : Tool) (o : HelpOption) :
    List Report.Entry :=
  match rules.option? tool.name o.long with
  | none => []
  | some spec =>
    (if o.type = spec.type then []
    else [.violation (utf8 "%s --%s has type %s but should have type %s")
      [tool.name, o.long, orNone o.type, orNone spec.type]]) ++
    (if o.short = spec.short then []
    else
      [.violation (utf8 "%s --%s has short form %s but should have short form %s")
      [tool.name, o.long, orNone o.short, orNone spec.short]])

theorem optionType_eq (rules : Rules) (tool : Tool) (o : HelpOption) :
    optionType rules tool o = ⟨(typeEntries rules tool o).map .report,
      .ok ()⟩ := by
  unfold optionType typeEntries
  cases rules.option? tool.name o.long with
  | none => rfl
  | some spec =>
      by_cases htype : o.type = spec.type
      · by_cases hshort : o.short = spec.short
        · simp only [htype, hshort, ne_eq, not_true, if_false, if_true]
          rfl
        · simp only [htype, hshort, ne_eq, not_true, not_false_eq_true, if_false,
            if_true]
          rfl
      · by_cases hshort : o.short = spec.short
        · simp only [htype, hshort, ne_eq, not_true, not_false_eq_true, if_false,
            if_true]
          rfl
        · simp only [htype, hshort, ne_eq, not_false_eq_true, if_false, if_true]
          rfl

section Listing

variable {rules : Rules} {programs : Programs} {tool : Tool} {output : Text}
  {exit : Int}

theorem optionTypes_of_parse {options : List HelpOption}
    (hhelp : (programs.run tool.absolutePath [utf8 "--help"]).result =
      .ok ⟨output, exit⟩)
    (hparse : Help.parse output = .ok options) :
    (optionTypes rules programs).run tool =
      ⟨(programs.run tool.absolutePath [utf8 "--help"]).events ++
        (options.flatMap (typeEntries rules tool)).map .report, .ok ()⟩ := by
  have heach := Activity.each_eq (f := optionType rules tool)
    fun o (_ : o ∈ options) => optionType_eq rules tool o
  show Activity.andThen _ _ = _
  simp only [Activity.during, Activity.andThen, hhelp, hparse, Activity.ofExcept,
    Activity.bind_eq, Activity.done, heach, List.nil_append, Activity.pure_eq,
    List.append_nil, List.map_flatMap]

theorem optionTypes_of_parse_error {e : Error}
    (hhelp : (programs.run tool.absolutePath [utf8 "--help"]).result =
      .ok ⟨output, exit⟩)
    (hparse : Help.parse output = .error e) :
    (optionTypes rules programs).run tool =
      ⟨(programs.run tool.absolutePath [utf8 "--help"]).events,
        .error (.error e)⟩ := by
  show Activity.andThen _ _ = _
  simp only [Activity.during, Activity.andThen, hhelp, hparse, Activity.ofExcept,
    Activity.bind_eq, Activity.error, Activity.fail, List.append_nil]

end Listing

/-! ## The canonical line -/

/-- The sentence about an option that should have a short form and has none. -/
def missingShort (tool : Tool) (option short : Text) : Report.Entry :=
  .violation (utf8 "%s --%s has short form %s but should have short form %s")
    [tool.name, option, utf8 "none", short]

/-- What there is to say of an option that is listed with the right type, and
with the right short form if it can be read. -/
theorem typeEntries_canonical {rules : Rules} {tool : Tool} {option : Text}
    {spec : OptionSpec} (hspec : rules.option? tool.name option = some spec) :
    typeEntries rules tool ⟨option, spec.type,
      if spec.short.all Help.isShortByte then spec.short else []⟩ =
      if spec.short.all Help.isShortByte then [] else
        [missingShort tool option spec.short] := by
  unfold typeEntries
  simp only [hspec, if_true, List.nil_append]
  by_cases hshort : spec.short.all Help.isShortByte = true
  · rw [if_pos hshort, if_pos rfl, if_pos hshort]
  · have hne : spec.short ≠ [] := by
      intro hnil
      rw [hnil] at hshort
      exact hshort rfl
    rw [if_neg hshort, if_neg hne.symm, if_neg hshort]
    simp [orNone, hne, missingShort]

section Canonical

variable {rules : Rules} {programs : Programs} {tool : Tool}
  {option description ending : Text} {spec : OptionSpec}
  {exit : Int}

theorem optionTypes_canonical_eq
    (hspec : rules.option? tool.name option = some spec)
    (hname : Pod.IsOptionName option)
    (hdescription : Help.IsDescription description)
    (hending : ending = [] ∨ ending = [lf])
    (hhelp : (programs.run tool.absolutePath [utf8 "--help"]).result =
      .ok ⟨Help.canonicalHelp ⟨option, spec.type, spec.short⟩ description ++
        ending, exit⟩) :
    (optionTypes rules programs).run tool =
      if ∀ line ∈ (Help.canonicalHelp ⟨option, spec.type,
        spec.short⟩ description ++ ending).lines,
          line.length < Text.lineLimit then
        ⟨(programs.run tool.absolutePath [utf8 "--help"]).events ++
          (if spec.short.all Help.isShortByte then [] else
            [missingShort tool option spec.short]).map .report, .ok ()⟩
      else
        ⟨(programs.run tool.absolutePath [utf8 "--help"]).events,
          .error (.error (.helpReading .overlongLine))⟩ := by
  have hvalid := Rules.valid_of_option? hspec
  have hparse :=
    Help.parse_canonicalHelp (o := ⟨option, spec.type, spec.short⟩) hname
      hvalid.type hvalid.2
    hdescription hending
  split
  · rename_i hfits
    rw [optionTypes_of_parse hhelp (hparse.trans (if_pos hfits)),
      List.flatMap_singleton, typeEntries_canonical hspec]
  · rename_i hlong
    rw [optionTypes_of_parse_error hhelp (hparse.trans (if_neg hlong))]

/-- **A specification can be met, unless its short form is neither a letter nor
a question mark.** Let there be a rule for an option, and let the tool list it
on its canonical line and nothing else.

* The check is content if and only if the short form, if there is one, is a
  letter or a question mark, and no line is too long for the reader.
* With any other short form there is the complaint that the short form is
  missing.
* With a line that is too long there is an error and no complaint. -/
theorem optionTypes_canonical
    (hspec : rules.option? tool.name option = some spec)
    (hname : Pod.IsOptionName option)
    (hdescription : Help.IsDescription description)
    (hending : ending = [] ∨ ending = [lf])
    (hquiet : (programs.run tool.absolutePath [utf8 "--help"]).Quiet)
    (hhelp : (programs.run tool.absolutePath [utf8 "--help"]).result =
      .ok ⟨Help.canonicalHelp ⟨option, spec.type, spec.short⟩ description ++
        ending, exit⟩) :
    let output :=
      Help.canonicalHelp ⟨option, spec.type, spec.short⟩ description ++ ending
    let activity := (optionTypes rules programs).run tool
    let fits := ∀ line ∈ output.lines, line.length < Text.lineLimit
    let readable := spec.short.all Help.isShortByte = true
    ((activity.result = .ok () ∧ Event.reports activity.events = []) ↔ fits ∧
      readable) ∧
    (fits → ¬ readable →
      activity.result = .ok () ∧ Event.reports activity.events =
        [missingShort tool option spec.short]) ∧
    (¬ fits → activity.result = .error (.error (.helpReading .overlongLine)) ∧
      Event.reports activity.events = []) := by
  intro output activity fits readable
  have hactivity : activity = _ :=
    optionTypes_canonical_eq hspec hname hdescription hending hhelp
  by_cases hfits : fits
  · have hreports : Event.reports activity.events =
        if spec.short.all Help.isShortByte then [] else
          [missingShort tool option spec.short] := by
      rw [hactivity, if_pos hfits, Event.reports_append, Event.reports_map_report,
        hquiet, List.nil_append]
    have hresult : activity.result = .ok () := by rw [hactivity, if_pos hfits]
    by_cases hshort : readable
    · rw [if_pos hshort] at hreports
      exact ⟨iff_of_true ⟨hresult, hreports⟩ ⟨hfits, hshort⟩,
        fun _ hnot => absurd hshort hnot,
        fun hnot => absurd hfits hnot⟩
    · rw [if_neg hshort] at hreports
      refine ⟨iff_of_false ?_ fun h => hshort h.2, fun _ _ => ⟨hresult, hreports⟩,
        fun hnot => absurd hfits hnot⟩
      rintro ⟨-, hnone⟩
      rw [hreports] at hnone
      cases hnone
  · have hresult :
        activity.result = .error (.error (.helpReading .overlongLine)) := by
      rw [hactivity, if_neg hfits]
    have hreports : Event.reports activity.events = [] := by
      rw [hactivity, if_neg hfits]
      exact hquiet
    refine ⟨iff_of_false ?_ fun h => hfits h.1, fun h => absurd h hfits,
      fun _ => ⟨hresult, hreports⟩⟩
    rintro ⟨hok, -⟩
    rw [hresult] at hok
    cases hok

end Canonical

/-! The exception of a tool wants another type and another short form than the
rule for all tools. -/

def listedTool : Tool := ⟨utf8 "pt-x", utf8 "pt-x", utf8 "/w/pt-x", []⟩

def listing (help : Text) : Script :=
  { Script.empty with results := [(utf8 "pt-x", ⟨help, 0⟩)] }

def exceptionRules : Rules where
  file := { RuleFile.empty with
    headers := [utf8 "NAME"]
    options := [(utf8 "ask-pass", ⟨[], utf8 "p"⟩)]
    optionExceptions :=
      [(utf8 "pt-x", [(utf8 "ask-pass", ⟨utf8 "A", utf8 "?"⟩)])] }
  valid := RuleFile.fault?_eq_none_iff.mp (by decide)

theorem optionTypes_canonical_exception :
    let help := utf8 "Options:\n\n  --ask-pass=A  -?  Prompt\n"
    let programs := (listing help).programs (.ofPaths (utf8 "/w") [] [])
    let activity := (optionTypes exceptionRules programs).run listedTool
    exceptionRules.option? listedTool.name (utf8 "ask-pass") =
      some ⟨utf8 "A", utf8 "?"⟩ ∧
    (programs.run listedTool.absolutePath [utf8 "--help"]).result =
      .ok ⟨help, 0⟩ ∧
    activity.result = .ok () ∧ Event.reports activity.events = [] := by
  intro help programs activity
  have hspec : exceptionRules.option? listedTool.name (utf8 "ask-pass") =
      some ⟨utf8 "A", utf8 "?"⟩ := by decide
  have hname : Pod.IsOptionName (utf8 "ask-pass") :=
    ⟨_, _, rfl, rfl, List.all_eq_true.mp rfl⟩
  have hdescription : Help.IsDescription (utf8 "Prompt") :=
    ⟨⟨_, _, rfl, rfl⟩, by decide⟩
  have hhelp : (programs.run listedTool.absolutePath [utf8 "--help"]).result =
      .ok ⟨help, 0⟩ := by decide +kernel
  obtain ⟨hcontent, -, -⟩ :=
    optionTypes_canonical hspec hname hdescription (Or.inr rfl)
    (Script.quiet_programs _ _ listedTool.absolutePath [utf8 "--help"]) hhelp
  exact ⟨hspec, hhelp, hcontent.mpr ⟨by decide +kernel, rfl⟩⟩

/-- A rule file may ask for a digit as a short form, and then the canonical line
is not what is wanted. -/
theorem optionTypes_unmet :
    ¬ ∀ (source : Text) (rules : Rules) (programs : Programs) (tool : Tool)
      (option description ending : Text)
      (spec : OptionSpec) (exit : Int), Rules.parse source = .ok rules →
      rules.option? tool.name option = some spec → Pod.IsOptionName option →
      Help.IsDescription description →
      (ending = [] ∨ ending = [lf]) →
      (programs.run tool.absolutePath [utf8 "--help"]).Quiet →
      (programs.run tool.absolutePath [utf8 "--help"]).result =
        .ok ⟨Help.canonicalHelp ⟨option, spec.type, spec.short⟩ description ++
          ending, exit⟩ →
      (∀ line ∈ (Help.canonicalHelp ⟨option, spec.type,
        spec.short⟩ description ++ ending).lines,
        line.length < Text.lineLimit) →
      ((optionTypes rules programs).run tool).result = .ok () ∧
        Event.reports ((optionTypes rules programs).run tool).events = [] := by
  intro hmet
  let source :=
    utf8 "headers: [NAME]\noptions:\n  ipv4: \x7btype: \"\", short: \"4\"\x7d\n"
  let rules : Rules :=
    ⟨{ RuleFile.empty with
      headers := [utf8 "NAME"], options := [(utf8 "ipv4", ⟨[], utf8 "4"⟩)] },
      RuleFile.fault?_eq_none_iff.mp (by decide)⟩
  let help := utf8 "Options:\n\n  --ipv4  -4  Use IPv4\n"
  let programs := (listing help).programs (.ofPaths (utf8 "/w") [] [])
  have hdecode : Rules.decode source = .ok rules.file := by decide +kernel
  have hrules : Rules.parse source = .ok rules := by
    unfold Rules.parse
    rw [hdecode]
    rfl
  have hname : Pod.IsOptionName (utf8 "ipv4") :=
    ⟨_, _, rfl, rfl, List.all_eq_true.mp rfl⟩
  have hdescription : Help.IsDescription (utf8 "Use IPv4") :=
    ⟨⟨_, _, rfl, rfl⟩, by decide⟩
  have hhelp : (programs.run listedTool.absolutePath [utf8 "--help"]).result =
      .ok ⟨help, 0⟩ := by decide +kernel
  obtain ⟨-, hreports⟩ := hmet source rules programs listedTool (utf8 "ipv4")
    (utf8 "Use IPv4") [lf] ⟨[], utf8 "4"⟩ 0
    hrules (by decide) hname hdescription (Or.inr rfl) rfl hhelp
      (by decide +kernel)
  revert hreports
  decide +kernel

end Check

end ToolLint
