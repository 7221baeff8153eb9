import ToolLint.Check.Modules
import ToolLint.Proofs.Announcement
import ToolLint.Proofs.Rules.Encoding
import ToolLint.Proofs.Search

/-!
# The check of modules is exact

`Module.Used` says when a module that a tool carries counts as used, in terms of
the rule file's tables and of the tool's text. The check reports the modules that
are not, all of them and nothing else, and asks the search program only about
those that are used without being constructed. The subclasses of a base class have
to be named in UTF-8: no expression can be made of another name, and then the
check panics.
-/

namespace ToolLint

namespace Module

/-! ## Use -/

/-- The tool uses the module. The tables of the rule file are asked in this
order, and the first that has the module decides. -/
def Used (rules : Rules) (tool : Tool) (m : Text) : Prop :=
  m ∈ rules.file.ignoredModules ∨
  m ∈ (rules.file.dynamicModules.get? tool.name).getD [] ∨
    (m ∈ rules.file.nonObjectModules ∧ ∃ line ∈ tool.text.lines, Refers m line) ∨
    (m ∉ rules.file.nonObjectModules ∧
      if rules.file.baseClassModules.has m then
        ∃ s ∈ rules.subclasses m, rules.policy tool.name s = .dynamic ∨
          constructed tool.text s = true
      else constructed tool.text m = true)

instance (rules : Rules) (tool : Tool) (m : Text) :
    Decidable (Used rules tool m) :=
  inferInstanceAs (Decidable (_ ∨ _ ∨ (_ ∧ _) ∨ (_ ∧ ite _ _ _)))

/-- What counts as a use is a matter of the policy. -/
theorem used_iff {rules : Rules} {tool : Tool} {m : Text} : Used rules tool m ↔
    match rules.policy tool.name m with
    | .ignored | .dynamic => True
    | .notObject => ∃ line ∈ tool.text.lines, Refers m line
    | .baseClass =>
      ∃ s ∈ rules.subclasses m, rules.policy tool.name s = .dynamic ∨
        constructed tool.text s = true
    | .constructed => constructed tool.text m = true := by
  unfold Used
  -- One case for each table that can decide, in the order in which they are
  -- asked.
  by_cases hignored : m ∈ rules.file.ignoredModules
  · have hpolicy : rules.policy tool.name m = .ignored := by
      simp [Rules.policy, hignored]
    simp [hpolicy, hignored]
  by_cases hdynamic : m ∈ (rules.file.dynamicModules.get? tool.name).getD []
  · have hpolicy : rules.policy tool.name m = .dynamic := by
      simp [Rules.policy, hignored, hdynamic]
    simp [hpolicy, hdynamic]
  by_cases hnonObject : m ∈ rules.file.nonObjectModules
  · have hpolicy : rules.policy tool.name m = .notObject := by
      simp [Rules.policy, hignored, hdynamic, hnonObject]
    simp [hpolicy, hignored, hdynamic, hnonObject]
  by_cases hbase : rules.file.baseClassModules.has m = true
  · have hpolicy : rules.policy tool.name m = .baseClass := by
      simp [Rules.policy, hignored, hdynamic, hnonObject, hbase]
    simp [hpolicy, hignored, hdynamic, hnonObject, hbase]
  · have hpolicy : rules.policy tool.name m = .constructed := by
      simp [Rules.policy, hignored, hdynamic, hnonObject, hbase]
    simp [hpolicy, hignored, hdynamic, hnonObject, hbase]

/-! ## References that are counted -/

/-- A module name is its own written form. -/
theorem referencePatterns_eq {m : Text} (hm : isName m = true) :
    Check.referencePatterns m =
      [m ++ utf8 "::",
        utf8 "^[[:space:]]*use " ++ m ++ utf8 "([^A-Za-z0-9_:]|$)"] := by
  have hescape : Pattern.escape m = m :=
    Pattern.escape_eq_self fun b hb => notMem_special_of_isNameByte
      (isNameByte_of_isName hm b hb)
  rw [Check.referencePatterns, hescape]

theorem isNameByte_of_mem_scope {m : Text} (hm : isName m = true) :
    ∀ b ∈ m ++ utf8 "::", isNameByte b = true := by
  have hcolons : ∀ b ∈ utf8 "::", isNameByte b = true :=
    List.all_iff_forall_prop.mp (by decide)
  intro b hb
  rcases List.mem_append.mp hb with hb | hb
  · exact isNameByte_of_isName hm b hb
  · exact hcolons b hb

theorem scope_ne_nil (m : Text) : m ++ utf8 "::" ≠ [] := by
  simp [utf8, encodeChar]

theorem length_of_refers {m line : Text} (h : Refers m line) :
    2 ≤ line.length := by
  rcases h with ⟨u, v, rfl⟩ | ⟨margin, v, rfl, -⟩
  · have hcolons : (utf8 "::").length = 2 := by decide
    simp only [List.length_append, hcolons]
    omega
  · have huse : (utf8 "use ").length = 4 := by decide
    simp only [List.length_append, huse]
    omega

/-- The two expressions find the lines that refer to the module in one of the two
ways. -/
theorem finds_referencePatterns {m : Text} (hm : isName m = true) :
    List.Forall₂ Grep.Finds (Check.referencePatterns m)
      [Mentions m, Imports m] := by
  have hscope := isNameByte_of_mem_scope hm
  rw [referencePatterns_eq hm]
  refine .cons ⟨_, read_name hscope (scope_ne_nil m), fun line => ?_⟩
    (.cons ⟨_, read_import (isNameByte_of_isName hm), fun line => ?_⟩ .nil)
  · exact found_name_iff hscope (scope_ne_nil m)
  · exact found_import_iff (isNameByte_of_isName hm)

end Module

namespace Check

/-! ## The steps of the check -/

variable {rules : Rules} {script : Script} {files : Files} {tool : Tool}

theorem referenced_eq {m : Text} (hscript : script.LeavesSearch)
    (hfile : files.read tool.path = .ok tool.text)
    (hfits : tool.text.length < Decimal.halfModulus)
    (hm : Module.isName m = true) :
    referenced (script.programs files) tool m =
      ⟨(referencePatterns m).map fun pattern =>
        .call (Search.countCall tool.path pattern),
        .ok (decide (∃ line ∈ tool.text.lines, Module.Refers m line))⟩ := by
  have hlong : ∀ P ∈ [Module.Mentions m, Module.Imports m], ∀ line, P line →
      (referencePatterns m).length ≤ line.length := by
    rw [List.forall_mem_cons, List.forall_mem_singleton]
    exact ⟨fun _ h => Module.length_of_refers (Or.inl h),
      fun _ h => Module.length_of_refers (Or.inr h)⟩
  obtain ⟨n, hn, hpos⟩ :=
    occurrences_of_finds hscript hfile hfits
      (Module.finds_referencePatterns hm) hlong
  have hrefers : 0 < n ↔ ∃ line ∈ tool.text.lines, Module.Refers m line := by
    rw [hpos]
    simp only [List.mem_cons, List.not_mem_nil, or_false, exists_eq_or_imp,
      exists_eq_left]
    rw [← exists_or]
    simp only [← and_or_left]
    rfl
  unfold referenced
  rw [hn]
  simp only [Activity.during, Activity.bind_eq, Activity.andThen,
    Activity.pure_eq, Activity.done, List.append_nil, Int.natCast_pos, hrefers]

theorem constructed_eq {m : Text} (hm : m.IsEncoded) :
    constructed tool m = .done (Module.constructed tool.text m) := by
  unfold constructed
  rw [Module.rejection?_eq_none hm]
  rfl

/-- A base class is used through the first of its subclasses that is. -/
theorem anyConstructed_eq {ms : List Text} (hms : ∀ s ∈ ms, s.IsEncoded) :
    anyConstructed rules tool ms =
      .done (decide (∃ s ∈ ms, rules.policy tool.name s = .dynamic ∨
        Module.constructed tool.text s = true)) := by
  induction ms with
  | nil => simp [anyConstructed]
  | cons m ms ih =>
      have hrest := ih fun s hs => hms s (List.mem_cons_of_mem m hs)
      rw [anyConstructed, constructed_eq (hms m List.mem_cons_self), hrest]
      simp only [Activity.bind_eq, Activity.done_andThen, List.mem_cons,
        exists_eq_or_imp]
      by_cases hdynamic : rules.policy tool.name m = .dynamic
      · simp [hdynamic]
      · by_cases hconstructed : Module.constructed tool.text m = true
        · simp [hdynamic, hconstructed]
        · simp [hdynamic, hconstructed]

def searches (rules : Rules) (tool : Tool) (m : Text) : List (List Text) :=
  if rules.policy tool.name m = .notObject then
    (referencePatterns m).map (Search.countCall tool.path)
  else []

/-- **A module is found to be used if and only if it is.** -/
theorem moduleUsed_eq {m : Text}
    (hsubclasses : ∀ s ∈ rules.subclasses m, s.IsEncoded)
    (hscript : script.LeavesSearch)
    (hfile : files.read tool.path = .ok tool.text)
    (hfits : tool.text.length < Decimal.halfModulus)
    (hm : Module.isName m = true) :
    moduleUsed rules (script.programs files) tool m =
      ⟨(searches rules tool m).map .call,
        .ok (decide (Module.Used rules tool m))⟩ := by
  unfold moduleUsed searches
  cases hpolicy : rules.policy tool.name m with
  | ignored => simp [Module.used_iff, hpolicy, Activity.done]
  | dynamic => simp [Module.used_iff, hpolicy, Activity.done]
  | notObject =>
      simp [Module.used_iff, hpolicy, referenced_eq hscript hfile hfits hm]
  | baseClass =>
      simp [Module.used_iff, hpolicy, anyConstructed_eq hsubclasses,
        Activity.done]
  | constructed =>
      simp [Module.used_iff, hpolicy,
        constructed_eq (Module.isEncoded_of_isName hm), Activity.done]

def usageEntry (rules : Rules) (tool : Tool) (m : Text) : Log.Entry :=
  Log.debug (utf8 "module usage")
    [(utf8 "tool", .text tool.name), (utf8 "module", .text m),
      (utf8 "policy", .text (rules.policy tool.name m).label),
      (utf8 "used", .flag (decide (Module.Used rules tool m)))]

def usageEvents (rules : Rules) (tool : Tool) (m : Text) : List Event :=
  (searches rules tool m).map .call ++ [.log (usageEntry rules tool m)]

theorem moduleUsedLogged_eq {m : Text}
    (hsubclasses : ∀ s ∈ rules.subclasses m, s.IsEncoded)
    (hscript : script.LeavesSearch)
    (hfile : files.read tool.path = .ok tool.text)
    (hfits : tool.text.length < Decimal.halfModulus)
    (hm : Module.isName m = true) :
    moduleUsedLogged rules (script.programs files) tool m =
      ⟨usageEvents rules tool m, .ok (decide (Module.Used rules tool m))⟩ := by
  unfold moduleUsedLogged
  rw [moduleUsed_eq hsubclasses hscript hfile hfits hm]
  rfl

/-! ## The report -/

/-- The modules that the tool carries and does not use, in the order of their
announcements. -/
def unused (rules : Rules) (tool : Tool) : List Text :=
  (Module.declared tool.text).filter fun m => ¬ Module.Used rules tool m

theorem mem_unused_iff {m : Text} :
    m ∈ unused rules tool ↔ m ∈ Module.declared tool.text ∧
      ¬ Module.Used rules tool m := by
  rw [unused, List.mem_filter, decide_eq_true_eq]

theorem unusedModules_of_encoded
    (hsubclasses : ∀ m, ∀ s ∈ rules.subclasses m, s.IsEncoded)
    (hscript : script.LeavesSearch)
    (hfile : files.read tool.path = .ok tool.text)
    (hfits : tool.text.length < Decimal.halfModulus) :
    unusedModules rules (script.programs files) tool =
      ⟨(Module.declared tool.text).flatMap (usageEvents rules tool),
        .ok (unused rules tool)⟩ := by
  have heach :=
    Activity.each_eq (f := moduleUsedLogged rules (script.programs files) tool)
    fun m (hm : m ∈ Module.declared tool.text) =>
      moduleUsedLogged_eq (hsubclasses m) hscript hfile hfits
        (Module.isName_of_mem_declared hm)
  unfold unusedModules
  simp only [Activity.bind_eq]
  rw [heach]
  simp only [Activity.andThen, Activity.pure_eq, Activity.done, List.append_nil,
    filter_zip_map]
  simp [unused]

theorem calls_usageEvents (rules : Rules) (tool : Tool) (ms : List Text) :
    Event.calls (ms.flatMap (usageEvents rules tool)) =
      (ms.filter fun m => rules.policy tool.name m = .notObject).flatMap fun m =>
        (referencePatterns m).map (Search.countCall tool.path) := by
  induction ms with
  | nil => rfl
  | cons m ms ih =>
      have hlog : Event.calls [.log (usageEntry rules tool m)] = [] := rfl
      rw [List.flatMap_cons, Event.calls_append, ih, usageEvents,
        Event.calls_append, hlog, List.append_nil, Event.calls_map_call, searches]
      by_cases h : rules.policy tool.name m = .notObject
      · simp [h]
      · simp [h]

theorem reports_usageEvents (rules : Rules) (tool : Tool) (ms : List Text) :
    Event.reports (ms.flatMap (usageEvents rules tool)) = [] := by
  rw [Event.reports, List.filterMap_eq_nil_iff]
  intro e he
  obtain ⟨m, -, he⟩ := List.mem_flatMap.mp he
  rcases List.mem_append.mp he with he | he
  · obtain ⟨c, -, rfl⟩ := List.mem_map.mp he
    rfl
  · obtain rfl := List.mem_singleton.mp he
    rfl

def moduleEntries (rules : Rules) (tool : Tool) : List Report.Entry :=
  if unused rules tool = [] then []
  else [.list (tool.name ++ utf8 " has unused modules:") (unused rules tool)]

/-- All that happens in the check: it looks at each module, and it writes one list
or nothing. -/
theorem run_moduleUsage (hsubclasses : ∀ m, ∀ s ∈ rules.subclasses m, s.IsEncoded)
    (hscript : script.LeavesSearch) (hfile : files.read tool.path = .ok tool.text)
    (hfits : tool.text.length < Decimal.halfModulus) :
    (moduleUsage rules (script.programs files)).run tool =
      ⟨(Module.declared tool.text).flatMap (usageEvents rules tool) ++
        (moduleEntries rules tool).map .report, .ok ()⟩ := by
  show Activity.andThen _ _ = _
  rw [unusedModules_of_encoded hsubclasses hscript hfile hfits]
  simp only [Activity.andThen, list_eq, moduleEntries]
  by_cases hnil : unused rules tool = []
  · simp [hnil]
  · simp [hnil]

theorem reports_moduleUsage
    (hsubclasses : ∀ m, ∀ s ∈ rules.subclasses m, s.IsEncoded)
    (hscript : script.LeavesSearch)
    (hfile : files.read tool.path = .ok tool.text)
    (hfits : tool.text.length < Decimal.halfModulus) :
    let activity := (moduleUsage rules (script.programs files)).run tool
    activity.result = .ok () ∧
      Event.reports activity.events = moduleEntries rules tool := by
  intro activity
  rw [show activity = _ from run_moduleUsage hsubclasses hscript hfile hfits]
  refine ⟨rfl, ?_⟩
  rw [Event.reports_append, reports_usageEvents, List.nil_append,
    Event.reports_map_report]

/-- Rules that are read from a document without binary scalars let the check
come to its end. -/
theorem result_moduleUsage_of_parse {source : Text}
    (hrules : Rules.parse source = .ok rules)
    (hbinary : ∀ n, Yaml.document? source = some (some n) →
      n.All fun tag _ => tag ≠ .binary)
    (hscript : script.LeavesSearch) (hfile : files.read tool.path = .ok tool.text)
    (hfits : tool.text.length < Decimal.halfModulus) :
    ((moduleUsage rules (script.programs files)).run tool).result = .ok () :=
  (reports_moduleUsage (fun _ _ => Rules.encoded_of_mem_subclasses hrules hbinary)
    hscript hfile hfits).1

/-- The check of modules reports the module: it is in a list that the check
writes. -/
def ReportsUnused (rules : Rules) (programs : Programs) (tool : Tool) (m : Text) :
    Prop :=
  ∃ items, .list (tool.name ++ utf8 " has unused modules:") items ∈
    Event.reports ((moduleUsage rules programs).run tool).events ∧ m ∈ items

theorem reportsUnused_iff
    (hsubclasses : ∀ m, ∀ s ∈ rules.subclasses m, s.IsEncoded)
    (hscript : script.LeavesSearch)
    (hfile : files.read tool.path = .ok tool.text)
    (hfits : tool.text.length < Decimal.halfModulus) {m : Text} :
    ReportsUnused rules (script.programs files) tool m ↔
      m ∈ unused rules tool := by
  obtain ⟨-, hreports⟩ := reports_moduleUsage hsubclasses hscript hfile hfits
  rw [ReportsUnused, hreports, moduleEntries]
  by_cases hnil : unused rules tool = []
  · simp [hnil]
  · simp [hnil]

theorem render_moduleEntries (rules : Rules) (tool : Tool) :
    Report.render (moduleEntries rules tool) =
      if unused rules tool = [] then []
      else tool.name ++ utf8 " has unused modules:" ++ [lf] ++
        (unused rules tool).flatMap fun m => tab :: (m ++ [lf]) := by
  unfold moduleEntries
  split
  · rfl
  · simp [Report.render, Report.Entry.render]

/-- **The check reports exactly the modules that are not used.** It comes to its
end, it writes nothing if all modules are used and one list of the others if
not, and the search program is called twice for each module that has to be
referred to and for no other. The subclasses of base classes are named in UTF-8,
the text of the tool is also the content of its file, and its length is a 64-bit
integer. -/
theorem moduleUsage_exact
    (hsubclasses : ∀ m, ∀ s ∈ rules.subclasses m, s.IsEncoded)
    (hscript : script.LeavesSearch)
    (hfile : files.read tool.path = .ok tool.text)
    (hfits : tool.text.length < Decimal.halfModulus) :
    let activity := (moduleUsage rules (script.programs files)).run tool
    activity.result = .ok () ∧
    Event.reportText activity.events =
      (if unused rules tool = [] then []
      else tool.name ++ utf8 " has unused modules:" ++ [lf] ++
        (unused rules tool).flatMap fun m => tab :: (m ++ [lf])) ∧
    Event.calls activity.events =
      ((Module.declared tool.text).filter fun m =>
        rules.policy tool.name m = .notObject).flatMap fun m =>
          (referencePatterns m).map (Search.countCall tool.path) := by
  intro activity
  obtain ⟨hresult, hreports⟩ :=
    reports_moduleUsage hsubclasses hscript hfile hfits
  refine ⟨hresult, ?_, ?_⟩
  · rw [Event.reportText, hreports, render_moduleEntries]
  · rw [show activity = _ from run_moduleUsage hsubclasses hscript hfile hfits,
      Event.calls_append, calls_usageEvents, Event.calls_map_report,
      List.append_nil]

/-! A tool with one module for each way to be used or not: `A` is referred to,
`B` is not, `C` is used through `D`, and `E` is constructed nowhere. -/

def sampleRules : Rules where
  file := { RuleFile.empty with
    headers := [utf8 "NAME"]
    nonObjectModules := [utf8 "A", utf8 "B"]
    baseClassModules := [(utf8 "C", [utf8 "D"])] }
  valid := by simp [RuleFile.Valid, RuleFile.empty]

def sampleTool : Tool where
  name := utf8 "pt-x"
  path := utf8 "bin/pt-x"
  absolutePath := utf8 "/w/bin/pt-x"
  text :=
    utf8 "# A package\n# B package\n# C package\n# E package\nA::f();\nnew D(1);\n"

def sampleFiles : Files :=
  .ofPaths (utf8 "/w") [(sampleTool.path, sampleTool.text)] []

theorem encoded_sampleRules :
    ∀ m, ∀ s ∈ sampleRules.subclasses m, s.IsEncoded := by
  intro m s
  apply Rules.encoded_of_subclassesEncoded
  simp [Rules.SubclassesEncoded, sampleRules, Text.isEncoded_utf8]

theorem moduleUsage_exact_sample :
    (∀ m, ∀ s ∈ sampleRules.subclasses m, s.IsEncoded) ∧
    let activity :=
      (moduleUsage sampleRules (Script.empty.programs sampleFiles)).run sampleTool
    activity.result = .ok () ∧
    Event.reportText activity.events =
      utf8 "pt-x has unused modules:\n\tB\n\tE\n" ∧
    Event.calls activity.events =
      [utf8 "A::", utf8 "^[[:space:]]*use A([^A-Za-z0-9_:]|$)", utf8 "B::",
        utf8 "^[[:space:]]*use B([^A-Za-z0-9_:]|$)"].map
          (Search.countCall sampleTool.path) := by
  have hfile : sampleFiles.read sampleTool.path = .ok sampleTool.text := by
    decide +kernel
  have hfits : sampleTool.text.length < Decimal.halfModulus := by decide +kernel
  have hunused : unused sampleRules sampleTool = [utf8 "B", utf8 "E"] := by
    decide +kernel
  obtain ⟨hresult, hreport, hcalls⟩ :=
    moduleUsage_exact encoded_sampleRules Script.leavesSearch_empty hfile hfits
  refine ⟨encoded_sampleRules, hresult, ?_, ?_⟩
  · rw [hreport, hunused]
    decide
  · rw [hcalls]
    decide +kernel

/-! Rules that list a subclass of `C` by bytes that are no text. -/

def straySource : Text :=
  utf8 "headers: [NAME]\nbase_class_modules: \x7bC: [!!binary \"/w==\"]\x7d\n"

def strayRules : Rules where
  file := { RuleFile.empty with
    headers := [utf8 "NAME"]
    baseClassModules := [(utf8 "C", [[0xFF]])] }
  valid := by simp [RuleFile.Valid, RuleFile.empty]

def strayTool : Tool where
  name := utf8 "pt-x"
  path := utf8 "pt-x"
  absolutePath := utf8 "/w/pt-x"
  text := utf8 "# C package\n"

theorem parse_straySource : Rules.parse straySource = .ok strayRules := by
  have hdecode : Rules.decode straySource = .ok strayRules.file := by
    decide +kernel
  unfold Rules.parse
  rw [hdecode]
  rfl

/-- **A name that is no text makes the check panic.** So it is not true of all
rules that are read from a document that the check comes to its end. -/
theorem moduleUsage_panics :
    (∃ v, ((moduleUsage strayRules (Script.empty.programs
      (.ofPaths (utf8 "/w") [(strayTool.path, strayTool.text)] []))).run
        strayTool).result = .error (.panic v)) ∧
    ¬ ∀ (source : Text) (rules : Rules) (script : Script) (files : Files)
      (tool : Tool),
      Rules.parse source = .ok rules → script.LeavesSearch →
      files.read tool.path = .ok tool.text →
      tool.text.length < Decimal.halfModulus →
      ((moduleUsage rules (script.programs files)).run tool).result = .ok () := by
  have hpanic : ∃ v, ((moduleUsage strayRules (Script.empty.programs
      (.ofPaths (utf8 "/w") [(strayTool.path, strayTool.text)] []))).run
        strayTool).result = .error (.panic v) :=
    ⟨(Module.rejection? [0xFF]).getD [], by decide +kernel⟩
  refine ⟨hpanic, fun hends => ?_⟩
  obtain ⟨v, hv⟩ := hpanic
  have hok := hends straySource strayRules .empty
    (.ofPaths (utf8 "/w") [(strayTool.path, strayTool.text)] []) strayTool
    parse_straySource Script.leavesSearch_empty (by decide +kernel)
      (by decide +kernel)
  cases hv.symm.trans hok

end Check

end ToolLint
