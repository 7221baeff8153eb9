import ToolLint.Proofs.Check.Modules

/-!
# Exempting a module

A module is exempted from the check by adding it to one of two tables of the
rule file: the modules that are never looked for, and the modules that a tool
constructs under a computed name. The second way only removes reports. So does
the first, unless the module is in the second table already: a module that is
never looked for no longer counts as constructed, and a base class that was used
through this module alone is reported from then on.
-/

namespace ToolLint

namespace Rules

/-- The second rules are the first with one module more among those that are
never looked for. -/
structure AddsIgnored (rules : Rules) (x : Text) (rules' : Rules) : Prop where
  file_eq : rules'.file =
    { rules.file with ignoredModules := rules'.file.ignoredModules }
  mem_iff : ∀ m, m ∈ rules'.file.ignoredModules ↔ m = x ∨
    m ∈ rules.file.ignoredModules

/-- The second rules are the first with one module more among those that the
tool constructs under a computed name. -/
structure AddsDynamic (rules : Rules) (tool x : Text) (rules' : Rules) :
    Prop where
  file_eq : rules'.file =
    { rules.file with dynamicModules := rules'.file.dynamicModules }
  mem_iff : ∀ m, m ∈ (rules'.file.dynamicModules.get? tool).getD [] ↔
    m = x ∨ m ∈ (rules.file.dynamicModules.get? tool).getD []

variable {rules rules' : Rules} {tool x : Text}

theorem AddsIgnored.policy_eq (h : rules.AddsIgnored x rules') (tool m : Text) :
    rules'.policy tool m = if m = x then .ignored else rules.policy tool m := by
  unfold policy
  simp only [h.mem_iff]
  rw [h.file_eq]
  by_cases hm : m = x
  · simp only [hm, true_or, if_true]
  · simp only [hm, false_or, if_false]

theorem AddsIgnored.subclasses_eq (h : rules.AddsIgnored x rules') :
    rules'.subclasses = rules.subclasses := by
  unfold subclasses
  rw [h.file_eq]

/-- A module that is never looked for stays so. -/
theorem AddsDynamic.policy_eq (h : rules.AddsDynamic tool x rules') (m : Text) :
    rules'.policy tool m =
      if m = x ∧ x ∉ rules.file.ignoredModules then .dynamic else
        rules.policy tool m := by
  have hignored : rules'.file.ignoredModules = rules.file.ignoredModules := by
    rw [h.file_eq]
  unfold policy
  simp only [h.mem_iff, hignored]
  rw [h.file_eq]
  by_cases hm : m = x
  · subst hm
    by_cases hmem : m ∈ rules.file.ignoredModules
    · simp [hmem]
    · simp [hmem]
  · simp [hm]

theorem AddsDynamic.subclasses_eq (h : rules.AddsDynamic tool x rules') :
    rules'.subclasses = rules.subclasses := by
  unfold subclasses
  rw [h.file_eq]

end Rules

namespace Module

variable {rules rules' : Rules} {tool : Tool} {m x : Text}

/-- The module is a base class, and the tool uses it only through `x`, which it
constructs under a computed name. -/
def UsedOnlyThrough (rules : Rules) (tool : Tool) (x m : Text) : Prop :=
  rules.policy tool.name m = .baseClass ∧ x ∈ rules.subclasses m ∧
  rules.policy tool.name x = .dynamic ∧
    ∀ s ∈ rules.subclasses m, constructed tool.text s = false ∧
      (rules.policy tool.name s = .dynamic → s = x)

/-- Nothing but a base class is concerned by the policies of other modules. -/
theorem used_congr
    (hpolicy : rules'.policy tool.name m = rules.policy tool.name m)
    (hbase : rules.policy tool.name m ≠ .baseClass) :
    Used rules' tool m ↔ Used rules tool m := by
  rw [used_iff, used_iff, hpolicy]
  cases hm : rules.policy tool.name m with
  | baseClass => exact absurd hm hbase
  | _ => exact Iff.rfl

theorem not_used_iff_of_baseClass
    (hbase : rules.policy tool.name m = .baseClass) : ¬ Used rules tool m ↔
    ∀ s ∈ rules.subclasses m, constructed tool.text s = false ∧
      rules.policy tool.name s ≠ .dynamic := by
  rw [used_iff, hbase]
  simp only [not_exists, not_and, not_or, Bool.not_eq_true]
  exact forall₂_congr fun s _ => and_comm

theorem not_used_iff_of_addsIgnored (h : rules.AddsIgnored x rules') :
    ¬ Used rules' tool m ↔ m ≠ x ∧
      (¬ Used rules tool m ∨ UsedOnlyThrough rules tool x m) := by
  by_cases hm : m = x
  · have hused : Used rules' tool m := by
      rw [used_iff, h.policy_eq, if_pos hm]
      trivial
    exact iff_of_false (fun hnot => hnot hused) fun hne => hne.1 hm
  have hpolicy : rules'.policy tool.name m = rules.policy tool.name m := by
    rw [h.policy_eq, if_neg hm]
  rw [and_iff_right hm]
  by_cases hbase : rules.policy tool.name m = .baseClass
  · have hdynamic : ∀ s, rules'.policy tool.name s ≠ .dynamic ↔
        (rules.policy tool.name s = .dynamic → s = x) := by
      intro s
      rw [h.policy_eq]
      by_cases hs : s = x
      · simp [hs]
      · simp [hs]
    simp only [not_used_iff_of_baseClass (hpolicy.trans hbase),
      not_used_iff_of_baseClass hbase, h.subclasses_eq, hdynamic]
    constructor
    · intro hall
      by_cases hx : x ∈ rules.subclasses m ∧ rules.policy tool.name x = .dynamic
      · exact Or.inr ⟨hbase, hx.1, hx.2, hall⟩
      · refine Or.inl fun s hs => ⟨(hall s hs).1, fun hd => ?_⟩
        obtain rfl := (hall s hs).2 hd
        exact hx ⟨hs, hd⟩
    · rintro (hnot | ⟨-, -, -, hall⟩)
      · exact fun s hs => ⟨(hnot s hs).1, fun hd => absurd hd (hnot s hs).2⟩
      · exact hall
  · rw [used_congr hpolicy hbase]
    exact ⟨Or.inl, fun hor => hor.resolve_right fun hthrough => hbase hthrough.1⟩

theorem not_used_iff_of_addsDynamic (h : rules.AddsDynamic tool.name x rules') :
    ¬ Used rules' tool m ↔
      m ≠ x ∧ ¬ Used rules tool m ∧
        ¬ (rules.policy tool.name m = .baseClass ∧ x ∈ rules.subclasses m ∧
          x ∉ rules.file.ignoredModules) := by
  by_cases hm : m = x
  · have hused : Used rules' tool m := by
      rw [used_iff, h.policy_eq]
      by_cases hmem : x ∈ rules.file.ignoredModules
      · simp [hmem, hm, Rules.policy]
      · simp [hmem, hm]
    exact iff_of_false (fun hnot => hnot hused) fun hne => hne.1 hm
  have hpolicy : rules'.policy tool.name m = rules.policy tool.name m := by
    rw [h.policy_eq, if_neg fun hx => hm hx.1]
  rw [and_iff_right hm]
  by_cases hbase : rules.policy tool.name m = .baseClass
  · have hdynamic : ∀ s, rules'.policy tool.name s ≠ .dynamic ↔
        rules.policy tool.name s ≠ .dynamic ∧
        ¬ (s = x ∧ x ∉ rules.file.ignoredModules) := by
      intro s
      rw [h.policy_eq]
      by_cases hs : s = x ∧ x ∉ rules.file.ignoredModules
      · simp [hs]
      · simp [hs]
    simp only [not_used_iff_of_baseClass (hpolicy.trans hbase),
      not_used_iff_of_baseClass hbase, h.subclasses_eq, hdynamic]
    constructor
    · intro hall
      refine ⟨fun s hs => ⟨(hall s hs).1, (hall s hs).2.1⟩, ?_⟩
      rintro ⟨-, hx, hmem⟩
      exact (hall x hx).2.2 ⟨rfl, hmem⟩
    · rintro ⟨hnot, hx⟩ s hs
      refine ⟨(hnot s hs).1, (hnot s hs).2, ?_⟩
      rintro ⟨rfl, hmem⟩
      exact hx ⟨hbase, hs, hmem⟩
  · rw [used_congr hpolicy hbase]
    exact ⟨fun hnot => ⟨hnot, fun hx => hbase hx.1⟩, And.left⟩

end Module

namespace Check

variable {rules rules' : Rules} {script : Script} {files : Files} {tool : Tool}

/-- **Exempting a module from the check.** The check comes to its end under the
changed rules.

* If the module is one more that the tool constructs under a computed name, the
  module itself is no longer reported, the base classes that it is a subclass of
  are not either, and nothing else changes.
* If the module is one more that is never looked for, it is no longer reported,
  the base classes that were used through it alone, as a module constructed
  under a computed name, are reported now, and nothing else changes.

So nothing is added to the reports if the module was not constructed under a
computed name before. The subclasses of base classes are named in UTF-8. -/
theorem moduleUsage_exempting
    (hsubclasses : ∀ m, ∀ s ∈ rules.subclasses m, s.IsEncoded)
    (hscript : script.LeavesSearch) (hfile : files.read tool.path = .ok tool.text)
    (hfits : tool.text.length < Decimal.halfModulus) (x : Text) (rules' : Rules) :
    let reports := fun r m => ReportsUnused r (script.programs files) tool m
    let ends :=
      ((moduleUsage rules' (script.programs files)).run tool).result = .ok ()
    (rules.AddsDynamic tool.name x rules' → ends ∧
      ∀ m, reports rules' m ↔ m ≠ x ∧ reports rules m ∧
        ¬ (rules.policy tool.name m = .baseClass ∧ x ∈ rules.subclasses m ∧
          x ∉ rules.file.ignoredModules)) ∧
    (rules.AddsIgnored x rules' → ends ∧
      (∀ m, reports rules' m ↔ m ≠ x ∧
        (reports rules m ∨ (m ∈ Module.declared tool.text ∧
          Module.UsedOnlyThrough rules tool x m))) ∧
      (rules.policy tool.name x ≠ .dynamic → ∀ m, reports rules' m →
        reports rules m)) := by
  intro reports ends
  have hreports : ∀ r : Rules, r.subclasses = rules.subclasses → ∀ m,
      (reports r m ↔ m ∈ Module.declared tool.text ∧ ¬ Module.Used r tool m) := by
    intro r hr m
    exact (reportsUnused_iff (hr ▸ hsubclasses) hscript hfile hfits).trans
      mem_unused_iff
  have hends : rules'.subclasses = rules.subclasses → ends :=
    fun hr => (reports_moduleUsage (hr ▸ hsubclasses) hscript hfile hfits).1
  constructor
  · intro hadds
    refine ⟨hends hadds.subclasses_eq, fun m => ?_⟩
    rw [hreports rules rfl, hreports rules' hadds.subclasses_eq,
      Module.not_used_iff_of_addsDynamic hadds]
    tauto
  · intro hadds
    have hiff : ∀ m, reports rules' m ↔ m ≠ x ∧
        (reports rules m ∨ (m ∈ Module.declared tool.text ∧
          Module.UsedOnlyThrough rules tool x m)) := by
      intro m
      rw [hreports rules rfl, hreports rules' hadds.subclasses_eq,
        Module.not_used_iff_of_addsIgnored hadds]
      tauto
    refine ⟨hends hadds.subclasses_eq, hiff, fun hx m hm => ?_⟩
    rcases ((hiff m).mp hm).2 with hm | ⟨-, -, -, hdynamic, -⟩
    · exact hm
    · exact absurd hdynamic hx

/-! A tool that carries the base class `C`, whose subclass `D` it constructs
under a computed name, and the module `E`, which it does not use. -/

def dynamicSource : Text :=
  utf8 "headers: [NAME]\ndynamic_modules:\n  pt-x: [D]\nbase_class_modules:\n  C: [D]\n"

def dynamicRules : Rules where
  file := { RuleFile.empty with
    headers := [utf8 "NAME"]
    dynamicModules := [(utf8 "pt-x", [utf8 "D"])]
    baseClassModules := [(utf8 "C", [utf8 "D"])] }
  valid := by simp [RuleFile.Valid, RuleFile.empty]

/-- The same rules, and the module is never looked for. -/
def dynamicRulesIgnoring (m : Text) : Rules where
  file := { dynamicRules.file with ignoredModules := [m] }
  valid := dynamicRules.valid

/-- The same rules, and the tool constructs the module under a computed name,
too. -/
def dynamicRulesAdding (m : Text) : Rules where
  file :=
    { dynamicRules.file with dynamicModules := [(utf8 "pt-x", [utf8 "D", m])] }
  valid := dynamicRules.valid

def dynamicTool (text : Text) : Tool where
  name := utf8 "pt-x"
  path := utf8 "bin/pt-x"
  absolutePath := utf8 "/w/bin/pt-x"
  text := text

def dynamicFiles (text : Text) : Files :=
  .ofPaths (utf8 "/w") [(utf8 "bin/pt-x", text)] []

def dynamicText : Text := utf8 "# C package\n# E package\n"

theorem read_dynamicFiles (text : Text) :
    (dynamicFiles text).read (dynamicTool text).path = .ok text :=
  rfl

theorem parse_dynamicSource : Rules.parse dynamicSource = .ok dynamicRules := by
  have hdecode : Rules.decode dynamicSource = .ok dynamicRules.file := by
    decide +kernel
  unfold Rules.parse
  rw [hdecode]
  rfl

theorem encoded_dynamicRules :
    ∀ m, ∀ s ∈ dynamicRules.subclasses m, s.IsEncoded := by
  intro m s
  apply Rules.encoded_of_subclassesEncoded
  simp [Rules.SubclassesEncoded, dynamicRules, Text.isEncoded_utf8]

theorem addsIgnored_dynamicRules (m : Text) :
    dynamicRules.AddsIgnored m (dynamicRulesIgnoring m) :=
  ⟨rfl, fun n => by simp [dynamicRulesIgnoring, dynamicRules, RuleFile.empty]⟩

theorem addsDynamic_dynamicRules (m : Text) :
    dynamicRules.AddsDynamic (utf8 "pt-x") m (dynamicRulesAdding m) := by
  have hget : dynamicRules.file.dynamicModules.get? (utf8 "pt-x") =
      some [utf8 "D"] := rfl
  have hget' : (dynamicRulesAdding m).file.dynamicModules.get? (utf8 "pt-x") =
      some [utf8 "D", m] := rfl
  refine ⟨rfl, fun n => ?_⟩
  rw [hget, hget']
  simp [or_comm]

/-- The base class `C` is reported once its subclass `D` is never looked for,
and `E` is not reported any more, whichever way it is exempted. -/
theorem moduleUsage_exempting_subclass :
    let reports :=
      fun r => ReportsUnused r (Script.empty.programs (dynamicFiles dynamicText))
        (dynamicTool dynamicText)
    reports (dynamicRulesIgnoring (utf8 "D")) (utf8 "C") ∧
    ¬ reports (dynamicRulesIgnoring (utf8 "E")) (utf8 "E") ∧
    (∀ m, reports (dynamicRulesIgnoring (utf8 "E")) m → reports dynamicRules m) ∧
    ¬ reports (dynamicRulesAdding (utf8 "E")) (utf8 "E") := by
  intro reports
  have hfits : dynamicText.length < Decimal.halfModulus := by decide +kernel
  have hexempting :=
    moduleUsage_exempting encoded_dynamicRules Script.leavesSearch_empty
    (read_dynamicFiles dynamicText) hfits
  obtain ⟨-, hsubclass, -⟩ :=
    (hexempting (utf8 "D") _).2 (addsIgnored_dynamicRules (utf8 "D"))
  obtain ⟨-, hother, hfewer⟩ :=
    (hexempting (utf8 "E") _).2 (addsIgnored_dynamicRules (utf8 "E"))
  obtain ⟨-, hdynamic⟩ :=
    (hexempting (utf8 "E") _).1 (addsDynamic_dynamicRules (utf8 "E"))
  refine ⟨(hsubclass (utf8 "C")).mpr ⟨by decide, Or.inr ⟨by decide +kernel, ?_⟩⟩,
    fun h => ((hother _).mp h).1 rfl,
    hfewer (by decide), fun h => ((hdynamic _).mp h).1 rfl⟩
  refine ⟨by decide, List.mem_cons_self, by decide, ?_⟩
  rw [show dynamicRules.subclasses (utf8 "C") = [utf8 "D"] from rfl,
    List.forall_mem_singleton]
  exact ⟨by decide +kernel, fun _ => rfl⟩

/-- So it is not true that exempting a module never makes another module be
reported. -/
theorem moduleUsage_ignoring_adds :
    ¬ ∀ (source : Text) (rules rules' : Rules) (script : Script) (files : Files)
      (tool : Tool) (x m : Text),
      Rules.parse source = .ok rules → script.LeavesSearch →
      files.read tool.path = .ok tool.text →
      tool.text.length < Decimal.halfModulus → rules.AddsIgnored x rules' →
      ReportsUnused rules' (script.programs files) tool m →
      ReportsUnused rules (script.programs files) tool m := by
  intro hmonotone
  have hscript := Script.leavesSearch_empty
  have hfile := read_dynamicFiles dynamicText
  have hfits : dynamicText.length < Decimal.halfModulus := by decide +kernel
  have hadds := addsIgnored_dynamicRules (utf8 "D")
  have hsubclasses := encoded_dynamicRules
  have hafter : utf8 "C" ∈ unused (dynamicRulesIgnoring (utf8 "D"))
      (dynamicTool dynamicText) := by decide +kernel
  have hbefore : utf8 "C" ∉ unused dynamicRules (dynamicTool dynamicText) := by
    decide +kernel
  apply hbefore
  rw [← reportsUnused_iff hsubclasses hscript hfile hfits]
  apply hmonotone _ _ _ _ _ _ _ _ parse_dynamicSource hscript hfile hfits hadds
  rwa [reportsUnused_iff (hadds.subclasses_eq ▸ hsubclasses) hscript hfile hfits]

end Check

end ToolLint
