import ToolLint.Check.Standard
import ToolLint.Program.Script

/-!
# Exceptions are confined to their tools

Rules make exceptions for single tools. Two rule files that say the same in
general, and the same of one tool, may say anything of the others: no check of
this tool can tell them apart. The checks see rules through a few look-ups only,
so it is enough that each look-up gives the same answer for the tool
(`AgreeFor`).
-/

namespace ToolLint

/-- Two rule files say the same in general, and the same of one tool. -/
structure Rules.AgreeFor (tool : Text) (r₁ r₂ : Rules) : Prop where
  options : ∀ o, r₁.file.options.get? o = r₂.file.options.get? o
  headers : r₁.file.headers = r₂.file.headers
  ignoredModules : ∀ m, m ∈ r₁.file.ignoredModules ↔ m ∈ r₂.file.ignoredModules
  nonObjectModules : ∀ m, m ∈ r₁.file.nonObjectModules ↔
    m ∈ r₂.file.nonObjectModules
  baseClassModules : ∀ m, r₁.file.baseClassModules.get? m =
    r₂.file.baseClassModules.get? m
  ignoredOptions : ∀ o, o ∈ r₁.file.ignoredOptions ↔ o ∈ r₂.file.ignoredOptions
  -- What follows is asked of the one tool only. An exception without entries
  -- is as good as none.
  optionExceptions : ∀ o,
    (r₁.file.optionExceptions.get? tool).bind (Table.get? · o) =
    (r₂.file.optionExceptions.get? tool).bind (Table.get? · o)
  headerExceptions : r₁.file.headerExceptions.get? tool =
    r₂.file.headerExceptions.get? tool
  dynamicModules : ∀ m, m ∈ (r₁.file.dynamicModules.get? tool).getD [] ↔
    m ∈ (r₂.file.dynamicModules.get? tool).getD []
  noDsnTools : tool ∈ r₁.file.noDsnTools ↔ tool ∈ r₂.file.noDsnTools

namespace Rules.AgreeFor

variable {tool : Text} {r₁ r₂ : Rules}

theorem option?_eq (h : AgreeFor tool r₁ r₂) (o : Text) :
    r₁.option? tool o = r₂.option? tool o := by
  unfold option?
  rw [h.optionExceptions o, h.options o]

theorem headers_eq (h : AgreeFor tool r₁ r₂) :
    r₁.headers tool = r₂.headers tool := by
  unfold Rules.headers
  rw [h.headerExceptions, h.headers]

theorem policy_eq (h : AgreeFor tool r₁ r₂) (m : Text) :
    r₁.policy tool m = r₂.policy tool m := by
  have hbase :
      r₁.file.baseClassModules.has m = r₂.file.baseClassModules.has m := by
    unfold Table.has
    rw [h.baseClassModules m]
  unfold policy
  simp only [h.ignoredModules m, h.dynamicModules m, h.nonObjectModules m, hbase]

theorem subclasses_eq (h : AgreeFor tool r₁ r₂) (m : Text) :
    r₁.subclasses m = r₂.subclasses m := by
  unfold subclasses
  rw [h.baseClassModules m]

theorem ignoresOption_eq (h : AgreeFor tool r₁ r₂) (o : Text) :
    r₁.ignoresOption o = r₂.ignoresOption o := by
  unfold ignoresOption
  rw [Bool.eq_iff_iff, List.contains_iff_mem, List.contains_iff_mem]
  exact h.ignoredOptions o

theorem requiresDsn_eq (h : AgreeFor tool r₁ r₂) :
    r₁.requiresDsn tool = r₂.requiresDsn tool := by
  have hmember :
      r₁.file.noDsnTools.contains tool = r₂.file.noDsnTools.contains tool := by
    rw [Bool.eq_iff_iff, List.contains_iff_mem, List.contains_iff_mem]
    exact h.noDsnTools
  unfold requiresDsn
  rw [hmember]

end Rules.AgreeFor

namespace Check

variable {tool : Tool} {r₁ r₂ : Rules}

theorem anyConstructed_congr (h : r₁.AgreeFor tool.name r₂) (ms : List Text) :
    anyConstructed r₁ tool ms = anyConstructed r₂ tool ms := by
  induction ms with
  | nil => rfl
  | cons m ms ih =>
      unfold anyConstructed
      rw [h.policy_eq m, ih]

theorem moduleUsed_congr (h : r₁.AgreeFor tool.name r₂) (programs : Programs)
    (m : Text) :
    moduleUsed r₁ programs tool m = moduleUsed r₂ programs tool m := by
  unfold moduleUsed
  rw [h.policy_eq m, h.subclasses_eq m, anyConstructed_congr h]

theorem moduleUsage_congr (h : r₁.AgreeFor tool.name r₂) (programs : Programs) :
    (moduleUsage r₁ programs).run tool = (moduleUsage r₂ programs).run tool := by
  have hlogged :
      moduleUsedLogged r₁ programs tool = moduleUsedLogged r₂ programs tool := by
    funext m
    unfold moduleUsedLogged
    rw [moduleUsed_congr h programs m, h.policy_eq m]
  simp only [moduleUsage, unusedModules, hlogged]

theorem optionTypes_congr (h : r₁.AgreeFor tool.name r₂) (programs : Programs) :
    (optionTypes r₁ programs).run tool = (optionTypes r₂ programs).run tool := by
  have htype : optionType r₁ tool = optionType r₂ tool := by
    funext o
    unfold optionType
    rw [h.option?_eq o.long]
  simp only [optionTypes, htype]

theorem headerOrder_congr (h : r₁.AgreeFor tool.name r₂) (programs : Programs) :
    (headerOrder r₁ programs).run tool = (headerOrder r₂ programs).run tool := by
  simp only [headerOrder, h.headers_eq]

theorem optionUsage_congr (h : r₁.AgreeFor tool.name r₂) (programs : Programs) :
    (optionUsage r₁ programs).run tool = (optionUsage r₂ programs).run tool := by
  have hunread :
      unreadOptions r₁ programs tool = unreadOptions r₂ programs tool := by
    unfold unreadOptions
    simp only [h.ignoresOption_eq]
  simp only [optionUsage, hunread, h.requiresDsn_eq]

/-- **Exceptions are confined to their tools.** Let two rule files agree on what
they say in general and on what they say of a tool. Then every check does the
same with the tool under both, whatever the text of the tool is and whatever the
programs answer: the same calls, log entries and reports, in the same order, and
the same end. -/
theorem standard_confined (tool : Tool) (r₁ r₂ : Rules)
    (h : r₁.AgreeFor tool.name r₂) (programs : Programs) :
    (standard r₁ programs).map (fun c => (c.name, c.run tool)) =
      (standard r₂ programs).map fun c => (c.name, c.run tool) := by
  have hmodule := moduleUsage_congr h programs
  have htypes := optionTypes_congr h programs
  have hheaders := headerOrder_congr h programs
  have husage := optionUsage_congr h programs
  simp only [standard, List.map_cons, List.map_nil, hmodule, htypes, hheaders,
    husage]
  rfl

/-! Rules with an exception of each kind for one tool, seen from another tool. -/

def plainRules : Rules where
  file :=
    { RuleFile.empty with
      headers := [utf8 "NAME"], options := [(utf8 "host", ⟨utf8 "s", utf8 "h"⟩)] }
  valid := RuleFile.fault?_eq_none_iff.mp (by decide)

def exceptionalRules : Rules where
  file := { plainRules.file with
    optionExceptions := [(utf8 "pt-y", [(utf8 "host", ⟨utf8 "i", []⟩)])]
    headerExceptions := [(utf8 "pt-y", [utf8 "USAGE"])]
    dynamicModules := [(utf8 "pt-y", [utf8 "M"])]
    noDsnTools := [utf8 "pt-y"] }
  valid := RuleFile.fault?_eq_none_iff.mp (by decide)

def unexceptionalTool : Tool where
  name := utf8 "pt-x"
  path := utf8 "pt-x"
  absolutePath := utf8 "/w/pt-x"
  text := utf8 "# M package\n=head1 USAGE\n=head1 OPTIONS\n=item --host\n"

theorem standard_confined_other :
    let programs := Script.empty.programs
      (.ofPaths (utf8 "/w") [(unexceptionalTool.path, unexceptionalTool.text)] [])
    exceptionalRules.AgreeFor (utf8 "pt-x") plainRules ∧
    ¬ exceptionalRules.AgreeFor (utf8 "pt-y") plainRules ∧
    (standard exceptionalRules programs).map
      (fun c => (c.name, c.run unexceptionalTool)) =
      (standard plainRules programs).map fun c =>
        (c.name, c.run unexceptionalTool) := by
  intro programs
  have hagree : exceptionalRules.AgreeFor (utf8 "pt-x") plainRules :=
    { options := fun _ => rfl
      headers := rfl
      ignoredModules := fun _ => Iff.rfl
      nonObjectModules := fun _ => Iff.rfl
      baseClassModules := fun _ => rfl
      ignoredOptions := fun _ => Iff.rfl
      optionExceptions := fun _ => rfl
      headerExceptions := rfl
      dynamicModules := fun _ => Iff.rfl
      noDsnTools := by decide }
  have hother : exceptionalRules.file.headerExceptions.get? (utf8 "pt-y") ≠
      plainRules.file.headerExceptions.get? (utf8 "pt-y") := by decide
  exact ⟨hagree, fun h => hother h.headerExceptions,
    standard_confined unexceptionalTool exceptionalRules plainRules
      hagree programs⟩

end Check

end ToolLint
