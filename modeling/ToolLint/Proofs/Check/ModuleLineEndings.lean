import ToolLint.Proofs.Check.Exemptions
import ToolLint.Proofs.Construction
import ToolLint.Proofs.Package

/-!
# The check of modules and line ends

Constructions of a module and references to it are found again in a text that
ends its lines with a carriage return and a line feed: there a carriage return
is one more gap, or it comes after the name. Announcements are not, because only
spaces and tabs may follow the last word of an announcement. All that is left is
the last line, which has no end, so the check keeps silent about every module
that is announced before it (`moduleUsage_crlf`).
-/

namespace ToolLint

open Text (crlf crlf_cons_lf crlf_cons_of_ne)

namespace Module

/-! ## Constructions -/

theorem opensCall_crlf (s : Text) : opensCall (crlf s) = opensCall s := by
  induction s with
  | nil => rfl
  | cons b s ih =>
      unfold opensCall at ih ⊢
      by_cases hb : b = lf
      · subst hb
        rw [crlf_cons_lf, List.dropWhile_cons_of_pos rfl,
          List.dropWhile_cons_of_pos rfl, List.dropWhile_cons_of_pos rfl]
        exact ih
      · rw [crlf_cons_of_ne hb]
        by_cases hgap : isGap b = true
        · rw [List.dropWhile_cons_of_pos hgap, List.dropWhile_cons_of_pos hgap]
          exact ih
        · rw [List.dropWhile_cons_of_neg hgap, List.dropWhile_cons_of_neg hgap]

/-- What comes after a gap is found after the same gap, if nothing can be found
at the line feed alone. -/
theorem afterSome_isGap_crlf {k : Text → Bool} (hk : ∀ s, k (crlf s) = k s)
    (hlf : ∀ s : Text, k (lf :: s) = true → k s = true) (s : Text) :
    Text.afterSome isGap k (crlf s) = Text.afterSome isGap k s := by
  induction s with
  | nil => rfl
  | cons b s ih =>
      by_cases hb : b = lf
      · subst hb
        have hgaps : isGap cr = true ∧ isGap lf = true := ⟨rfl, rfl⟩
        have habsorb : (k (lf :: crlf s) || k s) = k s :=
          Bool.or_eq_right_iff_imp.mpr fun h => hk s ▸ hlf _ h
        rw [crlf_cons_lf, Text.afterSome, Text.afterSome, Text.afterSome, hgaps.1,
          hgaps.2, Bool.true_and, Bool.true_and, Bool.true_and, hk, ih,
          ← Bool.or_assoc, habsorb]
      · rw [crlf_cons_of_ne hb, Text.afterSome, Text.afterSome, hk, ih]

section Characters

variable {name : List Char} (hlf : byteChar lf ∉ name) (hcr : byteChar cr ∉ name)
include hlf

/-- No name begins at a line feed. -/
theorem afterChars?_lf (s : Text) :
    name = [] ∨ Text.afterChars? name (lf :: s) = none := by
  cases name with
  | nil => exact Or.inl rfl
  | cons c cs =>
      rw [List.mem_cons, not_or] at hlf
      have hc : ¬ ((Piece.char (byteChar lf)).toChar == c) = true :=
        fun h => hlf.1 (beq_iff_eq.mp h)
      right
      rw [Text.afterChars?, Text.next?_one (by decide)]
      simp only [if_neg hc]

include hcr

theorem beginsNew_crlf (s : Text) :
    beginsNew name (crlf s) = beginsNew name s := by
  unfold beginsNew
  rw [Text.after?_crlf (by decide) (by decide)]
  cases Text.after? (utf8 "new") s with
  | none => rfl
  | some r =>
      apply afterSome_isGap_crlf
      · intro t
        rw [Text.afterChars?_crlf hlf hcr]
        cases t.afterChars? name with
        | none => rfl
        | some v => exact opensCall_crlf v
      · intro t h
        rcases afterChars?_lf hlf t with rfl | hnone
        · exact h
        · rw [hnone] at h
          cases h

theorem beginsArrow_crlf (s : Text) :
    beginsArrow name (crlf s) = beginsArrow name s := by
  unfold beginsArrow
  rw [Text.afterChars?_crlf hlf hcr]
  cases s.afterChars? name with
  | none => rfl
  | some v =>
      simp only [Option.map_some, Option.bind_some,
        Text.after?_crlf (show lf ∉ utf8 "->new" by decide)
          (show cr ∉ utf8 "->new" by decide)]
      cases Text.after? (utf8 "->new") v with
      | none => rfl
      | some r =>
          cases r with
          | nil => rfl
          | cons b r =>
              by_cases hb : b = lf
              · subst hb
                rfl
              · rw [Option.map_some, crlf_cons_of_ne hb]

omit hcr in
/-- No construction begins at a line feed. -/
theorem beginsConstruction_lf (before : Option Char) (s : Text) :
    beginsConstruction name before (lf :: s) = false := by
  have hnew : beginsNew name (lf :: s) = false := rfl
  have harrow : beginsArrow name (lf :: s) = false := by
    unfold beginsArrow
    rcases afterChars?_lf hlf s with rfl | hnone
    · rfl
    · rw [hnone]
      rfl
  simp only [beginsConstruction, hnew, harrow, Bool.and_false, Bool.or_false]

theorem constructedFrom_crlf (before : Option Char) (s : Text) :
    constructedFrom name before (crlf s) = constructedFrom name before s := by
  have hhere : ∀ before s, beginsConstruction name before (crlf s) =
      beginsConstruction name before s := by
    intro before s
    simp only [beginsConstruction, beginsNew_crlf hlf hcr,
      beginsArrow_crlf hlf hcr]
  cases s with
  | nil => rfl
  | cons b s =>
      have hstep := hhere before (b :: s)
      by_cases hb : b = lf
      · -- One step in the text is two in its copy, and the second does not
        -- find anything.
        subst hb
        have hnext : ∀ t : Text,
            Text.next? (lf :: t) = some (.char (byteChar lf), t) :=
          Text.next?_one (show IsAscii lf by decide)
        have hnext' : Text.next? (cr :: lf :: crlf s) =
            some (.char (byteChar cr), lf :: crlf s) :=
          Text.next?_one (show IsAscii cr by decide) _
        rw [crlf_cons_lf] at hstep ⊢
        rw [constructedFrom_of_next? hnext',
          constructedFrom_of_next? (hnext (crlf s)),
          constructedFrom_of_next? (hnext s), hstep, constructedFrom_crlf,
          beginsConstruction_lf hlf _ (crlf s), Bool.false_or]
      · obtain ⟨p, r, hp⟩ := Text.exists_next? b s
        rw [constructedFrom_of_next? (Text.next?_crlf hb hp),
          constructedFrom_of_next? hp, hstep, constructedFrom_crlf]
termination_by s.length
decreasing_by
  · exact Nat.lt_succ_self _
  · exact Text.length_lt_of_next? hp

end Characters

theorem constructed_crlf {name : Text} (hlf : lf ∉ name) (hcr : cr ∉ name)
    (text : Text) : constructed (crlf text) name = constructed text name :=
  constructedFrom_crlf (Text.byteChar_notMem_chars (by decide) hlf)
    (Text.byteChar_notMem_chars (by decide) hcr) none text

/-! ## References -/

theorem mentions_dropCr_iff {m line : Text} :
    Mentions m line.dropCr ↔ Mentions m line := by
  have hpart : ∀ line : Text, Mentions m line ↔ m ++ utf8 "::" <:+: line :=
    fun line => exists₂_congr fun u v => eq_comm
  have hlast : (m ++ utf8 "::").getLast? ≠ some cr := by
    rw [List.getLast?_append_of_ne_nil m (show utf8 "::" ≠ [] by decide)]
    decide
  rw [hpart, hpart, Text.infix_dropCr_iff hlast]

/-- A carriage return ends the name, as the end of the line does. -/
theorem imports_append_cr_iff {m line : Text} (hm : cr ∉ m) :
    Imports m (line ++ [cr]) ↔ Imports m line := by
  constructor
  · rintro ⟨margin, v, hline, hmargin, hv⟩
    rcases List.eq_nil_or_concat v with rfl | ⟨v, b, rfl⟩
    · -- The last byte would be one of the name.
      have hlast : cr ∈ utf8 "use " ++ m := by
        rw [List.append_nil] at hline
        have hgetLast := congrArg List.getLast? hline
        rw [List.getLast?_concat,
          List.getLast?_append_of_ne_nil margin (by simp [utf8, encodeChar])]
          at hgetLast
        exact List.mem_of_getLast? hgetLast.symm
      rcases List.mem_append.mp hlast with h | h
      · exact absurd h (by decide)
      · exact absurd h hm
    · rw [List.concat_eq_append, ← List.append_assoc] at hline
      obtain ⟨rfl, -⟩ := List.append_singleton_inj.mp hline
      refine ⟨margin, v, rfl, hmargin, fun c hc => hv c ?_⟩
      rw [List.concat_eq_append, List.head?_append, Option.mem_def.mp hc]
      rfl
  · rintro ⟨margin, v, rfl, hmargin, hv⟩
    refine ⟨margin, v ++ [cr], by rw [List.append_assoc], hmargin, ?_⟩
    cases v with
    | nil =>
        rintro b ⟨rfl⟩
        rfl
    | cons c v => exact hv

theorem refers_dropCr_iff {m : Text} (hm : cr ∉ m) {line : Text} :
    Refers m line.dropCr ↔ Refers m line := by
  unfold Refers
  rw [mentions_dropCr_iff]
  rcases Text.eq_or_eq_append_cr line with h | h
  · rw [← h]
  · generalize line.dropCr = d at h ⊢
    subst h
    rw [imports_append_cr_iff hm]

theorem exists_refers_crlf {m text : Text} (hm : cr ∉ m) (hcr : cr ∉ text) :
    (∃ line ∈ (crlf text).lines, Refers m line) ↔ ∃ line ∈ text.lines,
      Refers m line := by
  rw [← Text.lines_crlf hcr]
  simp only [List.mem_map, exists_exists_and_eq_and, refers_dropCr_iff hm]

/-! ## Announcements -/

theorem announced?_append_cr (line : Text) :
    announced? (line ++ [cr]) = none := by
  rw [Option.eq_none_iff_forall_ne_some]
  intro name h
  exact notMem_of_announces (Or.inr rfl) (announced?_eq_some_iff.mp h) (by simp)

def announcedLast? (text : Text) : Option Text :=
  text.lines.getLast?.bind announced?

theorem mem_declared_of_announcedLast? {text m : Text}
    (h : announcedLast? text = some m) : m ∈ declared text := by
  obtain ⟨line, hline, hm⟩ := Option.bind_eq_some_iff.mp h
  rw [declared_eq, List.mem_eraseDups, List.mem_filterMap]
  exact ⟨line, List.mem_of_getLast? hline, hm⟩

/-- Only the last line has no carriage return at its end. -/
theorem declared_crlf (text : Text) :
    declared (crlf text) = (announcedLast? text).toList := by
  have hothers : (text.lines.dropLast.map (· ++ [cr])).filterMap announced? =
      [] := by
    rw [List.filterMap_eq_nil_iff, List.forall_mem_map]
    exact fun line _ => announced?_append_cr line
  rw [declared_eq, Text.lines_crlf_eq, List.filterMap_append, hothers,
    List.nil_append, announcedLast?]
  cases text.lines.getLast? with
  | none => rfl
  | some line =>
      rw [Option.toList_some, Option.bind_some, List.filterMap_cons,
        List.filterMap_nil]
      cases announced? line <;> rfl

/-- What is used in a text is used in its copy. -/
theorem used_crlf {rules : Rules} {tool : Tool} {m : Text}
    (hcr : cr ∉ tool.text) (hm : isName m = true)
    (hsubclasses : ∀ s ∈ rules.subclasses m, lf ∉ s ∧ cr ∉ s) :
    Used rules { tool with text := crlf tool.text } m ↔ Used rules tool m := by
  have hbytes : lf ∉ m ∧ cr ∉ m :=
    ⟨notMem_of_isNameByte rfl (isNameByte_of_isName hm),
      notMem_of_isNameByte rfl (isNameByte_of_isName hm)⟩
  rw [used_iff, used_iff]
  cases rules.policy tool.name m with
  | ignored => exact Iff.rfl
  | dynamic => exact Iff.rfl
  | notObject => exact exists_refers_crlf hbytes.2 hcr
  | baseClass =>
      apply exists_congr
      intro s
      apply and_congr_right
      intro hs
      rw [constructed_crlf (hsubclasses s hs).1 (hsubclasses s hs).2]
  | constructed =>
      simp only
      rw [constructed_crlf hbytes.1 hbytes.2]

end Module

namespace Check

/-! ## The report -/

variable {rules : Rules} {script : Script} {files files' : Files} {tool : Tool}

/-- A list of all members that are equal to one of them. -/
theorem filter_eq_toList {ms : List Text} (hnodup : ms.Nodup) {o : Option Text}
    (ho : ∀ m, o = some m → m ∈ ms) :
    (ms.filter fun m => o = some m) = o.toList := by
  cases o with
  | none => simp
  | some a =>
      have hiff : ∀ m ∈ ms, decide (some a = some m) = decide (m = a) :=
        fun m _ => decide_eq_decide.mpr (Option.some_inj.trans eq_comm)
      rw [List.filter_congr hiff, List.filter_eq,
        List.count_eq_one_of_mem hnodup (ho a rfl)]
      rfl

theorem unused_crlf (hcr : cr ∉ tool.text)
    (hlines : ∀ m ∈ Module.declared tool.text, ∀ s ∈ rules.subclasses m,
      lf ∉ s ∧ cr ∉ s) :
    unused rules { tool with text := crlf tool.text } =
      (unused rules tool).filter fun m => Module.announcedLast? tool.text =
        some m := by
  have hlast :
      ((Module.declared tool.text).filter fun m =>
        Module.announcedLast? tool.text = some m) =
      (Module.announcedLast? tool.text).toList :=
    filter_eq_toList (Pod.nodup_eraseDups _) fun m =>
      Module.mem_declared_of_announcedLast?
  unfold unused
  rw [Module.declared_crlf, ← hlast, List.filter_comm]
  congr 1
  apply List.filter_congr
  intro m hm
  rw [decide_eq_decide, not_iff_not]
  exact Module.used_crlf hcr (Module.isName_of_mem_declared hm) (hlines m hm)

/-- A list has a line for its heading and one for each of its items. -/
theorem count_lf_render {heading : Text} {ms : List Text}
    (hms : ∀ m ∈ ms, lf ∉ m) :
    (Report.render (if ms = [] then [] else [.list heading ms])).count lf =
      if ms = [] then 0 else heading.count lf + 1 + ms.length := by
  have hitems : (ms.flatMap fun m => tab :: (m ++ [lf])).count lf =
      ms.length := by
    induction ms with
    | nil => rfl
    | cons m ms ih =>
        obtain ⟨hm, hrest⟩ := List.forall_mem_cons.mp hms
        rw [List.flatMap_cons, List.count_append, ih hrest,
          List.count_cons_of_ne (by decide), List.count_append,
          List.count_eq_zero.mpr hm, List.count_singleton_self, List.length_cons]
        omega
  by_cases hnil : ms = []
  · rw [if_pos hnil, if_pos hnil]
    rfl
  · rw [if_neg hnil, if_neg hnil]
    simp only [Report.render, Report.Entry.render, List.flatMap_cons,
      List.flatMap_nil, List.append_nil, List.count_append,
      List.count_singleton_self, hitems]

/-- The number of modules that are reported can be read off the report. -/
theorem length_eq_of_render_eq {heading : Text} {ms ms' : List Text}
    (hms : ∀ m ∈ ms, lf ∉ m) (hms' : ∀ m ∈ ms', lf ∉ m)
    (h : Report.render (if ms = [] then [] else [.list heading ms]) =
      Report.render (if ms' = [] then [] else [.list heading ms'])) :
    ms.length = ms'.length := by
  have hcounts := congrArg (List.count lf) h
  rw [count_lf_render hms, count_lf_render hms'] at hcounts
  cases ms with
  | nil => cases ms' with
    | nil => rfl
    | cons m' ms' => simp at hcounts
  | cons m ms => cases ms' with
    | nil => simp at hcounts
    | cons m' ms' => simpa using hcounts

/-- **The check of modules and line ends.** Let a text have no carriage returns,
and let the search program see its copy that has one before every line feed. A
base class is used through modules that are named in UTF-8, and one of the text
through modules whose names lie on one line. Then the check comes to its end,
and it finds the same modules used. But the copy declares only the module that
the last line announces, so this module is the only one that can be reported,
and the reports are the same if and only if the check of the text reports no
other module. -/
theorem moduleUsage_crlf
    (hsubclasses : ∀ m, ∀ s ∈ rules.subclasses m, s.IsEncoded)
    (hscript : script.LeavesSearch) (hcr : cr ∉ tool.text)
    (hfile : files.read tool.path = .ok tool.text)
    (hfile' : files'.read tool.path = .ok (crlf tool.text))
    (hfits : (crlf tool.text).length < Decimal.halfModulus)
    (hlines : ∀ m ∈ Module.declared tool.text, ∀ s ∈ rules.subclasses m,
      lf ∉ s ∧ cr ∉ s) :
    let copy : Tool := { tool with text := crlf tool.text }
    let activity := (moduleUsage rules (script.programs files)).run tool
    let activity' := (moduleUsage rules (script.programs files')).run copy
    activity'.result = .ok () ∧
    Module.declared copy.text = (Module.announcedLast? tool.text).toList ∧
    (∀ m ∈ Module.declared tool.text, Module.Used rules copy m ↔
      Module.Used rules tool m) ∧
    (∀ m, ReportsUnused rules (script.programs files') copy m ↔
      ReportsUnused rules (script.programs files) tool m ∧
      Module.announcedLast? tool.text = some m) ∧
    (Event.reportText activity'.events = Event.reportText activity.events ↔
      ∀ m, ReportsUnused rules (script.programs files) tool m →
        Module.announcedLast? tool.text = some m) := by
  intro copy activity activity'
  have hfits₀ : tool.text.length < Decimal.halfModulus :=
    Nat.lt_of_le_of_lt (Text.length_le_length_crlf tool.text) hfits
  obtain ⟨-, hreports⟩ := reports_moduleUsage hsubclasses hscript hfile hfits₀
  have hcopy : files'.read copy.path = .ok copy.text := hfile'
  obtain ⟨hends, hreports'⟩ := reports_moduleUsage hsubclasses hscript hcopy hfits
  have hunused : unused rules copy = (unused rules tool).filter fun m =>
      Module.announcedLast? tool.text = some m :=
    unused_crlf hcr hlines
  have hname : ∀ m ∈ unused rules tool, lf ∉ m := by
    intro m hm
    have hdeclared := (mem_unused_iff.mp hm).1
    exact Module.notMem_of_isNameByte rfl
      (Module.isNameByte_of_isName (Module.isName_of_mem_declared hdeclared))
  refine ⟨hends, Module.declared_crlf tool.text,
    fun m hm => Module.used_crlf hcr (Module.isName_of_mem_declared hm)
      (hlines m hm), fun m => ?_, ?_⟩
  · rw [reportsUnused_iff hsubclasses hscript hcopy hfits,
      reportsUnused_iff hsubclasses hscript hfile hfits₀, hunused,
      List.mem_filter, decide_eq_true_eq]
  · simp only [reportsUnused_iff hsubclasses hscript hfile hfits₀]
    rw [Event.reportText, Event.reportText, hreports, hreports', moduleEntries,
      moduleEntries, hunused]
    constructor
    · intro h m hm
      have hlength :=
        length_eq_of_render_eq
          (fun m hm => hname m (List.mem_of_mem_filter hm)) hname h
      exact of_decide_eq_true (List.length_filter_eq_length_iff.mp hlength m hm)
    · intro h
      rw [List.filter_eq_self.mpr fun m hm => decide_eq_true (h m hm)]

/-- The module that is not used is announced at the end of the text. -/
theorem moduleUsage_crlf_end :
    let text := utf8 "# C package\n# F package\nnew\nF\n(1);\n# E package"
    let activity :=
      (moduleUsage dynamicRules (Script.empty.programs (dynamicFiles text))).run
        (dynamicTool text)
    let activity' :=
      (moduleUsage dynamicRules
        (Script.empty.programs (dynamicFiles (crlf text)))).run
      (dynamicTool (crlf text))
    cr ∉ text ∧ Event.reportText activity'.events =
      Event.reportText activity.events ∧
    ReportsUnused dynamicRules (Script.empty.programs (dynamicFiles (crlf text)))
      (dynamicTool (crlf text)) (utf8 "E") := by
  intro text activity activity'
  have hscript := Script.leavesSearch_empty
  have hcr : cr ∉ text := by decide
  have hfile := read_dynamicFiles text
  have hfits : (crlf text).length < Decimal.halfModulus := by decide +kernel
  have hlines : ∀ m ∈ Module.declared text, ∀ s ∈ dynamicRules.subclasses m,
      lf ∉ s ∧ cr ∉ s := by decide +kernel
  have hunused : unused dynamicRules (dynamicTool text) = [utf8 "E"] := by
    decide +kernel
  have hreports : ∀ m, ReportsUnused dynamicRules
      (Script.empty.programs (dynamicFiles text)) (dynamicTool text) m ↔
      m = utf8 "E" := by
    intro m
    rw [reportsUnused_iff encoded_dynamicRules hscript hfile
      (Nat.lt_of_le_of_lt (Text.length_le_length_crlf text) hfits), hunused,
        List.mem_singleton]
  have hlast : Module.announcedLast? text = some (utf8 "E") := by decide +kernel
  obtain ⟨-, -, -, hreports', hsame⟩ :=
    moduleUsage_crlf encoded_dynamicRules hscript hcr hfile
      (read_dynamicFiles (crlf text)) hfits hlines
  refine ⟨hcr, hsame.mpr fun m hm => ?_,
    (hreports' (utf8 "E")).mpr ⟨(hreports _).mpr rfl, hlast⟩⟩
  rw [(hreports m).mp hm]
  exact hlast

/-- A module that is announced on a line with an end is not reported any more. -/
theorem moduleUsage_crlf_silent :
    ¬ ∀ (source : Text) (rules : Rules) (script : Script) (files files' : Files)
      (tool : Tool),
      Rules.parse source = .ok rules → script.LeavesSearch → cr ∉ tool.text →
      files.read tool.path = .ok tool.text →
      files'.read tool.path = .ok (crlf tool.text) →
      (crlf tool.text).length < Decimal.halfModulus →
      (∀ m ∈ Module.declared tool.text, ∀ s ∈ rules.subclasses m,
        lf ∉ s ∧ cr ∉ s) →
      Event.reportText
        ((moduleUsage rules (script.programs files')).run { tool with
          text := crlf tool.text }).events =
        Event.reportText
          ((moduleUsage rules (script.programs files)).run tool).events := by
  intro hsame
  let text := dynamicText
  have hscript := Script.leavesSearch_empty
  have hsubclasses := encoded_dynamicRules
  have hfits : text.length < Decimal.halfModulus := by decide +kernel
  have hfits' : (crlf text).length < Decimal.halfModulus := by decide +kernel
  have hunused : unused dynamicRules (dynamicTool text) = [utf8 "E"] := by
    decide +kernel
  have hunused' : unused dynamicRules (dynamicTool (crlf text)) = [] := by
    decide +kernel
  obtain ⟨-, hreports⟩ :=
    reports_moduleUsage hsubclasses hscript (read_dynamicFiles text) hfits
  obtain ⟨-, hreports'⟩ :=
    reports_moduleUsage hsubclasses hscript (read_dynamicFiles (crlf text)) hfits'
  rw [moduleEntries, hunused] at hreports
  rw [moduleEntries, hunused'] at hreports'
  have hnil : Report.render [] = Report.render
      [.list (utf8 "pt-x" ++ utf8 " has unused modules:") [utf8 "E"]] := by
    calc
      _ = Event.reportText _ := congrArg Report.render hreports'.symm
      _ = Event.reportText _ := hsame dynamicSource dynamicRules Script.empty
        (dynamicFiles text) (dynamicFiles (crlf text))
        (dynamicTool text) parse_dynamicSource hscript (by decide)
          (read_dynamicFiles text) (read_dynamicFiles (crlf text))
        hfits' (by decide +kernel)
      _ = _ := congrArg Report.render hreports
  revert hnil
  decide

end Check

end ToolLint
