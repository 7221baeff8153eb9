import ToolLint.Check.Standard
import ToolLint.Program.Script
import ToolLint.Proofs.Check.OptionOrder
import ToolLint.Proofs.Session

/-!
# Checks that fail report nothing

A check first finds out all it wants to know, which can fail at any point, and
then reports, which cannot fail. So a check that comes to no end has reported
nothing, however much it had found out by then. One check goes on to a second
matter after its report; there the same is true of all failures of the first
part.

The programs that a check asks may print and log what they like, but they have
no access to the report (`Programs.Quiet`).
-/

namespace ToolLint

/-! ## Programs -/

/-- The programs leave the report alone. -/
def Programs.Quiet (programs : Programs) : Prop :=
  ∀ name args, (programs.run name args).Quiet

/-- Whatever a script answers, nothing but the call is seen of a scripted
program. -/
theorem Script.quiet_programs (script : Script) (files : Files) :
    (script.programs files).Quiet :=
  fun _ _ => rfl

namespace Search

variable {programs : Programs} (hprograms : programs.Quiet) (pattern path : Text)

include hprograms

theorem quiet_run (flags : List Text) :
    (run programs flags pattern path).Quiet := by
  refine (hprograms _ _).andThen fun o => ?_
  split
  · exact Activity.quiet_fail _
  · exact Activity.quiet_done _

theorem quiet_count : (count programs pattern path).Quiet :=
  (quiet_run hprograms pattern path _).andThen fun _ => Activity.quiet_ofExcept _

theorem quiet_allLines : (allLines programs pattern path).Quiet := by
  have hlines : (lines programs pattern path).Quiet :=
    (quiet_run hprograms pattern path _).andThen fun _ => Activity.quiet_done _
  refine hlines.andThen fun d => ?_
  split
  · exact Activity.quiet_fail _
  · exact Activity.quiet_done _

end Search

namespace Check

open Activity (Quiet Ends AllOrNothing)

/-! ## Reports come to their end -/

theorem ends_list (heading : Text) (items : List Text) :
    (list heading items).Ends :=
  (Activity.ends_done ()).ite (Activity.ends_report _)

theorem ends_compare (heading : Text) (rows : List Row) :
    (compare heading rows).Ends :=
  (Activity.ends_done ()).ite (Activity.ends_report _)

theorem ends_headerEnd (tool : Tool) (name : Text) : (headerEnd tool name).Ends :=
  (Activity.ends_done ()).ite (Activity.ends_report _)

theorem ends_optionType (rules : Rules) (tool : Tool) (o : HelpOption) :
    (optionType rules tool o).Ends := by
  unfold optionType
  split
  · exact Activity.ends_done ()
  · -- Either of the two sentences may be there or not.
    apply Ends.ite
    · exact Ends.andThen (Activity.ends_report _) fun _ =>
        (Activity.ends_report _).ite (Activity.ends_done ())
    · exact (Activity.ends_report _).ite (Activity.ends_done ())

/-! ## Finding out is quiet -/

section Inquiries

variable {programs : Programs} (hprograms : programs.Quiet) (rules : Rules)
  (tool : Tool)

theorem quiet_constructed (m : Text) : (constructed tool m).Quiet :=
  (Activity.quiet_panicIf _).andThen fun _ => Activity.quiet_done _

theorem quiet_anyConstructed (ms : List Text) :
    (anyConstructed rules tool ms).Quiet := by
  induction ms with
  | nil => exact Activity.quiet_done false
  | cons m ms ih =>
      unfold anyConstructed
      split
      · exact Activity.quiet_done true
      · refine (quiet_constructed tool m).andThen fun found => ?_
        split
        · exact Activity.quiet_done true
        · exact ih

include hprograms

theorem quiet_occurrences (path : Text) (patterns : List Text) :
    (occurrences programs path patterns).Quiet :=
  (Activity.quiet_each fun pattern _ =>
    Search.quiet_count hprograms pattern path).andThen
    fun _ => Activity.quiet_done _

theorem quiet_moduleUsed (m : Text) :
    (moduleUsed rules programs tool m).Quiet := by
  unfold moduleUsed
  cases rules.policy tool.name m with
  | ignored => exact Activity.quiet_done true
  | dynamic => exact Activity.quiet_done true
  | notObject =>
      exact ((quiet_occurrences hprograms _ _).during _).andThen fun _ =>
        Activity.quiet_done _
  | baseClass => exact quiet_anyConstructed rules tool _
  | constructed => exact quiet_constructed tool m

theorem quiet_unusedModules : (unusedModules rules programs tool).Quiet := by
  refine Quiet.andThen (Activity.quiet_each fun m _ => ?_) fun _ =>
    Activity.quiet_done _
  refine (quiet_moduleUsed hprograms rules tool m).andThen fun used => ?_
  exact (Activity.quiet_log _).andThen fun _ => Activity.quiet_done used

theorem quiet_unreadOptions : (unreadOptions rules programs tool).Quiet := by
  refine Quiet.andThen (Activity.quiet_each fun o _ => ?_) fun _ =>
    Activity.quiet_done _
  exact ((quiet_occurrences hprograms _ _).during _).andThen fun _ =>
    Activity.quiet_done _

end Inquiries

/-! ## The checks -/

theorem allOrNothing_optionOrder (tool : Tool) :
    (optionOrder.run tool).AllOrNothing := by
  cases h : Pod.find? (Pod.sections (Pod.commands tool.text)) (utf8 "OPTIONS")
    with
  | none =>
      rw [optionOrder_of_not_find h]
      exact (Activity.quiet_fail _).allOrNothing
  | some s =>
      rw [optionOrder_of_find h]
      exact Ends.allOrNothing ⟨(), rfl⟩

section Checks

variable {programs : Programs} (hprograms : programs.Quiet) (rules : Rules)
  (tool : Tool)

include hprograms

theorem allOrNothing_moduleUsage :
    ((moduleUsage rules programs).run tool).AllOrNothing :=
  (quiet_unusedModules hprograms rules tool).andThen_allOrNothing fun _ =>
    (ends_list _ _).allOrNothing

theorem allOrNothing_optionTypes :
    ((optionTypes rules programs).run tool).AllOrNothing := by
  apply ((hprograms _ _).during _).andThen_allOrNothing
  intro outcome
  apply (Activity.quiet_ofExcept _).andThen_allOrNothing
  intro options
  have heach := Activity.ends_each (ends_optionType rules tool) options
  exact (heach.andThen fun _ => Activity.ends_done _).allOrNothing

theorem allOrNothing_headerOrder :
    ((headerOrder rules programs).run tool).AllOrNothing := by
  apply ((Search.quiet_allLines hprograms _ _).during _).andThen_allOrNothing
  intro lines
  have heach := Activity.ends_each (ends_headerEnd tool) (lines.map headerName)
  exact (heach.andThen fun _ => ends_compare _ _).allOrNothing

end Checks

/-! ## The check that goes on after its report -/

theorem errorsIn_unreadOptions (rules : Rules) (programs : Programs)
    (tool : Tool) :
    (unreadOptions rules programs tool).ErrorsIn fun e => ∃ option cause,
      e = .optionSearch option cause := by
  refine Activity.ErrorsIn.andThen (Activity.errorsIn_each (fun o => ?_) _)
    fun _ => (Activity.ends_done _).errorsIn
  refine Activity.ErrorsIn.andThen (fun e he => ?_) fun _ =>
    (Activity.ends_done _).errorsIn
  obtain ⟨cause, rfl⟩ := Activity.errorsIn_during _ _ e he
  exact ⟨o, cause, rfl⟩

theorem errorsIn_dsnParsing (tool : Tool) :
    (dsnParsing tool).ErrorsIn fun e => e = .noMainPackage tool.package := by
  apply Activity.ErrorsIn.andThen
  · intro e he
    unfold Activity.panicIf at he
    split at he <;> cases he
  · intro _ e he
    split at he
    · cases he
      rfl
    · split at he <;> cases he

/-- What follows the search for reads fails for one reason only. -/
theorem errorsIn_afterSearch (rules : Rules) (tool : Tool) (unread : List Text) :
    ((list (tool.name ++ utf8 " has unused options:")
      (unread.map fun o => utf8 "--" ++ o)).andThen fun _ =>
      if rules.requiresDsn tool.name then dsnParsing tool else .done ()).ErrorsIn
        fun e => e = .noMainPackage tool.package := by
  refine Activity.ErrorsIn.andThen (ends_list _ _).errorsIn fun _ => ?_
  split
  · exact errorsIn_dsnParsing tool
  · exact (Activity.ends_done _).errorsIn

theorem quiet_optionUsage_of_search {programs : Programs}
    (hprograms : programs.Quiet) (rules : Rules) (tool : Tool) {option : Text}
    {cause : Error}
    (h : ((optionUsage rules programs).run tool).result =
      .error (.error (.optionSearch option cause))) :
    ((optionUsage rules programs).run tool).Quiet := by
  have hrest := errorsIn_afterSearch rules tool
  rcases Activity.andThen_cases (unreadOptions rules programs tool) _
    with ⟨e, -, heq⟩ | ⟨unread, -, heq⟩
  · rw [show (optionUsage rules programs).run tool = _ from heq]
    exact quiet_unreadOptions hprograms rules tool
  · -- The searches are over, and no later failure looks like one of a search.
    rw [show (optionUsage rules programs).run tool = _ from heq] at h
    cases hrest unread _ h

theorem errorsIn_optionUsage (rules : Rules) (programs : Programs) (tool : Tool) :
    ((optionUsage rules programs).run tool).ErrorsIn fun e =>
      (∃ option cause, e = .optionSearch option cause) ∨
      e = .noMainPackage tool.package := by
  have hsearch := errorsIn_unreadOptions rules programs tool
  have hrest := errorsIn_afterSearch rules tool
  exact Activity.ErrorsIn.andThen (fun e he => Or.inl (hsearch e he))
    fun unread e he => Or.inr (hrest unread e he)

/-! ## The reporter -/

/-- The check leaves the reporter as it is, whatever state it is in: nothing is
written, and the flag keeps its value. -/
def LeavesReporter (tool : Tool) (c : Check) : Prop :=
  ∀ s : Session.InFile,
    (s.check tool c).session.stdout = s.session.stdout ∧
    (s.check tool c).reported = s.reported

theorem leavesReporter_of_quiet {tool : Tool} {c : Check}
    (h : (c.run tool).Quiet) : c.LeavesReporter tool := by
  have hstdout : Output.stdout (Inspection.ofCheck tool c).output = [] := by
    have hevents :
        Output.stdout
          ((Event.log (Inspection.beginning tool c) :: (c.run tool).events).map
            .event) =
        [] := by
      rw [Output.stdout_events, Event.reportText, Report.render_eq_nil_iff]
      exact h
    have hresult :
        Output.stdout (Inspection.ofResult tool c (c.run tool).result).output =
          [] := by
      cases (c.run tool).result <;> rfl
    rw [Inspection.ofCheck, Inspection.output_append, Output.stdout_append,
      hresult, List.append_nil]
    exact hevents
  have hreported : (Inspection.ofEvents (c.run tool).events).failed = false := by
    rw [← Bool.not_eq_true, Inspection.ofEvents_failed_iff, not_not]
    exact h
  intro s
  rw [Session.InFile.check_eq]
  constructor
  · show s.session.stdout ++ Output.stdout _ = _
    rw [hstdout, List.append_nil]
  · show (s.reported || _) = _
    rw [hreported, Bool.or_false]

/-- **Checks are all or nothing.** Whatever the programs answer:

* if one of the first four checks ends with an error, or with a panic, it leaves
  the reporter as it was;
* so does the last one if it ends with an error that comes from a search;
* the only other error of that one is that the main package cannot be found. -/
theorem failure_leaves_reporter (rules : Rules) (programs : Programs)
    (tool : Tool) (hprograms : programs.Quiet) :
    (∀ c ∈ [optionOrder, moduleUsage rules programs, optionTypes rules programs,
      headerOrder rules programs],
      ∀ fault, (c.run tool).result = .error fault → c.LeavesReporter tool) ∧
    (∀ option cause,
      ((optionUsage rules programs).run tool).result =
        .error (.error (.optionSearch option cause)) →
      (optionUsage rules programs).LeavesReporter tool) ∧
    (∀ e, ((optionUsage rules programs).run tool).result = .error (.error e) →
      (∃ option cause, e = .optionSearch option cause) ∨
      e = .noMainPackage tool.package) := by
  refine ⟨?_, ?_, errorsIn_optionUsage rules programs tool⟩
  · intro c hc fault hfault
    have hrun : (c.run tool).AllOrNothing := by
      simp only [List.mem_cons, List.not_mem_nil, or_false] at hc
      rcases hc with rfl | rfl | rfl | rfl
      · exact allOrNothing_optionOrder tool
      · exact allOrNothing_moduleUsage hprograms rules tool
      · exact allOrNothing_optionTypes hprograms rules tool
      · exact allOrNothing_headerOrder hprograms rules tool
    exact leavesReporter_of_quiet (hrun fault hfault)
  · intro option cause h
    exact leavesReporter_of_quiet
      (quiet_optionUsage_of_search hprograms rules tool h)

/-! The search program does not start. By then one of the two checks has found a
module that is not used. -/

def unsearchedRules : Rules where
  file :=
    { RuleFile.empty with
      headers := [utf8 "NAME"], nonObjectModules := [utf8 "B"] }
  valid := RuleFile.fault?_eq_none_iff.mp (by decide)

def unsearchedTool : Tool where
  name := utf8 "pt-x"
  path := utf8 "pt-x"
  absolutePath := utf8 "/w/pt-x"
  text := utf8 "# A package\n# B package\n=item --a\n"

theorem failure_leaves_reporter_midway :
    let script : Script :=
      { Script.empty with failures := [(utf8 "grep", utf8 "gone")] }
    let programs := script.programs (.ofPaths (utf8 "/w") [] [])
    let modules := moduleUsage unsearchedRules programs
    let options := optionUsage unsearchedRules programs
    (modules.run unsearchedTool).events =
      [.log (Log.debug (utf8 "module usage") [(utf8 "tool", .text (utf8 "pt-x")),
        (utf8 "module", .text (utf8 "A")),
          (utf8 "policy", .text (utf8 "instantiated")),
        (utf8 "used", .flag false)]),
      .call (utf8 "grep" :: [utf8 "-E", utf8 "-c", utf8 "-e", utf8 "B::",
        utf8 "--", utf8 "pt-x"])] ∧
    (modules.run unsearchedTool).result =
      .error (.error (.moduleSearch (utf8 "B") (.told (utf8 "gone")))) ∧
    (options.run unsearchedTool).result =
      .error (.error (.optionSearch (utf8 "a") (.told (utf8 "gone")))) ∧
    modules.LeavesReporter unsearchedTool ∧
    options.LeavesReporter unsearchedTool := by
  intro script programs modules options
  obtain ⟨hfour, hsearch, -⟩ :=
    failure_leaves_reporter unsearchedRules programs unsearchedTool
    (Script.quiet_programs script _)
  have hmodules : (modules.run unsearchedTool).result =
      .error (.error (.moduleSearch (utf8 "B") (.told (utf8 "gone")))) := by
        decide +kernel
  have hoptions : (options.run unsearchedTool).result =
      .error (.error (.optionSearch (utf8 "a") (.told (utf8 "gone")))) := by
        decide +kernel
  exact ⟨by decide +kernel, hmodules, hoptions,
    hfour modules (by simp [modules]) _ hmodules,
    hsearch _ _ hoptions⟩

end Check

end ToolLint
