import ToolLint.Proofs.Check.Failure
import ToolLint.Proofs.Check.Modules

/-!
# Searches that fail

The search program says by its exit status whether it has found something (0),
has found nothing (1) or was in trouble (all else). A status above 1 makes every
question an error, and so does a program that does not start; then the checks
that ask fail as well, and they report nothing. A program that is killed has a
status below 0. That is not noticed, and what it had printed by then is taken
for its answer.
-/

namespace ToolLint

/-! ## One search -/

namespace Search

def outcome (programs : Programs) (flags : List Text) (pattern path : Text) :
    Except Fault Outcome :=
  (programs.run program ([utf8 "-E"] ++ flags ++ [utf8 "-e", pattern, utf8 "--",
    path])).result

/-- The search gives no answer: the program does not start, or it says neither
that it has found something nor that it has found nothing. -/
def Failed (programs : Programs) (flags : List Text) (pattern path : Text) :
    Prop :=
  (∃ e, outcome programs flags pattern path = .error (.error e)) ∨
    ∃ o, outcome programs flags pattern path = .ok o ∧ o.exit ≠ 0 ∧ o.exit ≠ 1

def Killed (programs : Programs) (flags : List Text) (pattern path : Text) :
    Prop :=
  ∃ o, outcome programs flags pattern path = .ok o ∧ o.exit < 0

variable {programs : Programs} {flags : List Text} {pattern path : Text}

theorem run_of_ok {o : Outcome}
    (h : outcome programs flags pattern path = .ok o) :
    (run programs flags pattern path).result =
      if 1 < o.exit then
        .error (.error (.searchTrouble pattern path o.exit o.output.trim)) else
          .ok o.output := by
  rcases Activity.andThen_cases (programs.run program _) _ with ⟨e, he, -⟩
    | ⟨o', ho', heq⟩
  · cases he.symm.trans h
  · obtain rfl : o' = o := Except.ok.inj (ho'.symm.trans h)
    rw [run, heq]
    split
    · rfl
    · rfl

theorem run_of_error {f : Fault}
    (h : outcome programs flags pattern path = .error f) :
    (run programs flags pattern path).result = .error f :=
  Activity.result_andThen_of_error h

/-- Only a killed program fails unnoticed. -/
theorem error_of_failed (hfailed : Failed programs flags pattern path)
    (hkilled : ¬ Killed programs flags pattern path) :
    ∃ e, (run programs flags pattern path).result = .error (.error e) := by
  rcases hfailed with ⟨e, he⟩ | ⟨o, ho, hzero, hone⟩
  · exact ⟨e, run_of_error he⟩
  · have hsign : 0 ≤ o.exit := not_lt.mp fun h => hkilled ⟨o, ho, h⟩
    have htrouble : 1 < o.exit := by omega
    exact ⟨_, (run_of_ok ho).trans (if_pos htrouble)⟩

theorem run_eq_ok_iff {output : Text} :
    (run programs flags pattern path).result = .ok output ↔
      ∃ o, outcome programs flags pattern path = .ok o ∧ o.exit ≤ 1 ∧
        o.output = output := by
  cases h : outcome programs flags pattern path with
  | error f => simp [run_of_error h]
  | ok o =>
      rw [run_of_ok h]
      by_cases htrouble : 1 < o.exit
      · simp [htrouble]
      · simp [htrouble, not_lt.mp htrouble]

/-- A count is given if and only if the program has ended without noticed
trouble and its output can be read. -/
theorem count_eq_ok_iff {n : Int} : (count programs pattern path).result = .ok n ↔
    ∃ o, outcome programs [utf8 "-c"] pattern path = .ok o ∧ o.exit ≤ 1 ∧
      readCount pattern o.output = .ok n := by
  rw [count, Activity.result_andThen_eq_ok_iff]
  simp only [run_eq_ok_iff, Activity.result_ofExcept_eq_ok_iff]
  constructor
  · rintro ⟨_, ⟨o, ho, hexit, rfl⟩, hn⟩
    exact ⟨o, ho, hexit, hn⟩
  · rintro ⟨o, ho, hexit, hn⟩
    exact ⟨o.output, ⟨o, ho, hexit, rfl⟩, hn⟩

theorem lines_eq_ok_iff {d : Delivery} :
    (lines programs pattern path).result = .ok d ↔
      ∃ o, outcome programs [] pattern path = .ok o ∧ o.exit ≤ 1 ∧
        o.output.delivered = d := by
  rw [lines, Activity.result_andThen_eq_ok_iff]
  simp only [run_eq_ok_iff]
  constructor
  · rintro ⟨_, ⟨o, ho, hexit, rfl⟩, hd⟩
    exact ⟨o, ho, hexit, Except.ok.inj hd⟩
  · rintro ⟨o, ho, hexit, rfl⟩
    exact ⟨o.output, ⟨o, ho, hexit, rfl⟩, rfl⟩

theorem count_error_of_failed (hfailed : Failed programs [utf8 "-c"] pattern path)
    (hkilled : ¬ Killed programs [utf8 "-c"] pattern path) :
    ∃ e, (count programs pattern path).result = .error (.error e) := by
  obtain ⟨e, he⟩ := error_of_failed hfailed hkilled
  exact ⟨e, Activity.result_andThen_of_error he⟩

theorem lines_error_of_failed (hfailed : Failed programs [] pattern path)
    (hkilled : ¬ Killed programs [] pattern path) :
    ∃ e, (lines programs pattern path).result = .error (.error e) := by
  obtain ⟨e, he⟩ := error_of_failed hfailed hkilled
  exact ⟨e, Activity.result_andThen_of_error he⟩

/-- A question does not panic unless the search program does. -/
theorem calm_count (hprograms : ∀ args, (programs.run program args).Calm) :
    (count programs pattern path).Calm := by
  refine Activity.FaultsIn.andThen ((hprograms _).andThen fun o => ?_) fun _ =>
    Activity.calm_ofExcept _
  split
  · exact Activity.calm_error _
  · exact (Activity.ends_done _).faultsIn

end Search

/-! ## The checks that search -/

namespace Check

open Activity (Ends FaultsIn)

section Searches

variable {programs : Programs} {path : Text} {patterns : List Text}

theorem calm_occurrences
    (hprograms : ∀ args, (programs.run Search.program args).Calm) :
    (occurrences programs path patterns).Calm :=
  FaultsIn.andThen (Activity.faultsIn_each fun _ _ => Search.calm_count hprograms)
    fun _ => (Activity.ends_done _).faultsIn

/-- One count that fails is enough. -/
theorem not_ends_occurrences {pattern : Text} (hmem : pattern ∈ patterns)
    (hfailed : Search.Failed programs [utf8 "-c"] pattern path)
    (hkilled : ¬ Search.Killed programs [utf8 "-c"] pattern path) :
    ¬ (occurrences programs path patterns).Ends := by
  intro h
  obtain ⟨n, hn⟩ := Ends.of_each h.of_andThen pattern hmem
  obtain ⟨e, he⟩ := Search.count_error_of_failed hfailed hkilled
  cases hn.symm.trans he

end Searches

variable {rules : Rules} {programs : Programs} {tool : Tool}

/-- The check of modules fails for the sake of a search and for no other reason.
-/
theorem faultsIn_unusedModules
    (hsubclasses : ∀ m, ∀ s ∈ rules.subclasses m, s.IsEncoded)
    (hprograms : ∀ args, (programs.run Search.program args).Calm) :
    (unusedModules rules programs tool).FaultsIn fun f => ∃ m cause,
      f = .error (.moduleSearch m cause) := by
  refine FaultsIn.andThen (Activity.faultsIn_each fun m hm => ?_) fun _ =>
    (Activity.ends_done _).faultsIn
  refine FaultsIn.andThen ?_ fun used => Ends.faultsIn ⟨used, rfl⟩
  unfold moduleUsed
  cases rules.policy tool.name m with
  | ignored => exact (Activity.ends_done true).faultsIn
  | dynamic => exact (Activity.ends_done true).faultsIn
  | notObject =>
      refine FaultsIn.andThen (fun f hf => ?_) fun _ =>
        (Activity.ends_done _).faultsIn
      obtain ⟨cause, rfl⟩ := (calm_occurrences hprograms).faultsIn_during _ f hf
      exact ⟨m, cause, rfl⟩
  | baseClass =>
      -- No expression is rejected that is made of a name in UTF-8.
      show (anyConstructed rules tool (rules.subclasses m)).FaultsIn _
      rw [anyConstructed_eq (hsubclasses m)]
      exact (Activity.ends_done _).faultsIn
  | constructed =>
      show (constructed tool m).FaultsIn _
      rw [constructed_eq
          (Module.isEncoded_of_isName (Module.isName_of_mem_declared hm))]
      exact (Activity.ends_done _).faultsIn

theorem not_ends_unusedModules {m pattern : Text}
    (hm : m ∈ Module.declared tool.text)
    (hpolicy : rules.policy tool.name m = .notObject)
    (hpattern : pattern ∈ referencePatterns m)
    (hfailed : Search.Failed programs [utf8 "-c"] pattern tool.path)
    (hkilled : ¬ Search.Killed programs [utf8 "-c"] pattern tool.path) :
    ¬ (unusedModules rules programs tool).Ends := by
  intro h
  have hused : (moduleUsed rules programs tool m).Ends :=
    (Ends.of_each h.of_andThen m hm).of_andThen
  unfold moduleUsed at hused
  rw [hpolicy] at hused
  exact not_ends_occurrences hpattern hfailed hkilled hused.of_andThen.of_during

theorem faultsIn_unreadOptions
    (hprograms : ∀ args, (programs.run Search.program args).Calm) :
    (unreadOptions rules programs tool).FaultsIn fun f => ∃ option cause,
      f = .error (.optionSearch option cause) := by
  refine FaultsIn.andThen (Activity.faultsIn_each fun o _ => ?_) fun _ =>
    (Activity.ends_done _).faultsIn
  refine FaultsIn.andThen (fun f hf => ?_) fun _ =>
    (Activity.ends_done _).faultsIn
  obtain ⟨cause, rfl⟩ := (calm_occurrences hprograms).faultsIn_during _ f hf
  exact ⟨o, cause, rfl⟩

theorem not_ends_unreadOptions {o pattern : Text}
    (ho : o ∈ Pod.documentedOptions tool.text)
    (hread : rules.ignoresOption o = false)
    (hpattern : pattern ∈ readPatterns o)
    (hfailed : Search.Failed programs [utf8 "-c"] pattern tool.path)
    (hkilled : ¬ Search.Killed programs [utf8 "-c"] pattern tool.path) :
    ¬ (unreadOptions rules programs tool).Ends := by
  intro h
  have hmem : o ∈ (Pod.documentedOptions tool.text).filter fun o =>
      !rules.ignoresOption o := by
    rw [List.mem_filter, hread]
    exact ⟨ho, rfl⟩
  exact not_ends_occurrences hpattern hfailed hkilled
    (Ends.of_each h.of_andThen o hmem).of_andThen.of_during

/-- **A search that fails is not taken for an answer**, unless the search
program was killed. An answer is given if and only if the program started, its
status is at most 1 and its output can be read. So, if a search fails and the
program was not killed,

* a question about it ends with an error;
* a check to which it matters ends with an error that says for what it was
  searching, and it leaves the reporter as it was.

The programs have no access to the reporter, the search program does not panic,
and the subclasses of base classes are named in UTF-8. -/
theorem failed_search_is_error (tool : Tool)
    (hsubclasses : ∀ m, ∀ s ∈ rules.subclasses m, s.IsEncoded)
    (hquiet : programs.Quiet)
    (hcalm : ∀ args, (programs.run Search.program args).Calm) :
    (∀ pattern path,
      (∀ n, (Search.count programs pattern path).result = .ok n ↔
        ∃ o, Search.outcome programs [utf8 "-c"] pattern path = .ok o ∧
          o.exit ≤ 1 ∧
          Search.readCount pattern o.output = .ok n) ∧
      (∀ d, (Search.lines programs pattern path).result = .ok d ↔
        ∃ o, Search.outcome programs [] pattern path = .ok o ∧ o.exit ≤ 1 ∧
          o.output.delivered = d) ∧
      (Search.Failed programs [utf8 "-c"] pattern path →
        ¬ Search.Killed programs [utf8 "-c"] pattern path →
        ∃ e, (Search.count programs pattern path).result = .error (.error e)) ∧
      (Search.Failed programs [] pattern path →
        ¬ Search.Killed programs [] pattern path →
        ∃ e, (Search.lines programs pattern path).result = .error (.error e))) ∧
    (Search.Failed programs [] (utf8 "^=head1") tool.path →
      ¬ Search.Killed programs [] (utf8 "^=head1") tool.path →
      (∃ cause, ((headerOrder rules programs).run tool).result =
        .error (.error (.headerSearch cause))) ∧
      (headerOrder rules programs).LeavesReporter tool) ∧
    (∀ m ∈ Module.declared tool.text, rules.policy tool.name m = .notObject →
      ∀ pattern ∈ referencePatterns m,
      Search.Failed programs [utf8 "-c"] pattern tool.path →
      ¬ Search.Killed programs [utf8 "-c"] pattern tool.path →
      (∃ m' cause, ((moduleUsage rules programs).run tool).result =
        .error (.error (.moduleSearch m' cause))) ∧
      (moduleUsage rules programs).LeavesReporter tool) ∧
    (∀ o ∈ Pod.documentedOptions tool.text, rules.ignoresOption o = false →
      ∀ pattern ∈ readPatterns o,
      Search.Failed programs [utf8 "-c"] pattern tool.path →
      ¬ Search.Killed programs [utf8 "-c"] pattern tool.path →
      (∃ o' cause, ((optionUsage rules programs).run tool).result =
        .error (.error (.optionSearch o' cause))) ∧
      (optionUsage rules programs).LeavesReporter tool) := by
  refine ⟨fun pattern path => ⟨fun _ => Search.count_eq_ok_iff,
    fun _ => Search.lines_eq_ok_iff,
    Search.count_error_of_failed, Search.lines_error_of_failed⟩, ?_, ?_, ?_⟩
  · intro hfailed hkilled
    obtain ⟨e, he⟩ := Search.lines_error_of_failed hfailed hkilled
    have hlines : (Search.allLines programs (utf8 "^=head1") tool.path).result =
        .error (.error e) :=
      Activity.result_andThen_of_error he
    have hrun : ((headerOrder rules programs).run tool).result =
        .error (.error (.headerSearch e)) :=
      Activity.result_andThen_of_error (Activity.result_during_of_error hlines)
    exact ⟨⟨e, hrun⟩,
      leavesReporter_of_quiet (allOrNothing_headerOrder hquiet rules tool _ hrun)⟩
  · intro m hm hpolicy pattern hpattern hfailed hkilled
    obtain ⟨f, hf⟩ :=
      Activity.exists_fault_of_not_ends
        (not_ends_unusedModules hm hpolicy hpattern hfailed hkilled)
    obtain ⟨m', cause, rfl⟩ := faultsIn_unusedModules hsubclasses hcalm f hf
    have hrun : ((moduleUsage rules programs).run tool).result =
        .error (.error (.moduleSearch m' cause)) :=
      Activity.result_andThen_of_error hf
    exact ⟨⟨m', cause, hrun⟩,
      leavesReporter_of_quiet (allOrNothing_moduleUsage hquiet rules tool _ hrun)⟩
  · intro o ho hread pattern hpattern hfailed hkilled
    obtain ⟨f, hf⟩ :=
      Activity.exists_fault_of_not_ends
        (not_ends_unreadOptions ho hread hpattern hfailed hkilled)
    obtain ⟨o', cause, rfl⟩ := faultsIn_unreadOptions hcalm f hf
    have hrun : ((optionUsage rules programs).run tool).result =
        .error (.error (.optionSearch o' cause)) :=
      Activity.result_andThen_of_error hf
    exact ⟨⟨o', cause, hrun⟩,
      leavesReporter_of_quiet
        (quiet_optionUsage_of_search hquiet rules tool hrun)⟩

/-! A search program that ends in the same way whatever it is asked. -/

def searchScript (o : Outcome) : Script :=
  { Script.empty with results := [(utf8 "grep", o)] }

theorem run_searchScript (o : Outcome) (files : Files) (args : List Text) :
    (((searchScript o).programs files).run Search.program args).result =
      .ok o := by
  have hbase : Path.base Search.program = utf8 "grep" := by decide
  simp [Script.programs, Script.programsIn, Script.answer, hbase, searchScript,
    Script.empty]

theorem encoded_unsearchedRules :
    ∀ m, ∀ s ∈ unsearchedRules.subclasses m, s.IsEncoded := by
  intro m s
  apply Rules.encoded_of_subclassesEncoded
  simp [Rules.SubclassesEncoded, unsearchedRules, RuleFile.empty]

/-- In trouble, but with a number in the output. -/
theorem failed_search_is_error_number :
    let programs :=
      (searchScript ⟨utf8 "3\n", 2⟩).programs (.ofPaths (utf8 "/w") [] [])
    let headers := headerOrder unsearchedRules programs
    let modules := moduleUsage unsearchedRules programs
    let options := optionUsage unsearchedRules programs
    (∀ flags pattern, Search.Failed programs flags pattern unsearchedTool.path ∧
      ¬ Search.Killed programs flags pattern unsearchedTool.path) ∧
    (∃ e, (Search.count programs (utf8 "x") unsearchedTool.path).result =
      .error (.error e)) ∧
    (∃ e, (Search.lines programs (utf8 "x") unsearchedTool.path).result =
      .error (.error e)) ∧
    ((∃ cause, (headers.run unsearchedTool).result =
      .error (.error (.headerSearch cause))) ∧
      headers.LeavesReporter unsearchedTool) ∧
    ((∃ m cause, (modules.run unsearchedTool).result =
      .error (.error (.moduleSearch m cause))) ∧
      modules.LeavesReporter unsearchedTool) ∧
    ((∃ o cause, (options.run unsearchedTool).result =
      .error (.error (.optionSearch o cause))) ∧
      options.LeavesReporter unsearchedTool) := by
  intro programs headers modules options
  have hrun := run_searchScript ⟨utf8 "3\n", 2⟩ (.ofPaths (utf8 "/w") [] [])
  have hcalm : ∀ args, (programs.run Search.program args).Calm :=
    fun args => Ends.faultsIn ⟨_, hrun args⟩
  have hfailed : ∀ flags pattern,
      Search.Failed programs flags pattern unsearchedTool.path :=
    fun flags pattern => Or.inr ⟨_, hrun _, by decide, by decide⟩
  have hkilled : ∀ flags pattern,
      ¬ Search.Killed programs flags pattern unsearchedTool.path := by
    rintro flags pattern ⟨o, ho, hexit⟩
    obtain rfl := Except.ok.inj ((hrun _).symm.trans ho)
    exact absurd hexit (by decide)
  obtain ⟨hsearch, hheaders, hmodules, hoptions⟩ :=
    failed_search_is_error unsearchedTool encoded_unsearchedRules
      (Script.quiet_programs _ _) hcalm
  obtain ⟨-, -, hcount, hlines⟩ := hsearch (utf8 "x") unsearchedTool.path
  refine ⟨fun flags pattern => ⟨hfailed flags pattern, hkilled flags pattern⟩,
    hcount (hfailed _ _) (hkilled _ _), hlines (hfailed _ _) (hkilled _ _),
      hheaders (hfailed _ _) (hkilled _ _), ?_, ?_⟩
  · exact hmodules (utf8 "B") (by decide +kernel)
      (by decide +kernel) _ List.mem_cons_self (hfailed _ _) (hkilled _ _)
  · exact hoptions (utf8 "a") (by decide +kernel)
      (by decide +kernel) _ List.mem_cons_self (hfailed _ _) (hkilled _ _)

/-- **A search that was killed is taken for an answer.** What the program had
printed is the count, and if it had printed nothing, the tool has no headers. -/
theorem killed_search_is_answer :
    (¬ ∀ (programs : Programs) (pattern path : Text),
      Search.Failed programs [utf8 "-c"] pattern path →
      ∃ e, (Search.count programs pattern path).result = .error (.error e)) ∧
    ¬ ∀ (rules : Rules) (programs : Programs) (tool : Tool),
      Search.Failed programs [] (utf8 "^=head1") tool.path →
      ((headerOrder rules programs).run tool).Quiet := by
  constructor
  · intro h
    obtain ⟨e, he⟩ :=
      h ((searchScript ⟨utf8 "3\n", -1⟩).programs (.ofPaths (utf8 "/w") [] []))
        (utf8 "x") (utf8 "pt-x")
      (Or.inr ⟨_, run_searchScript _ _ _, by decide, by decide⟩)
    have hthree :
        (Search.count ((searchScript ⟨utf8 "3\n", -1⟩).programs
          (.ofPaths (utf8 "/w") [] [])) (utf8 "x")
        (utf8 "pt-x")).result = .ok 3 := by decide +kernel
    cases hthree.symm.trans he
  · intro h
    have hquiet :=
      h unsearchedRules ((searchScript ⟨[], -1⟩).programs
        (.ofPaths (utf8 "/w") [] [])) unsearchedTool
      (Or.inr ⟨_, run_searchScript _ _ _, by decide, by decide⟩)
    revert hquiet
    unfold Activity.Quiet
    decide +kernel

end Check

end ToolLint
