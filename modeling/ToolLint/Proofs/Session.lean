import ToolLint.Proofs.Inspection

/-!
# Sessions

An inspection as it happens. All files share two streams and a record of calls,
which only grow, and all checks of a file share a reporter, which remembers that
something was reported but not by whom. A session goes through the files in a
loop, and through the checks of each file in a loop inside, and changes this
state event by event.

The inspections of the library are put together from parts that know nothing of
each other. That a session amounts to the same from whatever state it starts
(`run_eq`) says that no check and no file can see, or touch, what others have
done before: neither the flag of the reporter nor the record of calls makes a
difference to what comes later.
-/

namespace ToolLint

/-- What was written to the two streams so far, and the calls of programs so
far. -/
structure Session where
  stdout : Text
  stderr : Text
  calls : List (List Text)
deriving DecidableEq, Repr

namespace Session

/-- The state of a session inside a file: its reporter has something, and some
check came to no end. -/
structure InFile where
  session : Session
  reported : Bool
  faulted : Bool
deriving DecidableEq, Repr

/-- One event of a check. The log is silent. -/
def InFile.perform (s : InFile) : Event → InFile
  | .call c =>
    { s with session := { s.session with calls := s.session.calls ++ [c] } }
  | .log _ => s
  | .report e =>
    { s with
      session := { s.session with stdout := s.session.stdout ++ e.render }
      reported := true }

def complain (s : Session) (text : Text) : Session :=
  { s with stderr := s.stderr ++ (text ++ [lf]) }

/-- The end of a check: an error or a panic is told and remembered. -/
def InFile.conclude (tool : Tool) (c : Check) (s : InFile) :
    Except Fault Unit → InFile
  | .ok _ => s
  | .error f =>
    { s with
      session := s.session.complain
        (tool.name ++ utf8 " " ++ c.name ++ utf8 ": " ++ Inspection.faultText f)
      faulted := true }

def InFile.check (tool : Tool) (s : InFile) (c : Check) : InFile :=
  ((c.run tool).events.foldl InFile.perform s).conclude tool c (c.run tool).result

/-- One file, with a new reporter; and whether it failed. -/
def runFile (checks : List Check) (files : Files) (s : Session) (path : Text) :
    Session × Bool :=
  match Inspection.load files path with
  | .error e => (s.complain e.message, true)
  | .ok tool =>
    let t := checks.foldl (InFile.check tool) ⟨s, false, false⟩
    (t.session, t.faulted || t.reported)

/-- The loop over files, after some of them with the state `s`, of which one
failed if `failed` says so. -/
def run (checks : List Check) (files : Files) :
    Session → Bool → List Text → Session × Bool
  | s, failed, [] => (s, failed)
  | s, failed, path :: paths =>
    let (t, here) := runFile checks files s path
    run checks files t (failed || here) paths

/-! ## A session only grows -/

/-- The session after some more output. -/
def after (s : Session) (os : List Output) : Session :=
  ⟨s.stdout ++ Output.stdout os, s.stderr ++ Output.stderr os,
    s.calls ++ Output.calls os⟩

@[simp]
theorem after_nil (s : Session) : s.after [] = s := by
  simp [after, Output.stdout, Output.stderr, Output.calls, Output.events,
    Event.calls]

theorem after_append (s : Session) (os ps : List Output) :
    s.after (os ++ ps) = (s.after os).after ps := by
  simp [after, List.append_assoc]

theorem after_message (s : Session) (text : Text) :
    s.after (Inspection.complaint text).output = s.complain text := by
  simp [after, complain, Inspection.complaint, Output.stdout, Output.stderr,
    Output.calls, Output.events, Output.event?, Event.calls]

/-! ## One step -/

/-- The state inside a file after an inspection more. Reports and faults are
kept apart. -/
def InFile.after (s : InFile) (os : List Output) (reported faulted : Bool) :
    InFile :=
  ⟨s.session.after os, s.reported || reported, s.faulted || faulted⟩

theorem InFile.perform_eq (s : InFile) (e : Event) :
    s.perform e = s.after [.event e] e.report?.isSome false := by
  cases e with
  | call c =>
      have hcalls : Output.calls [.event (.call c)] = [c] := rfl
      simp [perform, after, Session.after, Output.stdout, Output.stderr, hcalls,
        Event.report?]
  | log l =>
      have hcalls : Output.calls [.event (.log l)] = [] := rfl
      simp [perform, after, Session.after, Output.stdout, Output.stderr, hcalls,
        Event.report?]
  | report r =>
      have hcalls : Output.calls [.event (.report r)] = [] := rfl
      simp [perform, after, Session.after, Output.stdout, Output.stderr, hcalls,
        Event.report?]

/-- The events of a check do the same to every state. -/
theorem InFile.foldl_perform_eq (s : InFile) (es : List Event) :
    es.foldl InFile.perform s =
      s.after (Inspection.ofEvents es).output
        (Inspection.ofEvents es).failed false := by
  induction es generalizing s with
  | nil => simp [InFile.after, Inspection.ofEvents]
  | cons e es ih =>
      have hcons : (e :: es).map Output.event = [Output.event e] ++
          es.map Output.event := rfl
      rw [List.foldl_cons, ih, InFile.perform_eq]
      simp only [InFile.after, Inspection.ofEvents, hcons, after_append,
        List.any_cons, Bool.or_assoc, Bool.or_false]

theorem InFile.conclude_eq (tool : Tool) (c : Check) (s : InFile)
    (r : Except Fault Unit) :
    s.conclude tool c r =
      s.after (Inspection.ofResult tool c r).output false
        (Inspection.ofResult tool c r).failed := by
  cases r with
  | ok _ =>
      simp [InFile.conclude, InFile.after, Inspection.ofResult, Inspection.empty]
  | error f =>
      rw [InFile.conclude, InFile.after, Inspection.ofResult, after_message]
      simp [Inspection.complaint]

/-- A check does the same to every state: what was reported or went wrong before
makes no difference. -/
theorem InFile.check_eq (tool : Tool) (s : InFile) (c : Check) :
    s.check tool c =
      s.after (Inspection.ofCheck tool c).output
        (Inspection.ofEvents (c.run tool).events).failed
        (Inspection.ofResult tool c (c.run tool).result).failed := by
  -- The log entry at the beginning of a check leaves no trace in a session.
  have hlog : ∀ es : List Event, s.session.after
      (Inspection.ofEvents (.log (Inspection.beginning tool c) :: es)).output =
        s.session.after (Inspection.ofEvents es).output := fun _ => rfl
  rw [check, foldl_perform_eq, conclude_eq]
  simp only [after, Inspection.ofCheck, Inspection.output_append, after_append,
    hlog, Bool.or_false]

/-! ## A whole run -/

/-- The flags of a file's reporter and of its loop, taken together, are the
status of its inspection. -/
theorem foldl_check_eq (tool : Tool) (checks : List Check) (s : InFile) :
    (checks.foldl (InFile.check tool) s).session =
        s.session.after (Inspection.ofTool checks tool).output ∧
      ((checks.foldl (InFile.check tool) s).faulted ||
        (checks.foldl (InFile.check tool) s).reported) =
        ((s.faulted || s.reported) ||
          (Inspection.ofTool checks tool).failed) := by
  induction checks generalizing s with
  | nil => simp [Inspection.ofTool, Inspection.all, Inspection.empty]
  | cons c checks ih =>
      obtain ⟨hsession, hstatus⟩ := ih (s.check tool c)
      rw [List.foldl_cons, hsession, hstatus, InFile.check_eq]
      constructor
      · simp only [InFile.after, Inspection.ofTool, List.map_cons, Inspection.all,
          Inspection.output_append, after_append]
      -- The loop keeps reports and faults apart, where the inspection has one
      -- flag for both.
      · have hfailed : (Inspection.ofCheck tool c).failed =
            ((Inspection.ofEvents (c.run tool).events).failed ||
              (Inspection.ofResult tool c (c.run tool).result).failed) := rfl
        simp only [InFile.after, Inspection.ofTool, List.map_cons, Inspection.all,
          Inspection.failed_append, hfailed]
        ac_rfl

theorem runFile_eq (checks : List Check) (files : Files) (s : Session)
    (path : Text) :
    runFile checks files s path =
      (s.after (Inspection.ofFile checks files path).output,
        (Inspection.ofFile checks files path).failed) := by
  unfold runFile Inspection.ofFile
  cases Inspection.load files path with
  | error e =>
      simp only
      rw [after_message]
      rfl
  | ok tool =>
      obtain ⟨hsession, hstatus⟩ := foldl_check_eq tool checks ⟨s, false, false⟩
      simp only
      rw [hsession, hstatus]
      rfl

/-- From every state, a session adds just what the inspection of the same files
leaves behind. -/
theorem run_eq (checks : List Check) (files : Files) (s : Session) (failed : Bool)
    (paths : List Text) :
    run checks files s failed paths =
      (s.after (Inspection.ofFiles checks files paths).output,
        failed || (Inspection.ofFiles checks files paths).failed) := by
  induction paths generalizing s failed with
  | nil => simp [run, Inspection.ofFiles, Inspection.all, Inspection.empty]
  | cons path paths ih =>
      rw [run, runFile_eq]
      simp only
      rw [ih]
      simp only [Inspection.ofFiles, List.map_cons, Inspection.all,
        Inspection.output_append, Inspection.failed_append, after_append,
        Bool.or_assoc]

/-- What a check does on a tool when it runs alone, with new streams and a new
reporter. -/
def alone (tool : Tool) (c : Check) : Session :=
  ((⟨⟨[], [], []⟩, false, false⟩ : InFile).check tool c).session

theorem alone_eq (tool : Tool) (c : Check) :
    alone tool c = after ⟨[], [], []⟩ (Inspection.ofCheck tool c).output := by
  rw [alone, InFile.check_eq]
  rfl

end Session

/-- The line that tells the error or the panic of a check, if it ended with one.
-/
def Check.errorLine (tool : Tool) (c : Check) : Text :=
  match (c.run tool).result with
  | .ok _ => []
  | .error (.error e) =>
    tool.name ++ utf8 " " ++ c.name ++ utf8 ": " ++ e.message ++ utf8 "\n"
  | .error (.panic value) =>
    tool.name ++ utf8 " " ++ c.name ++ utf8 ": panic: " ++ value ++ utf8 "\n"

theorem Inspection.stderr_ofCheck_eq_errorLine (tool : Tool) (c : Check) :
    Output.stderr (Inspection.ofCheck tool c).output = c.errorLine tool := by
  have hlf : utf8 "\n" = [lf] := rfl
  have hpanic : utf8 ": panic: " = utf8 ": " ++ utf8 "panic: " := rfl
  rw [Inspection.stderr_ofCheck, Check.errorLine, hlf, hpanic]
  rcases (c.run tool).result with (e | value) | u
  · simp [Inspection.ofResult, Inspection.complaint, Inspection.faultText,
      Output.stderr]
  · simp [Inspection.ofResult, Inspection.complaint, Inspection.faultText,
      Output.stderr]
  · rfl

namespace Inspection

open Output (stdout stderr calls)

theorem ofFiles_append (checks : List Check) (files : Files) (ps qs : List Text) :
    ofFiles checks files (ps ++ qs) = ofFiles checks files ps ++
      ofFiles checks files qs := by
  rw [ofFiles, List.map_append, all_append]
  rfl

/-- The status does not depend on the order of the files. -/
theorem ofFiles_failed_perm (checks : List Check) (files : Files)
    {ps qs : List Text} (h : ps.Perm qs) :
    (ofFiles checks files ps).failed = (ofFiles checks files qs).failed := by
  rw [Bool.eq_iff_iff, ofFiles_failed_iff, ofFiles_failed_iff]
  simp only [h.mem_iff]

/-- What is seen of a tool's inspection is what is seen of its checks, one after
the other. -/
theorem view_ofTool {α : Type} {view : List Output → List α}
    (hnil : view [] = [])
    (happend : ∀ os ps, view (os ++ ps) = view os ++ view ps)
    (checks : List Check) (tool : Tool) :
    view (ofTool checks tool).output = checks.flatMap fun c =>
      view (ofCheck tool c).output := by
  induction checks with
  | nil => exact hnil
  | cons c checks ih =>
      rw [ofTool, List.map_cons, all, output_append, happend, List.flatMap_cons,
        ← ih]
      rfl

theorem stdout_ofTool (checks : List Check) (tool : Tool) :
    stdout (ofTool checks tool).output = checks.flatMap fun c =>
      (Session.alone tool c).stdout := by
  rw [view_ofTool rfl Output.stdout_append]
  simp only [Session.alone_eq]
  rfl

theorem stderr_ofTool (checks : List Check) (tool : Tool) :
    stderr (ofTool checks tool).output = checks.flatMap
      (Check.errorLine tool) := by
  rw [view_ofTool rfl Output.stderr_append]
  simp only [stderr_ofCheck_eq_errorLine]

theorem calls_ofTool (checks : List Check) (tool : Tool) :
    calls (ofTool checks tool).output = checks.flatMap fun c =>
      (Session.alone tool c).calls := by
  rw [view_ofTool rfl Output.calls_append]
  simp only [Session.alone_eq]
  rfl

theorem ofFiles_singleton {checks : List Check} {files : Files} {path : Text}
    {tool : Tool} (h : load files path = .ok tool) :
    (ofFiles checks files [path]).output = (ofTool checks tool).output := by
  have hfile : ofFile checks files path = ofTool checks tool := by
    rw [ofFile, h]
  rw [ofFiles, List.map_singleton, hfile, all, all, output_append]
  exact List.append_nil _

end Inspection

/-- A check that reports some entries on every tool and then ends as given. -/
def Check.scripted (name : String) (entries : List Report.Entry)
    (result : Except Fault Unit) : Check :=
  ⟨utf8 name, fun _ => ⟨entries.map .report, result⟩⟩

namespace CommandLine

open Output (stdout stderr calls)

/-- **Files and checks are isolated from each other.** Whatever the checks are,
and whichever of them fail or panic on which of the files:

* a run over some files and then some more writes and calls what the two runs
  do, one after the other, and fails exactly if one of them does;
* on a file that can be loaded, it writes in the order of the checks what each
  of them writes when it runs alone, what it wrote before a panic included, and
  on the standard error output one line for each check that ended with an error
  or a panic;
* a session with shared streams, a shared record of calls and a shared reporter
  adds just this to what is there, from whatever state it starts;
* another order of the files leads to the same status. -/
theorem inspect_isolates (checks : List Check) (files : Files) :
    (∀ ps qs : List Text,
      stdout (inspect checks files (ps ++ qs)).output =
        stdout (inspect checks files ps).output ++ stdout
          (inspect checks files qs).output ∧
      stderr (inspect checks files (ps ++ qs)).output =
        stderr (inspect checks files ps).output ++ stderr
          (inspect checks files qs).output ∧
      calls (inspect checks files (ps ++ qs)).output =
        calls (inspect checks files ps).output ++ calls
          (inspect checks files qs).output ∧
      ((inspect checks files (ps ++ qs)).fault = some .checksFailed ↔
        (inspect checks files ps).fault = some .checksFailed ∨
          (inspect checks files qs).fault = some .checksFailed)) ∧
    (∀ (path : Text) (tool : Tool), Inspection.load files path = .ok tool →
      stdout (inspect checks files [path]).output =
        checks.flatMap (fun c => (Session.alone tool c).stdout) ∧
      stderr (inspect checks files [path]).output = checks.flatMap
        (Check.errorLine tool) ∧
      calls (inspect checks files [path]).output =
        checks.flatMap (fun c => (Session.alone tool c).calls)) ∧
    (∀ (s : Session) (failed : Bool) (paths : List Text),
      Session.run checks files s failed paths =
        (s.after (inspect checks files paths).output,
          failed || (inspect checks files paths).fault.isSome)) ∧
    (∀ ps qs : List Text, ps.Perm qs →
      (inspect checks files ps).fault = (inspect checks files qs).fault) := by
  have houtput : ∀ paths, (inspect checks files paths).output =
      (Inspection.ofFiles checks files paths).output := fun _ => rfl
  refine ⟨?_, ?_, ?_, ?_⟩
  · intro ps qs
    simp only [inspect_fault_eq_some_iff, houtput, Inspection.ofFiles_append,
      Inspection.output_append, Inspection.failed_append, Bool.or_eq_true,
        Output.stdout_append,
      Output.stderr_append, Output.calls_append, and_self]
  · intro path tool hload
    rw [houtput, Inspection.ofFiles_singleton hload]
    exact ⟨Inspection.stdout_ofTool checks tool,
      Inspection.stderr_ofTool checks tool,
      Inspection.calls_ofTool checks tool⟩
  · intro s failed paths
    rw [Session.run_eq, houtput]
    have hfault : (inspect checks files paths).fault.isSome =
        (Inspection.ofFiles checks files paths).failed := by
      cases h : (Inspection.ofFiles checks files paths).failed <;> simp [inspect,
        h]
    rw [hfault]
  · intro ps qs hperm
    simp only [inspect, Inspection.ofFiles_failed_perm checks files hperm]

/-- A check that reports and panics, and a check after it that reports too. -/
theorem inspect_isolates_panic :
    let checks := [
      Check.scripted "first" [.block (utf8 "one") (utf8 "two")]
        (.error (.panic (utf8 "boom"))),
      Check.scripted "second" [.block (utf8 "three") []] (.ok ())]
    let files := Files.ofPaths (utf8 "/home") [(utf8 "pt-x", [])] []
    stdout (inspect checks files [utf8 "pt-x"]).output =
      utf8 "one\ntwo\nthree\n" ∧
      stderr (inspect checks files [utf8 "pt-x"]).output =
        utf8 "pt-x first: panic: boom\n" ∧
      (inspect checks files [utf8 "pt-x", utf8 "X"]).fault =
        (inspect checks files [utf8 "X", utf8 "pt-x"]).fault := by
  intro checks files
  obtain ⟨-, hsingle, -, hperm⟩ := inspect_isolates checks files
  have hload : Inspection.load files (utf8 "pt-x") =
      .ok ⟨utf8 "pt-x", utf8 "pt-x", utf8 "/home/pt-x", []⟩ := rfl
  obtain ⟨hout, herr, -⟩ := hsingle _ _ hload
  exact ⟨hout.trans rfl, herr.trans rfl, hperm _ _ (List.Perm.swap _ _ _)⟩

end CommandLine

end ToolLint
