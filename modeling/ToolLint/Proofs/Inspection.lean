import ToolLint.CommandLine
import ToolLint.Proofs.Report

/-!
# The status of an inspection

An inspection fails exactly if it writes something. The three sources of failure
(a file that gives no tool, a check without an end, an entry of a report) are
also the three sources of output, so the status is honest for every single step,
and it stays so when steps are put one after the other.
-/

namespace ToolLint

/-! ## What events and messages write -/

namespace Output

theorem stdout_events (es : List Event) :
    stdout (es.map .event) = Event.reportText es := by
  induction es with
  | nil => rfl
  | cons e es ih =>
      have hcons : stdout ((e :: es).map .event) = stdout [.event e] ++ stdout
          (es.map .event) :=
        stdout_append [.event e] (es.map .event)
      rw [hcons, ih]
      cases e with
      | call c => rfl
      | log l => rfl
      | report r =>
          simp [stdout, Event.reportText, Event.reports, Event.report?,
            Report.render]

theorem stderr_events (es : List Event) : stderr (es.map .event) = [] := by
  induction es with
  | nil => rfl
  | cons e es ih => exact ih

end Output

namespace Inspection

open Output (stdout stderr)

theorem stderr_ofCheck (tool : Tool) (c : Check) :
    stderr (ofCheck tool c).output =
      stderr (ofResult tool c (c.run tool).result).output := by
  rw [ofCheck, output_append, Output.stderr_append]
  exact congrArg (· ++ _) (Output.stderr_events _)

/-! ## The status of one step -/

/-- The status of an inspection is honest if it has failed exactly when it has
written something. -/
def Honest (x : Inspection) : Prop :=
  x.failed = true ↔ stdout x.output ≠ [] ∨ stderr x.output ≠ []

theorem Honest.append {x y : Inspection} (hx : Honest x) (hy : Honest y) :
    Honest (x ++ y) := by
  unfold Honest at *
  rw [failed_append, output_append, Output.stdout_append, Output.stderr_append,
    Bool.or_eq_true, hx, hy]
  simp only [ne_eq, List.append_eq_nil_iff]
  tauto

theorem ofEvents_failed_iff (es : List Event) :
    (ofEvents es).failed = true ↔ Event.reports es ≠ [] := by
  simp [ofEvents, Event.reports, List.filterMap_eq_nil_iff,
    Option.isSome_iff_ne_none]

theorem all_failed_iff {xs : List Inspection} :
    (all xs).failed = true ↔ ∃ x ∈ xs, x.failed = true := by
  induction xs with
  | nil => simp [all, empty]
  | cons x xs ih =>
      rw [all, failed_append, Bool.or_eq_true, ih]
      simp

theorem ofFiles_failed_iff (checks : List Check) (files : Files)
    (paths : List Text) :
    (ofFiles checks files paths).failed = true ↔
      ∃ path ∈ paths, (ofFile checks files path).failed = true := by
  rw [ofFiles, all_failed_iff]
  constructor
  · rintro ⟨x, hx, hfailed⟩
    obtain ⟨path, hpath, rfl⟩ := List.mem_map.mp hx
    exact ⟨path, hpath, hfailed⟩
  · rintro ⟨path, hpath, hfailed⟩
    exact ⟨_, List.mem_map_of_mem hpath, hfailed⟩

end Inspection

namespace CommandLine

open Output (stdout stderr)

theorem inspect_fault_eq_some_iff (checks : List Check) (files : Files)
    (paths : List Text) :
    (inspect checks files paths).fault = some .checksFailed ↔
      (Inspection.ofFiles checks files paths).failed = true := by
  simp [inspect]

end CommandLine

end ToolLint
