import ToolLint.Pod.Section
import Mathlib.Data.List.Induction
import Mathlib.Data.List.TakeWhile

/-!
# Entries and their forest

A recursive view of the sections. Headings cut the commands into entries, each
with the options below it, and `nest` turns the entries into a forest by their
levels: an entry owns the following ones that are deeper. `sections_eq` says
that this is the forest that the stack of open sections builds. The induction is
on the entries, from any stack: what becomes of the open sections is
`Outline.completed`.
-/

namespace ToolLint

namespace Pod

/-- Read one command: a heading opens an entry, an option goes to the entry that
was opened last. The entries are in reverse order. -/
def Entry.push (done : List Entry) (c : Command) : List Entry :=
  match Entry.ofCommand? c with
  | some e => e :: done
  | none =>
    match c.option?, done with
    | some o, e :: rest => { e with options := e.options ++ [o] } :: rest
    | _, _ => done

/-- The entries of a list of commands, in order. What comes before the first
heading is in none. -/
def entries (cmds : List Command) : List Entry :=
  (cmds.foldl Entry.push []).reverse

/-- The forest of a list of entries: an entry owns the following ones that are
deeper. -/
def nest : List Entry → List Section
  | [] => []
  | e :: rest =>
    .node e (nest (rest.takeWhile fun d => e.level < d.level))
      :: nest (rest.dropWhile fun d => e.level < d.level)
termination_by es => es.length
decreasing_by
  · have := (rest.takeWhile_prefix fun d => e.level < d.level).length_le
    simp; omega
  · have := (rest.dropWhile_suffix fun d => e.level < d.level).length_le
    simp; omega

/-! ## The stack builds the forest -/

namespace Outline

/-- The forest once the entries have been read too. Each open section owns those
that are deeper, up to the first that is not. -/
def completed (roots below : List Section) :
    List Frame → List Entry → List Section
  | [], es => roots ++ below ++ nest es
  | f :: fs, es =>
    let owned := es.takeWhile fun d => f.entry.level < d.level
    completed roots [.node f.entry (f.subsections ++ below ++ nest owned)] fs
      (es.dropWhile fun d => f.entry.level < d.level)

theorem completed_nil (roots below : List Section) (fs : List Frame) :
    completed roots below fs [] = (closeFrames 0 roots below fs).roots := by
  induction fs generalizing below with
  | nil => simp [completed, closeFrames, nest]
  | cons f fs ih =>
      rw [completed, closeFrames, if_pos (Nat.zero_le _), List.takeWhile_nil,
        nest, List.append_nil]
      exact ih _

/-- What an inner section owns, the outer one owns too, and the rest of the
outer one follows it. -/
theorem takeWhile_dropWhile_of_imp {inner outer : Entry → Bool}
    (h : ∀ d, inner d = true → outer d = true) (es : List Entry) :
    (es.takeWhile outer).takeWhile inner = es.takeWhile inner ∧
    (es.takeWhile outer).dropWhile inner =
      (es.dropWhile inner).takeWhile outer ∧
    (es.dropWhile inner).dropWhile outer = es.dropWhile outer := by
  induction es with
  | nil => exact ⟨rfl, rfl, rfl⟩
  | cons d es ih =>
      by_cases hinner : inner d = true
      · simpa [hinner, h d hinner] using ih
      · by_cases houter : outer d = true
        all_goals simp [hinner, houter]

/-- A heading closes what is not above it and is then the innermost open
section. -/
theorem completed_cons (roots below : List Section) (fs : List Frame) (e : Entry)
    (es : List Entry) :
    completed roots below fs (e :: es) =
      let above := closeFrames e.level roots below fs
      completed above.roots [] (⟨e, []⟩ :: above.frames) es := by
  induction fs generalizing below with
  | nil => simp [completed, closeFrames, nest]
  | cons f fs ih =>
      by_cases h : e.level ≤ f.entry.level
      · rw [completed, closeFrames, if_pos h,
          List.takeWhile_cons_of_neg (by simpa using h),
          List.dropWhile_cons_of_neg (by simpa using h), nest, List.append_nil]
        exact ih _
      · have hdeeper : f.entry.level < e.level := Nat.not_le.mp h
        have hinner : ∀ d : Entry, decide (e.level < d.level) = true →
            decide (f.entry.level < d.level) = true := by
          simp only [decide_eq_true_eq]
          exact fun d => hdeeper.trans
        obtain ⟨htake, hbetween, hdrop⟩ := takeWhile_dropWhile_of_imp hinner es
        rw [closeFrames, if_neg h]
        simp only [completed, List.takeWhile_cons, List.dropWhile_cons, hdeeper,
          decide_true, if_true, nest, htake, hbetween, hdrop, List.nil_append,
          List.append_assoc, List.singleton_append]

theorem closing_foldl_heading (es : List Entry) (o : Outline) :
    ((es.foldl heading o).closing 0).roots =
      completed o.roots [] o.frames es := by
  induction es generalizing o with
  | nil => exact (completed_nil o.roots [] o.frames).symm
  | cons e es ih =>
      rw [List.foldl_cons, ih, completed_cons]
      rfl

/-- The options that follow a heading could have come with it. -/
theorem foldl_step_eq (cmds : List Command) :
    cmds.foldl step ⟨[], []⟩ = (entries cmds).foldl heading ⟨[], []⟩ := by
  induction cmds using List.reverseRecOn with
  | nil => rfl
  | append_singleton cmds c ih =>
      rw [List.foldl_append, List.foldl_cons, List.foldl_nil, ih, entries,
        entries, List.foldl_append, List.foldl_cons, List.foldl_nil]
      generalize cmds.foldl Entry.push [] = done
      unfold step Entry.push
      cases Entry.ofCommand? c with
      | some e =>
          simp only [List.reverse_cons, List.foldl_append, List.foldl_cons,
            List.foldl_nil]
      | none =>
          cases c.option? with
          | none => rfl
          | some name =>
              cases done with
              | nil => rfl
              | cons e done =>
                  simp only [List.reverse_cons, List.foldl_append,
                    List.foldl_cons, List.foldl_nil]
                  rfl

end Outline

/-- The stack of open sections builds the forest of the entries. -/
theorem sections_eq (cmds : List Command) :
    sections cmds = nest (entries cmds) := by
  rw [sections, Outline.foldl_step_eq, Outline.closing_foldl_heading,
    Outline.completed, List.nil_append, List.nil_append]

end Pod

end ToolLint
