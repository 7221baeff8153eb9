import ToolLint.Proofs.Format
import ToolLint.Proofs.Inspection
import ToolLint.Proofs.Text.Lines
import ToolLint.Reporter

/-!
# Entries that stay apart

A reporter has four ways to write, and each of them ends a line in its own way:
a sentence by the last byte of its format, a list by the last of its items or by
its heading, a block by its text or by a byte of its own, and a table by an
empty line. So the stream is at the beginning of a line after every entry, and
what an entry writes is the same wherever it stands (`appends_perform`). The
lines of a report are those of its entries.
-/

namespace ToolLint

open Report (Entry)

/-! ## Texts that end a line -/

namespace Text

def EndsLine (s : Text) : Prop := s.getLast? = some lf

instance (s : Text) : Decidable (EndsLine s) :=
  inferInstanceAs (Decidable (_ = _))

theorem endsLine_concat (s : Text) : EndsLine (s ++ [lf]) := List.getLast?_concat

theorem EndsLine.ne_nil {s : Text} (h : EndsLine s) : s ≠ [] := by
  rintro rfl
  cases h

theorem EndsLine.append_left {t : Text} (h : EndsLine t) (s : Text) :
    EndsLine (s ++ t) := by
  unfold EndsLine
  rw [List.getLast?_append_of_ne_nil s h.ne_nil, h]

/-- What comes after a text that ends a line may be any number of such texts. -/
theorem EndsLine.append_flatMap {α : Type} {f : α → Text} {as : List α}
    (hf : ∀ a ∈ as, EndsLine (f a)) {s : Text} (hs : EndsLine s) :
    EndsLine (s ++ as.flatMap f) := by
  induction as generalizing s with
  | nil => simpa using hs
  | cons a as ih =>
      obtain ⟨ha, has⟩ := List.forall_mem_cons.mp hf
      rw [List.flatMap_cons, ← List.append_assoc]
      exact ih has (ha.append_left s)

/-- The text is made of whole lines: what comes next begins a line. -/
def WholeLines (s : Text) : Prop := s = [] ∨ EndsLine s

theorem WholeLines.endsLine_append {s t : Text} (ht : WholeLines t)
    (hs : EndsLine s) : EndsLine (s ++ t) := by
  rcases ht with rfl | ht
  · rwa [List.append_nil]
  · exact ht.append_left s

theorem WholeLines.terminated_append {s : Text} (h : WholeLines s) (t : Text) :
    terminated (s ++ t) = terminated s ++ terminated t := by
  rcases h with rfl | h
  · rfl
  · obtain ⟨u, rfl⟩ := List.getLast?_eq_some_iff.mp h
    exact terminated_append_of_lf u t

end Text

open Text (EndsLine)

/-! ## Entries -/

namespace Report

/-- A sentence has as many arguments as its format has holes. -/
def Entry.Fits : Entry → Prop
  | .violation format args => Format.Fits format args
  | _ => True

instance (e : Entry) : Decidable e.Fits :=
  match e with
  | .violation format args =>
    inferInstanceAs (Decidable (Format.Fits format args))
  | .list _ _ | .block _ _ | .compare _ _ => .isTrue trivial

/-- A block ends as its text does, or else with a line feed of its own. -/
theorem endLine_eq (text : Text) :
    endLine text = text ++ if text ≠ [] ∧ ¬ text.EndsLine then [lf] else [] := by
  unfold endLine EndsLine
  by_cases hnil : text = []
  · simp [hnil]
  · by_cases hlast : text.getLast? = some lf
    · simp [hlast]
    · simp [hnil, hlast]

/-- A sentence is the format with its holes filled. -/
theorem render_violation {format : Text} {args : List Text}
    (h : Format.Fits format args) :
    ∃ sentence, Format.Fills format args sentence ∧
      (Entry.violation format args).render = sentence ++ [lf] := by
  obtain ⟨sentence, hfills⟩ := Format.exists_fills_iff.mpr h
  have hlf : lf ≠ Format.percent := by decide
  exact ⟨sentence, hfills, (hfills.concat hlf).apply_eq⟩

theorem render_block (heading text : Text) :
    (Entry.block heading text).render =
      heading ++ [lf] ++ text ++ if text ≠ [] ∧ ¬ text.EndsLine then
        [lf] else [] := by
  rw [Entry.render, endLine_eq, List.append_assoc _ text]

/-- Every entry ends a line. -/
theorem Entry.endsLine_render {e : Entry} (h : e.Fits) : e.render.EndsLine := by
  cases e with
  | violation format args =>
      obtain ⟨sentence, -, hsentence⟩ := render_violation h
      rw [hsentence]
      exact Text.endsLine_concat sentence
  | list heading items =>
      refine EndsLine.append_flatMap ?_ (Text.endsLine_concat heading)
      intro item _
      exact (Text.endsLine_concat item).append_left [tab]
  | block heading text =>
      rw [render_block]
      by_cases h : text ≠ [] ∧ ¬ text.EndsLine
      · rw [if_pos h]
        exact Text.endsLine_concat _
      · rw [if_neg h, List.append_nil]
        have hwhole : text.WholeLines := or_iff_not_and_not.mpr h
        exact hwhole.endsLine_append (Text.endsLine_concat heading)
  | compare heading rows => exact Text.endsLine_concat _

/-- The lines of a report are those of its entries. -/
theorem terminated_render {entries : List Entry} (hfits : ∀ e ∈ entries, e.Fits) :
    (render entries).terminated = entries.flatMap fun e =>
      e.render.terminated := by
  induction entries with
  | nil => rfl
  | cons e entries ih =>
      obtain ⟨he, hentries⟩ := List.forall_mem_cons.mp hfits
      have hwhole : e.render.WholeLines := Or.inr (Entry.endsLine_render he)
      have hcons : render (e :: entries) = e.render ++ render entries :=
        List.flatMap_cons
      rw [hcons, hwhole.terminated_append, ih hentries, List.flatMap_cons]

end Report

/-! ## Reporters -/

namespace Reporter

/-- From any state, the step appends this text to what the stream has received. -/
def Appends (step : Reporter → Reporter) (text : Text) : Prop :=
  ∀ r, (step r).output = r.output ++ text

theorem output_new (received : Text) : (new received).output = received :=
  List.append_nil received

theorem appends_fail : Appends fail [] := fun r => (List.append_nil r.output).symm

theorem appends_write (text : Text) : Appends (write · text) text := by
  intro r
  show (text :: r.written).reverse.flatten = r.written.reverse.flatten ++ text
  rw [List.reverse_cons, List.flatten_concat]

theorem Appends.comp {f g : Reporter → Reporter} {s t : Text} (hf : Appends f s)
    (hg : Appends g t) : Appends (fun r => g (f r)) (s ++ t) := by
  intro r
  rw [hg, hf, List.append_assoc]

/-- A loop appends what its rounds append. -/
theorem appends_foldl {α : Type} {step : Reporter → α → Reporter}
    {text : α → Text} (h : ∀ a, Appends (step · a) (text a)) (as : List α) :
    Appends (fun r => as.foldl step r) (as.flatMap text) := by
  induction as with
  | nil => exact fun r => (List.append_nil r.output).symm
  | cons a as ih => exact (h a).comp ih

theorem appends_writeLine (text : Text) :
    Appends (writeLine · text) (text ++ [lf]) :=
  appends_write _

theorem appends_heading (heading : Text) :
    Appends (fun r => r.fail.writeLine heading) (heading ++ [lf]) :=
  appends_fail.comp (appends_writeLine heading)

theorem appends_writeFormat {format : Text} {args : List Text} {sentence : Text}
    (h : Format.Fills format args sentence) :
    Appends (writeFormat · format args) sentence := by
  intro r
  rw [← h.apply_eq]
  exact appends_write _ r

theorem appends_item (item : Text) :
    Appends (writeFormat · (utf8 "\t%s\n") [item]) (tab :: (item ++ [lf])) := by
  have hformat : utf8 "\t%s\n" = [tab, Format.percent, ascii 's', lf] := by decide
  apply appends_writeFormat
  rw [hformat]
  exact .literal (by decide) (.verbatim item (.literal (by decide) .nil))

/-- Whatever was reported before, an entry appends the same text. -/
theorem appends_perform (e : Entry) : Appends (perform · e) e.render := by
  cases e with
  | violation format args => exact appends_fail.comp (appends_write _)
  | list heading items =>
      exact (appends_heading heading).comp (appends_foldl appends_item items)
  | block heading text =>
      have hwritten := (appends_heading heading).comp (appends_write text)
      -- The reporter ends a line exactly if the text has left one open.
      have hopen : (!text.isEmpty && text.getLast? != some lf) = true ↔
          text ≠ [] ∧ ¬ text.EndsLine := by
        simp [EndsLine]
      intro r
      rw [Report.render_block]
      simp only [perform]
      by_cases h : text ≠ [] ∧ ¬ text.EndsLine
      · rw [if_pos (hopen.mpr h), if_pos h]
        exact hwritten.comp (appends_writeLine []) r
      · rw [if_neg (mt hopen.mp h), if_neg h, List.append_nil]
        exact hwritten r
  | compare heading rows =>
      exact ((appends_heading heading).comp (appends_write _)).comp
        (appends_writeLine [])

theorem appends_run (entries : List Entry) :
    Appends (run · entries) (Report.render entries) :=
  appends_foldl appends_perform entries

theorem failed_foldl {α : Type} {step : Reporter → α → Reporter}
    (h : ∀ r a, (step r a).failed = r.failed) (as : List α) (r : Reporter) :
    (as.foldl step r).failed = r.failed := by
  induction as generalizing r with
  | nil => rfl
  | cons a as ih => rw [List.foldl_cons, ih, h]

theorem failed_perform (r : Reporter) (e : Entry) :
    (r.perform e).failed = true := by
  cases e with
  | violation format args => rfl
  | list heading items =>
      have hitem : ∀ (r : Reporter) (item : Text),
          (r.writeFormat (utf8 "\t%s\n") [item]).failed = r.failed :=
        fun _ _ => rfl
      exact failed_foldl hitem items (r.fail.writeLine heading)
  | block heading text =>
      unfold perform
      simp only
      split
      · rfl
      · rfl
  | compare heading rows => rfl

theorem run_concat (r : Reporter) (entries : List Entry) (e : Entry) :
    r.run (entries ++ [e]) = (r.run entries).perform e :=
  List.foldl_concat perform r e entries

/-- A reporter has failed from its first entry on. -/
theorem failed_run_iff (received : Text) (entries : List Entry) :
    ((new received).run entries).failed = true ↔ entries ≠ [] := by
  rcases entries.eq_nil_or_concat' with rfl | ⟨before, e, rfl⟩
  · simp [run, new]
  · rw [run_concat]
    simp [failed_perform]

/-- The reports of an inspection are what a reporter writes, and it fails as the
reporter does. -/
theorem run_reports (received : Text) (es : List Event) :
    ((new received).run (Event.reports es)).output =
      received ++ Event.reportText es ∧
      ((new received).run (Event.reports es)).failed =
        (Inspection.ofEvents es).failed := by
  constructor
  · rw [appends_run, output_new]
    rfl
  · rw [Bool.eq_iff_iff, failed_run_iff, Inspection.ofEvents_failed_iff]

/-- **Entries never run together.** Let every sentence have as many arguments as
its format has holes, and let the stream have received something before.

* Each entry appends a text to the output, which is not empty and ends in a line
  feed. The text is that of the entry alone.
* The reporter has failed exactly from the first entry on.
* If the stream was at the beginning of a line, the lines of the output are the
  lines before and those of each entry, one after the other.
* Below its heading, a block is its text as it is. A line feed is added exactly
  if the text is not empty and does not end in one. -/
theorem run_entries_apart (received : Text) (entries : List Entry)
    (hfits : ∀ e ∈ entries, e.Fits) :
    (∀ before e, before ++ [e] <+: entries →
      ((new received).run (before ++ [e])).output =
        ((new received).run before).output ++ e.render ∧
        e.render ≠ [] ∧ e.render.EndsLine) ∧
    (∀ before, before <+: entries → (((new received).run before).failed = true ↔
      before ≠ [])) ∧
    (received.WholeLines → ((new received).run entries).output.terminated =
      received.terminated ++ entries.flatMap fun e => e.render.terminated) ∧
    ∀ heading text, (Entry.block heading text).render =
      heading ++ [lf] ++ text ++ if text ≠ [] ∧ ¬ text.EndsLine then
        [lf] else [] := by
  refine ⟨?_, fun before _ => failed_run_iff received before, ?_,
    Report.render_block⟩
  · intro before e hbefore
    have he : e ∈ entries :=
      hbefore.subset (List.mem_append_right before List.mem_cons_self)
    rw [run_concat]
    exact ⟨appends_perform e _, e.render_ne_nil,
      Entry.endsLine_render (hfits e he)⟩
  · intro hwhole
    rw [appends_run, output_new, hwhole.terminated_append,
      Report.terminated_render hfits]

/-! A sentence with a stray byte and a line feed in its arguments, a list
without items under an empty heading, a table with a cell of two lines, and a
block that is ended by the reporter. -/

theorem run_entries_apart_mixed :
    let before : List Entry :=
      [.violation (utf8 "%s: 100%% of %q") [[0xFF, lf], utf8 "a\nb"], .list [] [],
        .compare (utf8 "T:") [⟨utf8 "a\nb", []⟩]]
    let e : Entry := .block (utf8 "errors:") (utf8 "line 3")
    (∀ e' ∈ before ++ [e], e'.Fits) ∧
    ((new []).run (before ++ [e])).output = ((new []).run before).output ++
      utf8 "errors:\nline 3\n" ∧
    ((new []).run (before ++ [e])).output.terminated = (before ++ [e]).flatMap
      fun e => e.render.terminated := by
  intro before e
  have hfits : ∀ e' ∈ before ++ [e], e'.Fits := by decide +kernel
  have hrender : e.render = utf8 "errors:\nline 3\n" := by decide +kernel
  obtain ⟨happends, -, hlines, -⟩ := run_entries_apart [] (before ++ [e]) hfits
  obtain ⟨houtput, -, -⟩ := happends before e List.prefix_rfl
  rw [← hrender]
  exact ⟨hfits, houtput, hlines (Or.inl rfl)⟩

end Reporter

end ToolLint
