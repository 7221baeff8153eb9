import ToolLint.Proofs.Text.Lines
import ToolLint.Proofs.Text.Pieces
import ToolLint.Report
import Mathlib.Data.List.Forall2
import Mathlib.Order.Bounds.Basic

/-!
# Tables that are read back

A table sets two columns of cells side by side. The widths depend on all rows at
once, and a cell may be empty or have blanks in it, so a line alone does not
tell where its second cell begins. The header line does: its two titles are
known. A table of plain cells is read back by cutting every line at the column
of the second title and leaving out the blanks at the two ends
(`readTable_render`).
-/

namespace ToolLint

/-! ## Bytes that take one column -/

/-- A printable ASCII byte. -/
def isGraphic (b : UInt8) : Bool := 0x20 ≤ b && b ≤ 0x7E

theorem isGraphic_iff {b : UInt8} :
    isGraphic b = true ↔ 0x20 ≤ b.toNat ∧ b.toNat ≤ 0x7E := by
  rw [isGraphic, Bool.and_eq_true, decide_eq_true_eq, decide_eq_true_eq,
    UInt8.le_iff_toNat_le, UInt8.le_iff_toNat_le]
  exact Iff.rfl

theorem isAscii_of_isGraphic {b : UInt8} (hb : isGraphic b = true) :
    IsAscii b := by
  have hrange := isGraphic_iff.mp hb
  show b.toNat < 0x80
  omega

theorem notMem_of_isGraphic {b : UInt8} {s : Text} (hb : isGraphic b = false)
    (hs : ∀ c ∈ s, isGraphic c = true) : b ∉ s := by
  intro hmem
  rw [hs b hmem] at hb
  cases hb

theorem charWidth_byteChar {b : UInt8} (hb : isGraphic b = true) :
    charWidth (byteChar b) = 1 := by
  obtain ⟨hlow, hhigh⟩ := isGraphic_iff.mp hb
  have hshown : ¬ (b.toNat < 0x20 ∨ (0x7F ≤ b.toNat ∧ b.toNat ≤ 0x9F) ∨
      b.toNat = 0xAD) := by omega
  have hlatin : b.toNat < 0x300 := by omega
  simp only [charWidth, byteChar_toNat]
  rw [if_neg (by simpa [or_assoc] using hshown), if_pos (by simp [hlatin])]

theorem clusterClass_byteChar {b : UInt8} (hb : isGraphic b = true) :
    ClusterClass.of (byteChar b) = .other := by
  obtain ⟨hlow, hhigh⟩ := isGraphic_iff.mp hb
  have hcontrol : controlRanges.has b.toNat = false := by
    simp only [CodeRanges.has, controlRanges, List.any_toArray, List.any_cons,
      List.any_nil, Bool.or_false, Bool.or_eq_false_iff, Bool.and_eq_false_iff,
      decide_eq_false_iff_not]
    omega
  simp only [ClusterClass.of, byteChar_toNat]
  rw [if_neg (by omega), if_neg (by simp [hcontrol]), if_pos (by omega)]

namespace WidthState

/-- No cluster goes on with a printable ASCII character. -/
def Closed (s : WidthState) : Prop :=
  s.cluster = .start .control ∨ s.cluster = .start .other

theorem push_byteChar {s : WidthState} (hs : s.Closed) {b : UInt8}
    (hb : isGraphic b = true) :
    s.push (byteChar b) = ⟨s.total + 1, .start .other, 1⟩ := by
  have hjoins : s.cluster.joins .other = false := by
    rcases hs with hs | hs
    · rw [hs]
      rfl
    · rw [hs]
      rfl
  simp only [push, clusterClass_byteChar hb, charWidth_byteChar hb, hjoins]
  rfl

theorem total_foldl_push {s : WidthState} (hs : s.Closed) {w : Text}
    (hw : ∀ b ∈ w, isGraphic b = true) :
    ((w.map byteChar).foldl push s).total = s.total + w.length := by
  induction w generalizing s with
  | nil => rfl
  | cons b w ih =>
      obtain ⟨hb, hw⟩ := List.forall_mem_cons.mp hw
      rw [List.map_cons, List.foldl_cons, push_byteChar hs hb, ih (Or.inr rfl) hw,
        List.length_cons]
      show s.total + 1 + w.length = s.total + (w.length + 1)
      omega

end WidthState

namespace Text

/-- Without an escape nothing is taken out. -/
theorem withoutSequencesFrom_eq {s : Text} (h : 0x1B ∉ s) (fuel : Nat)
    (kept : Text) : withoutSequencesFrom fuel kept s = kept.reverse ++ s := by
  induction fuel generalizing kept s with
  | zero => rfl
  | succ fuel ih =>
      cases s with
      | nil => exact (List.append_nil _).symm
      | cons b s =>
          obtain ⟨hb, hs⟩ := List.ne_and_not_mem_of_not_mem_cons h
          have hnone : afterSequence? (b :: s) = none := by
            unfold afterSequence?
            split
            · rename_i heq
              exact absurd (List.cons.inj heq).1.symm hb
            · rfl
          rw [withoutSequencesFrom, hnone]
          simp only [ih hs, List.reverse_cons, List.append_assoc,
            List.singleton_append]

/-- **A printable ASCII text takes as many columns as it has bytes.** -/
theorem width_eq_length {s : Text} (h : ∀ b ∈ s, isGraphic b = true) :
    s.width = s.length := by
  have hescape : (0x1B : UInt8) ∉ s := notMem_of_isGraphic rfl h
  have hascii : ∀ b ∈ s, IsAscii b := fun b hb => isAscii_of_isGraphic (h b hb)
  rw [width, withoutSequences, withoutSequencesFrom_eq hescape, List.reverse_nil,
    List.nil_append, charsWidth, chars_word hascii,
    WidthState.total_foldl_push (Or.inl rfl) h]
  exact Nat.zero_add _

theorem eq_space_of_mem_blanks {n : Nat} {b : UInt8} (hb : b ∈ blanks n) :
    b = space :=
  List.eq_of_mem_replicate hb

end Text

namespace Comparison

open Text (blanks dropWhileEnd)

/-! ## Cells -/

/-- A cell that can be read back: printable ASCII without a blank at its end. It
may be empty. -/
def IsPlain (cell : Text) : Prop :=
  cell.all isGraphic = true ∧ cell.getLast? ≠ some space

instance (cell : Text) : Decidable (IsPlain cell) :=
  inferInstanceAs (Decidable (_ ∧ _))

def PlainRow (row : Row) : Prop := IsPlain row.actual ∧ IsPlain row.correct

instance (row : Row) : Decidable (PlainRow row) :=
  inferInstanceAs (Decidable (_ ∧ _))

theorem isPlain_actualTitle : IsPlain actualTitle := by decide

theorem isPlain_correctTitle : IsPlain correctTitle := by decide

theorem IsPlain.isGraphic {cell : Text} (h : IsPlain cell) :
    ∀ b ∈ cell, isGraphic b = true :=
  List.all_eq_true.mp h.1

theorem IsPlain.lf_notMem {cell : Text} (h : IsPlain cell) : lf ∉ cell :=
  notMem_of_isGraphic rfl h.isGraphic

theorem IsPlain.lines_eq {cell : Text} (h : IsPlain cell) : cell.lines = [cell] :=
  Text.split_of_notMem h.lf_notMem

theorem IsPlain.width_eq {cell : Text} (h : IsPlain cell) :
    cell.width = cell.length :=
  Text.width_eq_length h.isGraphic

/-- The blanks after a cell can be told from the cell. -/
theorem IsPlain.dropWhileEnd_append {cell : Text} (h : IsPlain cell) (n : Nat) :
    dropWhileEnd (· == space) (cell ++ blanks n) = cell := by
  apply Text.dropWhileEnd_append
  · intro b hb
    rw [beq_eq_false_iff_ne]
    rintro rfl
    exact h.2 hb
  · intro b hb
    exact beq_iff_eq.mpr (Text.eq_space_of_mem_blanks hb)

/-- A column is as wide as the widest of its cells and its title. -/
theorem isGreatest_columnWidth {title : Text} {cells : List Text}
    (hcells : ∀ cell ∈ cells, IsPlain cell) :
    IsGreatest {n | ∃ cell ∈ title :: cells, cell.width = n}
      (columnWidth title cells) := by
  have hlines : cells.flatMap Text.lines = cells := by
    rw [List.flatMap_congr fun cell hcell => (hcells cell hcell).lines_eq]
    exact List.flatMap_singleton' cells
  have hmax : ((title :: cells).map Text.width).max? =
      some (columnWidth title cells) := by
    rw [columnWidth, hlines, List.map_cons, List.max?_cons']
  obtain ⟨hmem, hle⟩ := List.max?_eq_some_iff.mp hmax
  constructor
  · exact List.mem_map.mp hmem
  · rintro n ⟨cell, hcell, rfl⟩
    exact hle _ (List.mem_map_of_mem hcell)

theorem length_le_columnWidth {title cell : Text} {cells : List Text}
    (hcells : ∀ cell ∈ cells, IsPlain cell) (hcell : IsPlain cell)
    (hmem : cell ∈ title :: cells) : cell.length ≤ columnWidth title cells := by
  rw [← hcell.width_eq]
  exact (isGreatest_columnWidth hcells).2 ⟨cell, hmem, rfl⟩

/-! ## Lines -/

/-- The line shows two cells with blanks after each, and the second one begins
at the given column. -/
def Shows (column : Nat) (left right line : Text) : Prop :=
  ∃ m n, line = left ++ blanks m ++ right ++ blanks n ∧ left.length + m = column

theorem exists_shows_line {left right : Text} {width : Nat}
    (hleft : IsPlain left) (hright : IsPlain right)
    (hwidth : left.length ≤ width) (width' margin : Nat) :
    ∃ text, line width width' margin (left, right) = text ++ [lf] ∧
      Shows (width + 2) left right text ∧ lf ∉ text := by
  have hblanks : ∀ n, lf ∉ blanks n := by
    intro n hmem
    exact absurd (Text.eq_space_of_mem_blanks hmem) (by decide)
  refine ⟨left ++ blanks (width - left.length + 2) ++ right ++ blanks
    (width' - right.length + margin), ?_,
    ⟨_, _, rfl, by omega⟩, ?_⟩
  · simp only [line, pad, hleft.width_eq, hright.width_eq, blanks,
      ← List.replicate_append_replicate, List.append_assoc]
  · simp only [List.mem_append, not_or]
    exact ⟨⟨⟨hleft.lf_notMem, hblanks _⟩, hright.lf_notMem⟩, hblanks _⟩

/-! ## Reading -/

/-- The cells of a line whose second cell begins at the given column. -/
def readRow (column : Nat) (line : Text) : Row :=
  ⟨dropWhileEnd (· == space) (line.take column),
    dropWhileEnd (· == space) (line.drop column)⟩

/-- The column of the second title in a header line. -/
def titleColumn (header : Text) : Nat :=
  actualTitle.length +
    ((header.drop actualTitle.length).takeWhile (· == space)).length

/-- The rows of a table below its heading. The last line is empty. -/
def readTable (text : Text) : List Row :=
  match text.lines with
  | _ :: header :: rest =>
    (rest.dropLast.dropLast).map (readRow (titleColumn header))
  | _ => []

theorem Shows.readRow_eq {column : Nat} {row : Row} {line : Text}
    (hrow : PlainRow row) (h : Shows column row.actual row.correct line) :
    readRow column line = row := by
  obtain ⟨m, n, rfl, hcolumn⟩ := h
  have hlength : (row.actual ++ blanks m).length = column := by
    rw [List.length_append, blanks, List.length_replicate, hcolumn]
  unfold readRow
  rw [List.append_assoc, List.take_left' hlength, List.drop_left' hlength,
    hrow.1.dropWhileEnd_append, hrow.2.dropWhileEnd_append]

theorem map_readRow {column : Nat} {rows : List Row} {body : List Text}
    (hrows : ∀ row ∈ rows, PlainRow row)
    (h : List.Forall₂ (fun row text => Shows column row.actual row.correct text)
      rows body) :
    body.map (readRow column) = rows := by
  induction h with
  | nil => rfl
  | cons hshows _ ih =>
      obtain ⟨hrow, hrows⟩ := List.forall_mem_cons.mp hrows
      rw [List.map_cons, hshows.readRow_eq hrow, ih hrows]

theorem Shows.titleColumn_eq {column : Nat} {header : Text}
    (h : Shows column actualTitle correctTitle header) :
    titleColumn header = column := by
  obtain ⟨m, n, rfl, hcolumn⟩ := h
  have hblank : ∀ b ∈ blanks m, (b == space) = true :=
    fun b hb => beq_iff_eq.mpr (Text.eq_space_of_mem_blanks hb)
  have hletter : ∀ b ∈ (correctTitle ++ blanks n).head?,
      (b == space) = false := by
    rintro _ ⟨rfl⟩
    decide
  unfold titleColumn
  rw [List.append_assoc, List.append_assoc, List.drop_left,
    Text.takeWhile_append_of_head hblank hletter, blanks, List.length_replicate,
    hcolumn]

/-! ## The table -/

section Table

variable {rows : List Row} (hrows : ∀ row ∈ rows, PlainRow row)

include hrows

theorem isPlain_of_mem_actual : ∀ cell ∈ rows.map Row.actual, IsPlain cell := by
  intro cell hcell
  obtain ⟨row, hrow, rfl⟩ := List.mem_map.mp hcell
  exact (hrows row hrow).1

/-- The line of each row. -/
theorem exists_shows_rows {width : Nat}
    (hwidth : ∀ row ∈ rows, row.actual.length ≤ width) (width' : Nat) :
    ∃ body,
      List.Forall₂ (fun row text => Shows (width + 2) row.actual row.correct text)
        rows body ∧
      (∀ text ∈ body, lf ∉ text) ∧
      (rows.flatMap fun row =>
        (besides row.actual.lines row.correct.lines).flatMap
          (line width width' 2)) =
        body.flatMap (· ++ [lf]) := by
  induction rows with
  | nil => exact ⟨[], List.Forall₂.nil, by simp, rfl⟩
  | cons row rows ih =>
      obtain ⟨⟨hactual, hcorrect⟩, hrows⟩ := List.forall_mem_cons.mp hrows
      obtain ⟨hlength, hwidth⟩ := List.forall_mem_cons.mp hwidth
      obtain ⟨body, hbody, hlf, heq⟩ := ih hrows hwidth
      obtain ⟨text, htext, hshows, hnot⟩ :=
        exists_shows_line hactual hcorrect hlength width' 2
      have hbesides :
          besides [row.actual] [row.correct] = [(row.actual, row.correct)] := rfl
      refine ⟨text :: body, List.Forall₂.cons hshows hbody,
        List.forall_mem_cons.mpr ⟨hnot, hlf⟩, ?_⟩
      rw [List.flatMap_cons, List.flatMap_cons, heq, hactual.lines_eq,
        hcorrect.lines_eq, hbesides, List.flatMap_singleton, htext]

/-- The heading, the header line, a line for each row, and an empty line. -/
theorem lines_render {heading : Text} (hheading : lf ∉ heading) :
    ∃ header body, (Report.Entry.compare heading rows).render.lines =
      heading :: header :: (body ++ [[], []]) ∧
      Shows (columnWidth actualTitle (rows.map Row.actual) + 2) actualTitle
        correctTitle header ∧
      List.Forall₂ (fun row text =>
        Shows (columnWidth actualTitle (rows.map Row.actual) + 2) row.actual
          row.correct text) rows body := by
  have hactual := isPlain_of_mem_actual hrows
  have htitle :=
    length_le_columnWidth hactual isPlain_actualTitle List.mem_cons_self
  have hwidth : ∀ row ∈ rows,
      row.actual.length ≤ columnWidth actualTitle (rows.map Row.actual) :=
    fun row hrow => length_le_columnWidth hactual (hrows row hrow).1
      (List.mem_cons_of_mem _ (List.mem_map_of_mem hrow))
  obtain ⟨header, hheader, hshows, hnot⟩ :=
    exists_shows_line isPlain_actualTitle isPlain_correctTitle htitle
    (columnWidth correctTitle (rows.map Row.correct)) 1
  obtain ⟨body, hbody, hlf, heq⟩ :=
    exists_shows_rows hrows hwidth
      (columnWidth correctTitle (rows.map Row.correct))
  refine ⟨header, body, ?_, hshows, hbody⟩
  have hrender : (Report.Entry.compare heading rows).render =
      (heading :: header :: body).flatMap (· ++ [lf]) ++ [lf] := by
    simp only [Report.Entry.render, render, hheader, heq, List.flatMap_cons,
      List.append_assoc]
  have hlines : ∀ text ∈ heading :: header :: body, lf ∉ text :=
    List.forall_mem_cons.mpr ⟨hheading, List.forall_mem_cons.mpr ⟨hnot, hlf⟩⟩
  rw [hrender, Text.lines_flatMap_append hlines]
  rfl

/-- **A table of plain cells is read back.** -/
theorem readTable_render {heading : Text} (hheading : lf ∉ heading) :
    readTable (Report.Entry.compare heading rows).render = rows := by
  obtain ⟨header, body, hlines, hheader, hbody⟩ := lines_render hrows hheading
  have hempty : (body ++ [[], []]).dropLast.dropLast = body := by
    rw [← List.singleton_append, ← List.append_assoc, List.dropLast_concat,
      List.dropLast_concat]
  simp only [readTable, hlines, hheader.titleColumn_eq, hempty,
    map_readRow hrows hbody]

end Table

/-- **A table loses nothing.** Let the heading be one line, and let all cells be
printable ASCII without a blank at their ends.

* Under the same heading, tables of different rows are different texts.
* Below the heading there are one header line, one line for each row, and an
  empty line. All of them but the last have their second cell at the same
  column, which is two past the widest of the first cells, the title included.
  -/
theorem compare_lossless (heading : Text) (rows : List Row)
    (hheading : lf ∉ heading) (hrows : ∀ row ∈ rows, PlainRow row) :
    (∀ rows', (∀ row ∈ rows', PlainRow row) →
      (Report.Entry.compare heading rows').render =
        (Report.Entry.compare heading rows).render → rows' = rows) ∧
    ∃ widest header body,
      IsGreatest {n | ∃ cell ∈ actualTitle :: rows.map Row.actual, cell.width = n}
        widest ∧
      (Report.Entry.compare heading rows).render.lines = heading :: header ::
        (body ++ [[], []]) ∧
      body.length = rows.length ∧
      Shows (widest + 2) actualTitle correctTitle header ∧
      List.Forall₂ (fun row text =>
        Shows (widest + 2) row.actual row.correct text) rows body := by
  constructor
  · intro rows' hrows' heq
    rw [← readTable_render hrows' hheading, heq, readTable_render hrows hheading]
  · obtain ⟨header, body, hlines, hheader, hbody⟩ := lines_render hrows hheading
    exact ⟨_, header, body, isGreatest_columnWidth (isPlain_of_mem_actual hrows),
      hlines, hbody.length_eq.symm,
      hheader, hbody⟩

/-! A first cell that is wider than its title and has blanks in it, and two
cells that are empty. -/

theorem compare_lossless_blanks :
    let rows : List Row := [⟨utf8 "AS  IS ALSO", []⟩, ⟨[], utf8 "  X"⟩]
    (∀ row ∈ rows, PlainRow row) ∧
    ∀ rows', (∀ row ∈ rows', PlainRow row) →
      (Report.Entry.compare (utf8 "T:") rows').render =
        utf8 "T:\nACTUAL       CORRECT \nAS  IS ALSO           \n               X      \n\n" →
      rows' = rows := by
  intro rows
  have hrows : ∀ row ∈ rows, PlainRow row := by decide
  have hrender : (Report.Entry.compare (utf8 "T:") rows).render =
      utf8 "T:\nACTUAL       CORRECT \nAS  IS ALSO           \n               X      \n\n" := by decide +kernel
  rw [← hrender]
  exact ⟨hrows, (compare_lossless (utf8 "T:") rows (by decide) hrows).1⟩

end Comparison

end ToolLint
