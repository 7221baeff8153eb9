import ToolLint.Check.Options
import ToolLint.Program.Script
import ToolLint.Proofs.Activity
import ToolLint.Proofs.Text.Decimal
import ToolLint.Proofs.Text.Lines
import Mathlib.Algebra.Order.BigOperators.Group.List
import Mathlib.Algebra.Order.Group.Nat
import Mathlib.Data.List.Forall2

/-!
# Searches that succeed

The search program gets a good pattern and a file that is there: then the count
that comes back through its output is the number of lines that match
(`Search.countIn_eq`), and the counts of several patterns add up
(`Check.occurrences_eq`) unless there are more lines than a 64-bit number can
count. A text in memory is never that long, and `Grep.matching_length_mul_le`
bounds the number of lines by the length of the text. The lines themselves come
back without their carriage returns, up to the first that is too long
(`Search.linesIn_eq`).

Nothing of this depends on the language in which patterns are written.
-/

namespace ToolLint

/-! ## Lines of a file -/

namespace Grep

/-- The lines of a file are those of its content, up to an empty one at the end.
-/
theorem exists_mem_fileLines_iff {P : Text → Prop} (hP : ¬ P [])
    (content : Text) :
    (∃ line ∈ fileLines content, P line) ↔ ∃ line ∈ content.lines, P line := by
  unfold fileLines Text.dropLastIf
  split
  · rename_i hlast
    obtain ⟨s, rfl⟩ := List.getLast?_eq_some_iff.mp hlast
    rw [List.dropLast_concat, Text.lines, Text.lines, Text.split_append_self]
    constructor
    · rintro ⟨line, hline, h⟩
      exact ⟨line, List.mem_append_left _ hline, h⟩
    · rintro ⟨line, hline, h⟩
      rcases List.mem_append.mp hline with hline | hline
      · exact ⟨line, hline, h⟩
      · obtain rfl := List.mem_singleton.mp hline
        exact absurd h hP
  · exact Iff.rfl

theorem filter_fileLines {p : Text → Bool} (hp : p [] = false) (content : Text) :
    (fileLines content).filter p = content.lines.filter p := by
  unfold fileLines Text.dropLastIf
  split
  · rename_i hlast
    obtain ⟨s, rfl⟩ := List.getLast?_eq_some_iff.mp hlast
    rw [List.dropLast_concat, Text.lines, Text.lines, Text.split_append_self,
      List.filter_append]
    simp [hp]
  · rfl

theorem matching_ne_nil_iff {p : Pattern} {lines : List Text} :
    0 < (matching p lines).length ↔ ∃ line ∈ lines,
      p.found line.chars = true := by
  rw [matching, List.length_pos_iff_exists_mem]
  simp only [List.mem_filter]

/-- Every part ends with a separator, if one is added at the end of the text. -/
theorem sum_length_split (sep : UInt8) (s : Text) :
    ((Text.split sep s).map fun part => part.length + 1).sum = s.length + 1 := by
  induction s with
  | nil => rfl
  | cons b s ih =>
      by_cases hb : b = sep
      · subst hb
        rw [Text.split_cons_self, List.map_cons, List.sum_cons, ih,
          List.length_cons]
        simp only [List.length_nil]
        omega
      · obtain ⟨part, rest, h, h'⟩ := Text.split_cons_of_ne hb s
        rw [h, List.map_cons, List.sum_cons] at ih
        rw [h', List.map_cons, List.sum_cons, List.length_cons, List.length_cons]
        omega

/-- There are not many lines with at least `k` bytes in a short text. -/
theorem matching_length_mul_le {p : Pattern} {k : Nat}
    (hp : ∀ line : Text, p.found line.chars = true → k ≤ line.length)
    (content : Text) :
    (matching p (fileLines content)).length * (k + 1) ≤ content.length + 1 := by
  -- A line that matches takes `k` bytes and its line feed from the length of
  -- the text.
  have hsum : ∀ lines : List Text,
      (matching p lines).length * (k + 1) ≤
        (lines.map fun line => line.length + 1).sum := by
    intro lines
    induction lines with
    | nil => exact Nat.le_of_eq (Nat.zero_mul _)
    | cons line lines ih =>
        rw [List.map_cons, List.sum_cons]
        by_cases h : p.found line.chars = true
        · have hlength := hp line h
          rw [matching, List.filter_cons_of_pos (by simpa using h),
            List.length_cons, Nat.succ_mul, ← matching]
          omega
        · rw [matching, List.filter_cons_of_neg (by simpa using h), ← matching]
          omega
  have hlines := hsum (fileLines content)
  rw [fileLines, Text.lines, sum_length_split, ← Text.lines, ← fileLines]
    at hlines
  have hdrop := Text.length_dropLastIf_le lf content
  omega

/-- A file has not more lines than bytes, except that an empty one has one line.
-/
theorem length_fileLines_le (content : Text) :
    (fileLines content).length ≤ max 1 content.length := by
  rcases List.eq_nil_or_concat content with rfl | ⟨s, b, rfl⟩
  · decide
  · rw [List.concat_eq_append]
    have hcount : s.count lf ≤ s.length := List.count_le_length
    -- The last byte is the line feed that is dropped, or it ends no line.
    have hlines : (fileLines (s ++ [b])).length = s.count lf + 1 := by
      unfold fileLines Text.dropLastIf
      rw [List.getLast?_concat]
      by_cases hb : b = lf
      · rw [if_pos (congrArg some hb), List.dropLast_concat, Text.lines,
          Text.length_split]
      · rw [if_neg fun h => hb (Option.some.inj h), Text.lines, Text.length_split,
          List.count_append, List.count_singleton, if_neg (by simpa using hb),
          Nat.add_zero]
    rw [hlines, List.length_append, List.length_singleton]
    omega

theorem lf_notMem_of_mem_fileLines {content line : Text}
    (h : line ∈ fileLines content) : lf ∉ line :=
  Text.notMem_of_mem_split h

/-! ## A call of the search program -/

/-- The lines of a file that match a written pattern. -/
def hits (content pattern : Text) : List Text :=
  match Pattern.read pattern with
  | .ok p => matching p (fileLines content)
  | .error _ => []

theorem patterns_eq_ok {pattern : Text} {p : Pattern}
    (h : Pattern.read pattern = .ok p) :
    patterns pattern = .ok fun line => p.found line.chars := by
  simp only [patterns, h]

theorem hits_eq {pattern : Text} {p : Pattern}
    (h : Pattern.read pattern = .ok p) (content : Text) :
    hits content pattern = (fileLines content).filter fun line =>
      p.found line.chars := by
  simp only [hits, h, matching]

def countFlag (count : Bool) : List Text := if count then [utf8 "-c"] else []

theorem read_args {pattern path : Text} (hpath : path ≠ []) (count : Bool) :
    Request.empty.read ([utf8 "-E"] ++ countFlag count ++
        [utf8 "-e", pattern, utf8 "--", path]) =
      ⟨count, pattern, path⟩ := by
  have hE : utf8 "-c" ≠ utf8 "-E" := by decide
  have hc : utf8 "-e" ≠ utf8 "-E" ∧ utf8 "-e" ≠ utf8 "-c" := by decide
  have hdash : utf8 "--" ≠ utf8 "-E" ∧ utf8 "--" ≠ utf8 "-c" ∧
      utf8 "--" ≠ utf8 "-e" := by decide
  cases count <;> simp [countFlag, Request.read, Request.empty, hE, hc,
    hdash, hpath]

theorem run_args {language : Language} {files : Files}
    {pattern path content : Text} {test : Text → Bool}
    (hpattern : language pattern = .ok test)
    (hfile : files.read path = .ok content) (count : Bool) :
    run language files ([utf8 "-E"] ++ countFlag count ++
        [utf8 "-e", pattern, utf8 "--", path]) =
      answer count ((fileLines content).filter test) := by
  have hpath : path ≠ [] := by
    rintro rfl
    cases hfile
  unfold run
  rw [read_args hpath]
  simp only [hpattern, hfile]

/-- Whether or not anything was found, the exit status tells of no trouble. -/
theorem answer_exit (count : Bool) (found : List Text) :
    ¬ 1 < (answer count found).exit := by
  unfold answer
  simp only
  split <;> decide

/-- What is printed for lines is read back as these lines, each without one
carriage return at its end. The first one that does not fit ends the reading. -/
theorem delivered_answer {found : List Text} (h : ∀ line ∈ found, lf ∉ line) :
    (answer false found).output.delivered =
      ⟨(found.takeWhile Text.fits).map Text.dropCr,
        found.any fun line => !line.fits⟩ := by
  by_cases hnil : found = []
  · subst hnil
    rfl
  · have houtput : (answer false found).output = Text.unlines found ++ [lf] := by
      simp [answer, hnil]
    rw [Text.delivered, houtput, Text.terminated_unlines hnil h]

end Grep

/-- The script says nothing of the search program, so that one searches the
files at hand. -/
def Script.LeavesSearch (s : Script) : Prop :=
  s.panics.lookup Search.program = none ∧
  s.failures.lookup Search.program = none ∧
    s.results.lookup Search.program = none

theorem Script.leavesSearch_empty : Script.empty.LeavesSearch := ⟨rfl, rfl, rfl⟩

namespace Search

def countCall (path pattern : Text) : List Text :=
  [program, utf8 "-E", utf8 "-c", utf8 "-e", pattern, utf8 "--", path]

def linesCall (path pattern : Text) : List Text :=
  [program, utf8 "-E", utf8 "-e", pattern, utf8 "--", path]

section Languages

variable {language : Grep.Language} {script : Script} {files : Files}
  {pattern path content : Text}
  {test : Text → Bool}

theorem programsIn_run (hscript : script.LeavesSearch) (args : List Text) :
    (script.programsIn language files).run program args =
      ⟨[.call (program :: args)], .ok (Grep.run language files args)⟩ := by
  have hbase : Path.base program = program := by decide
  obtain ⟨hpanics, hfailures, hresults⟩ := hscript
  have hanswer : script.answer language files program args =
      .ok (Grep.run language files args) := by
    unfold Script.answer
    simp only [hbase, hpanics, hfailures, hresults]
    rfl
  show (⟨_, script.answer language files program args⟩ : Activity Outcome) = _
  rw [hanswer]

/-- The output of the search program, for a good pattern and a file that is
there. -/
theorem runIn_eq (hscript : script.LeavesSearch)
    (hfile : files.read path = .ok content)
    (hpattern : language pattern = .ok test) (count : Bool) :
    run (script.programsIn language files) (Grep.countFlag count) pattern path =
      ⟨[.call (program :: ([utf8 "-E"] ++ Grep.countFlag count ++
          [utf8 "-e", pattern, utf8 "--", path]))],
        .ok (Grep.answer count
          ((Grep.fileLines content).filter test)).output⟩ := by
  unfold run
  rw [programsIn_run hscript, Grep.run_args hpattern hfile]
  simp only [Activity.andThen, Grep.answer_exit, if_false, Activity.done,
    List.append_nil]

/-- The number of lines survives the way through the output of the search
program. -/
theorem readCount_answer {found : List Text}
    (h : found.length < Decimal.halfModulus) (pattern : Text) :
    readCount pattern (Grep.answer true found).output =
      .ok (found.length : Int) := by
  have houtput : (Grep.answer true found).output = Decimal.ofNat found.length ++
      [lf] := rfl
  unfold readCount
  rw [houtput, Decimal.trim_ofNat_lf, Decimal.read_ofNat h]

/-- **A count is the number of lines that match.** -/
theorem countIn_eq (hscript : script.LeavesSearch)
    (hfile : files.read path = .ok content)
    (hpattern : language pattern = .ok test)
    (hfits : ((Grep.fileLines content).filter test).length <
      Decimal.halfModulus) :
    count (script.programsIn language files) pattern path =
      ⟨[.call (countCall path pattern)],
        .ok (((Grep.fileLines content).filter test).length : Int)⟩ := by
  have hrun : run (script.programsIn language files) [utf8 "-c"] pattern path =
      ⟨[.call (countCall path pattern)],
        .ok (Grep.answer true ((Grep.fileLines content).filter test)).output⟩ :=
    runIn_eq hscript hfile hpattern true
  unfold count
  rw [hrun]
  simp only [Activity.andThen, readCount_answer hfits, Activity.ofExcept,
    Activity.done]
  rfl

/-- **The lines that match come back**, each without one carriage return at its
end, up to the first that is too long. -/
theorem linesIn_eq (hscript : script.LeavesSearch)
    (hfile : files.read path = .ok content)
    (hpattern : language pattern = .ok test) :
    lines (script.programsIn language files) pattern path =
      ⟨[.call (linesCall path pattern)],
        .ok ⟨(((Grep.fileLines content).filter test).takeWhile Text.fits).map
          Text.dropCr,
          ((Grep.fileLines content).filter test).any fun line =>
            !line.fits⟩⟩ := by
  have hlf : ∀ line ∈ (Grep.fileLines content).filter test, lf ∉ line :=
    fun line hline => Grep.lf_notMem_of_mem_fileLines
      (List.mem_of_mem_filter hline)
  have hrun : run (script.programsIn language files) [] pattern path =
      ⟨[.call (linesCall path pattern)],
        .ok (Grep.answer false ((Grep.fileLines content).filter test)).output⟩ :=
    runIn_eq hscript hfile hpattern false
  unfold lines
  rw [hrun]
  simp only [Activity.andThen, Grep.delivered_answer hlf, Activity.done]
  rfl

/-- If no line is too long, all of them come back, and else none. -/
theorem allLinesIn_eq (hscript : script.LeavesSearch)
    (hfile : files.read path = .ok content)
    (hpattern : language pattern = .ok test) :
    allLines (script.programsIn language files) pattern path =
      ⟨[.call (linesCall path pattern)],
        if ∀ line ∈ (Grep.fileLines content).filter test, line.fits = true then
          .ok (((Grep.fileLines content).filter test).map Text.dropCr)
        else .error (.error .overlongLine)⟩ := by
  unfold allLines
  rw [linesIn_eq hscript hfile hpattern]
  by_cases hfits : ∀ line ∈ (Grep.fileLines content).filter test, line.fits = true
  · have hany :
        (((Grep.fileLines content).filter test).any fun line => !line.fits) =
          false := by
      rw [List.any_eq_false]
      intro line hline
      simp [hfits line hline]
    rw [if_pos hfits, List.takeWhile_eq_self_iff.mpr hfits]
    simp [Activity.andThen, Activity.done, hany]
  · have hany :
        (((Grep.fileLines content).filter test).any fun line => !line.fits) =
          true := by
      simpa using hfits
    rw [if_neg hfits]
    simp [Activity.andThen, Activity.error, Activity.fail, hany]

end Languages

variable {script : Script} {files : Files} {path content : Text}

theorem count_eq {pattern : Text} {p : Pattern} (hscript : script.LeavesSearch)
    (hfile : files.read path = .ok content)
    (hpattern : Pattern.read pattern = .ok p)
    (hfits : (Grep.hits content pattern).length < Decimal.halfModulus) :
    count (script.programs files) pattern path =
      ⟨[.call (countCall path pattern)],
        .ok ((Grep.hits content pattern).length : Int)⟩ := by
  rw [Grep.hits_eq hpattern] at hfits ⊢
  exact countIn_eq hscript hfile (Grep.patterns_eq_ok hpattern) hfits

/-- Two files with as many lines that match give the same count, even one that
is too large to be read. -/
theorem count_congr {files' : Files} {content' pattern : Text} {p : Pattern}
    (hscript : script.LeavesSearch) (hfile : files.read path = .ok content)
    (hfile' : files'.read path = .ok content')
    (hpattern : Pattern.read pattern = .ok p)
    (hlength : (Grep.hits content' pattern).length =
      (Grep.hits content pattern).length) :
    count (script.programs files') pattern path =
      count (script.programs files) pattern path := by
  have houtput : ∀ found : List Text, (Grep.answer true found).output =
      Decimal.ofNat found.length ++ [lf] :=
    fun _ => rfl
  have hrun := runIn_eq hscript hfile (Grep.patterns_eq_ok hpattern) true
  have hrun' := runIn_eq hscript hfile' (Grep.patterns_eq_ok hpattern) true
  rw [Grep.hits_eq hpattern, Grep.hits_eq hpattern] at hlength
  rw [houtput, hlength, ← houtput, ← hrun] at hrun'
  exact congrArg (Activity.andThen · fun output =>
    .ofExcept (readCount pattern output)) hrun'

/-- If no line is too long, all of them come back. -/
theorem allLines_eq {pattern : Text} {p : Pattern}
    (hscript : script.LeavesSearch) (hfile : files.read path = .ok content)
    (hpattern : Pattern.read pattern = .ok p)
    (hfits : ∀ line ∈ Grep.hits content pattern, line.fits = true) :
    allLines (script.programs files) pattern path =
      ⟨[.call (linesCall path pattern)],
        .ok ((Grep.hits content pattern).map Text.dropCr)⟩ := by
  have hall := allLinesIn_eq hscript hfile (Grep.patterns_eq_ok hpattern)
  rw [← Grep.hits_eq hpattern, if_pos hfits] at hall
  exact hall

/-! ## From end to end -/

/-- **Searches are faithful from end to end.** The search program understands
patterns in some language, the pattern is good there, and the file is there;
either may be any word, also one that looks like an option. `found` are the
lines of the file that match.

* A count is their number. (The length of a file is a 64-bit integer.)
* If each of them has at most 65535 bytes, all of them come back in order, each
  without one carriage return at its end, and there is no error. So the count is
  the number of lines that come back.
* Otherwise there is a first one that is longer. Those before it come back, with
  the error that a line is too long. -/
theorem search_faithful (language : Grep.Language) (script : Script)
    (files : Files) (pattern path content : Text) (test : Text → Bool)
    (hscript : script.LeavesSearch) (hfile : files.read path = .ok content)
    (hpattern : language pattern = .ok test) :
    let programs := script.programsIn language files
    let found := (Text.dropLastIf lf content).lines.filter test
    let call : Event := .call (linesCall path pattern)
    (content.length < Decimal.halfModulus →
      count programs pattern path = ⟨[.call (countCall path pattern)],
        .ok found.length⟩) ∧
    ((∀ line ∈ found, line.length ≤ 65535) →
      lines programs pattern path = ⟨[call], .ok ⟨found.map Text.dropCr, false⟩⟩ ∧
      allLines programs pattern path = ⟨[call], .ok (found.map Text.dropCr)⟩ ∧
      (content.length < Decimal.halfModulus →
        (count programs pattern path).result =
          .ok ((found.map Text.dropCr).length : Int))) ∧
    (¬ (∀ line ∈ found, line.length ≤ 65535) →
      ∃ before long after, found = before ++ long :: after ∧
        (∀ line ∈ before, line.length ≤ 65535) ∧
        65535 < long.length ∧
        lines programs pattern path = ⟨[call],
          .ok ⟨before.map Text.dropCr, true⟩⟩ ∧
        allLines programs pattern path = ⟨[call],
          .error (.error .overlongLine)⟩) ∧
    Error.overlongLine.message = utf8 "bufio.Scanner: token too long" := by
  intro programs found call
  have hcount : content.length < Decimal.halfModulus →
      count programs pattern path = ⟨[.call (countCall path pattern)],
        .ok found.length⟩ := by
    intro hlength
    have hfound : found.length ≤ max 1 content.length :=
      Nat.le_trans (List.length_filter_le _ _) (Grep.length_fileLines_le content)
    exact countIn_eq hscript hfile hpattern
      (Nat.lt_of_le_of_lt hfound (Nat.max_lt.mpr ⟨by decide, hlength⟩))
  have hlines : lines programs pattern path =
      ⟨[call], .ok ⟨(found.takeWhile Text.fits).map Text.dropCr,
        found.any fun line => !line.fits⟩⟩ :=
    linesIn_eq hscript hfile hpattern
  have hall : allLines programs pattern path =
      ⟨[call], if ∀ line ∈ found, line.fits = true then
        .ok (found.map Text.dropCr)
        else .error (.error .overlongLine)⟩ :=
    allLinesIn_eq hscript hfile hpattern
  simp only [← Text.fits_iff]
  refine ⟨hcount, ?_, ?_, rfl⟩
  · intro hfits
    have hany : (found.any fun line => !line.fits) = false := by
      rw [List.any_eq_false]
      intro line hline
      simp [hfits line hline]
    refine ⟨?_, ?_, ?_⟩
    · rw [hlines, List.takeWhile_eq_self_iff.mpr hfits, hany]
    · rw [hall, if_pos hfits]
    · intro hlength
      rw [hcount hlength, List.length_map]
  · intro hnot
    obtain ⟨before, long, after, hfound, hbefore, hlong⟩ :=
      Text.exists_first_overlong hnot
    have hany : (found.any fun line => !line.fits) = true := by
      simpa using hnot
    refine ⟨before, long, after, hfound, hbefore, ?_, ?_, ?_⟩
    · rw [← Nat.not_le, ← Text.fits_iff, hlong]
      exact Bool.false_ne_true
    · rw [hlines, hany, hfound, Text.takeWhile_fits hbefore hlong]
    · rw [hall, if_neg hnot]

/-! A pattern and a path that look like options, and a file with a carriage
return and without a line feed at its end; and a file with one line that is too
long by one byte. -/

theorem search_faithful_options :
    let content := utf8 "x-c\r\n-e\n-c"
    let programs :=
      Script.empty.programsIn Grep.patterns
        (.ofPaths (utf8 "/w") [(utf8 "--", content)] [])
    let long := List.replicate 65536 (ascii 'x')
    let others := Script.empty.programsIn (fun _ => .ok fun _ => true)
      (.ofPaths (utf8 "/w") [(utf8 "-e", long)] [])
    (count programs (utf8 "-c") (utf8 "--")).result = .ok 2 ∧
    (allLines programs (utf8 "-c") (utf8 "--")).result =
      .ok [utf8 "x-c", utf8 "-c"] ∧
    (allLines others (utf8 "--") (utf8 "-e")).result =
      .error (.error .overlongLine) := by
  intro content programs long others
  let p : Pattern := .all [.char (.single '-'), .char (.single 'c')]
  have hpattern : Grep.patterns (utf8 "-c") = .ok fun line =>
      p.found line.chars :=
    Grep.patterns_eq_ok (by decide +kernel)
  have hfound :
      (Text.dropLastIf lf content).lines.filter (fun line => p.found line.chars) =
      [utf8 "x-c\r", utf8 "-c"] := by decide +kernel
  obtain ⟨hcount, hshort, -, -⟩ := search_faithful Grep.patterns Script.empty
    (.ofPaths (utf8 "/w") [(utf8 "--", content)] []) (utf8 "-c")
    (utf8 "--") content _
    Script.leavesSearch_empty (by decide +kernel) hpattern
  rw [hfound] at hcount hshort
  have hlong : lf ∉ long :=
    fun hmem => absurd (List.eq_of_mem_replicate hmem) (by decide)
  have hlines : ((Text.dropLastIf lf long).lines.filter fun _ => true) =
      [long] := by
    have hdrop : Text.dropLastIf lf long = long := by
      unfold Text.dropLastIf
      exact if_neg fun hlast => hlong (List.mem_of_getLast? hlast)
    have hsplit := Text.split_join (List.cons_ne_nil long [])
      (List.forall_mem_singleton.mpr hlong)
    rw [hdrop, Text.lines, List.filter_true]
    simpa [Text.join] using hsplit
  obtain ⟨-, -, hover, -⟩ :=
    search_faithful (fun _ => .ok fun _ => true) Script.empty
    (.ofPaths (utf8 "/w") [(utf8 "-e", long)] []) (utf8 "--") (utf8 "-e") long _
    Script.leavesSearch_empty rfl rfl
  rw [hlines] at hover
  have hlength : long.length = 65536 := List.length_replicate
  have hnot : ¬ ∀ line ∈ [long], line.length ≤ 65535 := by
    rw [List.forall_mem_singleton, hlength]
    decide
  obtain ⟨before, first, after, -, -, -, -, herror⟩ := hover hnot
  refine ⟨?_, ?_, ?_⟩
  · rw [hcount (by decide +kernel)]
    rfl
  · rw [(hshort (by decide +kernel)).2.1]
    decide +kernel
  · rw [herror]

end Search

/-! ## Several counts -/

theorem wrapSum_eq {a b : Nat} (h : a + b < Decimal.halfModulus) :
    wrapSum a b = ((a + b : Nat) : Int) := by
  have h' : a + b < 0x8000000000000000 := h
  unfold wrapSum Decimal.modulus
  rw [Int.bmod_eq_of_le] <;> omega

theorem foldl_wrapSum {ns : List Nat} {a : Nat}
    (h : a + ns.sum < Decimal.halfModulus) :
    (ns.map fun n : Nat => (n : Int)).foldl wrapSum a =
      ((a + ns.sum : Nat) : Int) := by
  induction ns generalizing a with
  | nil => rfl
  | cons n ns ih =>
      rw [List.sum_cons, ← Nat.add_assoc] at h ⊢
      rw [List.map_cons, List.foldl_cons,
        wrapSum_eq (Nat.lt_of_le_of_lt (Nat.le_add_right _ _) h), ih h]

/-- The counts of several patterns add up. -/
theorem Check.occurrences_eq {script : Script} {files : Files}
    {path content : Text} {patterns : List Text} (hscript : script.LeavesSearch)
    (hfile : files.read path = .ok content)
    (hpatterns : ∀ pattern ∈ patterns, ∃ p, Pattern.read pattern = .ok p)
    (hfits : (patterns.map fun pattern => (Grep.hits content pattern).length).sum
      < Decimal.halfModulus) :
    occurrences (script.programs files) path patterns =
      ⟨patterns.map fun pattern => .call (Search.countCall path pattern),
        .ok ((patterns.map fun pattern =>
          (Grep.hits content pattern).length).sum : Nat)⟩ := by
  have heach :
      Activity.each (fun pattern =>
        Search.count (script.programs files) pattern path) patterns =
      ⟨patterns.flatMap fun pattern => [.call (Search.countCall path pattern)],
        .ok (patterns.map fun pattern =>
          ((Grep.hits content pattern).length : Int))⟩ := by
    apply Activity.each_eq
    intro pattern hmem
    obtain ⟨p, hp⟩ := hpatterns pattern hmem
    refine Search.count_eq hscript hfile hp (Nat.lt_of_le_of_lt ?_ hfits)
    exact List.le_sum_of_mem (List.mem_map_of_mem hmem)
  have hsum := foldl_wrapSum (a := 0) (by rwa [Nat.zero_add])
  rw [List.map_map, Nat.zero_add] at hsum
  unfold occurrences
  rw [Activity.bind_eq, heach]
  simp only [Activity.andThen, Activity.pure_eq, Activity.done, List.append_nil]
  rw [← hsum, ← List.map_eq_flatMap]
  rfl

/-! ## What several patterns find -/

namespace Grep

/-- A written pattern finds the lines of which `P` holds. -/
def Finds (pattern : Text) (P : Text → Prop) : Prop :=
  ∃ p, Pattern.read pattern = .ok p ∧
    ∀ line : Text, p.found line.chars = true ↔ P line

variable {pattern : Text} {P : Text → Prop} {patterns : List Text}
  {Ps : List (Text → Prop)}

theorem Finds.hits_pos_iff (h : Finds pattern P) (hP : ¬ P []) (content : Text) :
    0 < (hits content pattern).length ↔ ∃ line ∈ content.lines, P line := by
  obtain ⟨p, hread, hp⟩ := h
  rw [hits_eq hread, ← matching, matching_ne_nil_iff,
    ← exists_mem_fileLines_iff hP]
  simp only [hp]

theorem Finds.hits_mul_le {k : Nat} (h : Finds pattern P)
    (hlong : ∀ line, P line → k ≤ line.length) (content : Text) :
    (hits content pattern).length * (k + 1) ≤ content.length + 1 := by
  obtain ⟨p, hread, hp⟩ := h
  rw [hits_eq hread]
  exact matching_length_mul_le (fun line h => hlong line ((hp line).mp h)) content

/-- Something is counted if and only if a pattern finds a line. -/
theorem sum_hits_pos_iff (h : List.Forall₂ Finds patterns Ps)
    (hPs : ∀ P ∈ Ps, ¬ P []) (content : Text) :
    0 < (patterns.map fun pattern => (hits content pattern).length).sum ↔
      ∃ P ∈ Ps, ∃ line ∈ content.lines, P line := by
  induction h with
  | nil => simp
  | cons hfinds _ ih =>
      obtain ⟨hP, hPs⟩ := List.forall_mem_cons.mp hPs
      rw [List.map_cons, List.sum_cons, Nat.add_pos_iff_pos_or_pos, ih hPs,
        hfinds.hits_pos_iff hP]
      simp only [List.mem_cons, exists_eq_or_imp]

/-- Patterns that find long lines only do not find many of them. -/
theorem sum_hits_mul_le {k : Nat} (h : List.Forall₂ Finds patterns Ps)
    (hlong : ∀ P ∈ Ps, ∀ line, P line → k ≤ line.length) (content : Text) :
    (patterns.map fun pattern => (hits content pattern).length).sum * (k + 1) ≤
      patterns.length * (content.length + 1) := by
  induction h with
  | nil => simp
  | cons hfinds _ ih =>
      obtain ⟨hP, hPs⟩ := List.forall_mem_cons.mp hlong
      have hhead := hfinds.hits_mul_le hP content
      have htail := ih hPs
      rw [List.map_cons, List.sum_cons, List.length_cons, Nat.add_mul,
        Nat.succ_mul]
      omega

theorem Finds.exists_read (h : List.Forall₂ Finds patterns Ps) :
    ∀ pattern ∈ patterns, ∃ p, Pattern.read pattern = .ok p := by
  induction h with
  | nil => simp
  | cons hfinds _ ih =>
      obtain ⟨p, hread, -⟩ := hfinds
      exact List.forall_mem_cons.mpr ⟨⟨p, hread⟩, ih⟩

end Grep

/-- **Patterns are counted in a text that is held in memory.** If none of them
finds a line that is shorter than there are patterns, the lines can be counted,
and the count tells whether a pattern finds one. -/
theorem Check.occurrences_of_finds {script : Script} {files : Files}
    {path content : Text} {patterns : List Text} {Ps : List (Text → Prop)}
    (hscript : script.LeavesSearch) (hfile : files.read path = .ok content)
    (hfits : content.length < Decimal.halfModulus)
    (h : List.Forall₂ Grep.Finds patterns Ps)
    (hlong : ∀ P ∈ Ps, ∀ line, P line → patterns.length ≤ line.length) :
    ∃ n : Nat,
      occurrences (script.programs files) path patterns =
        ⟨patterns.map fun pattern => .call (Search.countCall path pattern),
          .ok n⟩ ∧
      (0 < n ↔ ∃ P ∈ Ps, ∃ line ∈ content.lines, P line) := by
  have hbound := Grep.sum_hits_mul_le h hlong content
  have hempty : ∀ P ∈ Ps, ¬ P [] := by
    intro P hP hnil
    have hnone : patterns.length = 0 := Nat.le_zero.mp (hlong P hP [] hnil)
    rw [h.length_eq, List.length_eq_zero_iff] at hnone
    rw [hnone] at hP
    exact List.not_mem_nil hP
  have hsum :
      (patterns.map fun pattern => (Grep.hits content pattern).length).sum <
      Decimal.halfModulus := by
    by_contra hge
    have hmul := Nat.mul_le_mul_right (patterns.length + 1)
      (Nat.le_of_not_lt fun hle =>
        hge (Nat.lt_of_le_of_lt (Nat.le_of_lt_succ hle) hfits))
    rw [Nat.mul_comm (content.length + 1), Nat.succ_mul] at hmul
    omega
  exact ⟨_, occurrences_eq hscript hfile (Grep.Finds.exists_read h) hsum,
    Grep.sum_hits_pos_iff h hempty content⟩

end ToolLint
