import ToolLint.Proofs.Pod.Command
import ToolLint.Proofs.Pod.Locality

/-!
# The commands of a text

A line is a command or not, whatever stands on the others (`Command.Spells`).
The lines before it only give the command its number: `numbered n` reads some
lines of which the first has the number `n`, and a text is read from the number
1 on. Lines can be read in two parts, the second with numbers that go on after
the first (`numbered_append`), and to begin with a higher number is to raise all
of them (`numbered_add`).
-/

namespace ToolLint

namespace Pod

namespace Command

/-- The line is a command with this name and argument: without one carriage
return at its end, it is an equals sign and the name, and then nothing, or a
blank and the argument. -/
def Spells (line name arg : Text) : Prop :=
  IsName name ∧ (line.dropCr = 0x3D :: name ∧ arg = [] ∨
    ∃ b, isSpaceOrTab b = true ∧ line.dropCr = 0x3D :: (name ++ b :: arg))

theorem read?_dropCr_iff {line name arg : Text} :
    read? line.dropCr = some (name, arg) ↔ Spells line name arg :=
  read?_eq_some_iff

theorem not_spells_iff {line : Text} :
    (∀ name arg, ¬ Spells line name arg) ↔ read? line.dropCr = none := by
  rw [Option.eq_none_iff_forall_ne_some, Prod.forall]
  simp only [← read?_dropCr_iff, ne_eq]

/-- The same command `k` lines further down. -/
def shift (k : Nat) (c : Command) : Command := { c with line := c.line + k }

theorem ofLine?_add (line : Text) (n k : Nat) :
    ofLine? line (n + k) = (ofLine? line n).map (shift k) := by
  unfold ofLine?
  cases read? line.dropCr <;> rfl

end Command

/-- The commands on some lines, of which the first has the number `n`. -/
def numbered (n : Nat) (ls : List Text) : List Command :=
  (ls.zipIdx n).filterMap fun p => Command.ofLine? p.1 p.2

theorem commands_eq_numbered (src : Text) : commands src = numbered 1 src.lines :=
  rfl

theorem numbered_append (n : Nat) (ls ms : List Text) :
    numbered n (ls ++ ms) = numbered n ls ++ numbered (n + ls.length) ms := by
  rw [numbered, List.zipIdx_append, List.filterMap_append]
  rfl

theorem numbered_cons (n : Nat) (l : Text) (ls : List Text) :
    numbered n (l :: ls) = (Command.ofLine? l n).toList ++ numbered
      (n + 1) ls := by
  unfold numbered
  rw [List.zipIdx_cons, List.filterMap_cons]
  cases Command.ofLine? l n <;> rfl

theorem numbered_add (n k : Nat) (ls : List Text) :
    numbered (n + k) ls = (numbered n ls).map (Command.shift k) := by
  induction ls generalizing n with
  | nil => rfl
  | cons l ls ih =>
      rw [numbered_cons, numbered_cons, List.map_append, ← ih,
        Command.ofLine?_add, Option.toList_map, Nat.add_right_comm]

theorem numbered_eq_nil {ls : List Text}
    (h : ∀ line ∈ ls, ∀ name arg, ¬ Command.Spells line name arg) (n : Nat) :
    numbered n ls = [] := by
  rw [numbered, List.filterMap_eq_nil_iff]
  rintro ⟨line, i⟩ hmem
  have hnone :=
    Command.not_spells_iff.mp (h line (List.fst_mem_of_mem_zipIdx hmem))
  rw [Command.ofLine?, hnone, Option.map_none]

theorem mem_numbered_iff {n : Nat} {ls : List Text} {c : Command} :
    c ∈ numbered n ls ↔
      ∃ i line, ls[i]? = some line ∧ c.line = i + n ∧
        Command.Spells line c.name c.arg := by
  rw [numbered, List.mem_filterMap]
  constructor
  · rintro ⟨⟨line, j⟩, hmem, hc⟩
    obtain ⟨hle, hline⟩ := List.mk_mem_zipIdx_iff_le_and_getElem?_sub.mp hmem
    obtain ⟨⟨name, arg⟩, hread, rfl⟩ := Option.map_eq_some_iff.mp hc
    exact ⟨j - n, line, hline, (Nat.sub_add_cancel hle).symm,
      Command.read?_dropCr_iff.mp hread⟩
  · rintro ⟨i, line, hline, hnumber, hspells⟩
    refine ⟨(line, i + n), ?_, ?_⟩
    · rw [List.mk_mem_zipIdx_iff_le_and_getElem?_sub, Nat.add_sub_cancel]
      exact ⟨Nat.le_add_left n i, hline⟩
    · rw [Command.ofLine?, Command.read?_dropCr_iff.mpr hspells, Option.map_some,
        ← hnumber]

theorem line_of_mem_numbered {n : Nat} {ls : List Text} {c : Command}
    (h : c ∈ numbered n ls) : n ≤ c.line ∧ c.line < n + ls.length := by
  obtain ⟨i, line, hline, hnumber, -⟩ := mem_numbered_iff.mp h
  obtain ⟨hlt, -⟩ := List.getElem?_eq_some_iff.mp hline
  omega

/-- After a line feed the text is read on its own, but for the numbers. -/
theorem commands_append (src rest : Text) :
    commands (src ++ lf :: rest) = commands src ++ (commands rest).map
      (Command.shift (1 + src.count lf)) := by
  have hlines : (src ++ lf :: rest).lines = src.lines ++ rest.lines :=
    Text.split_append_cons_self lf src rest
  have hlength : src.lines.length = 1 + src.count lf := by
    rw [Text.lines, Text.length_split, Nat.add_comm]
  rw [commands_eq_numbered, hlines, numbered_append, numbered_add, hlength]
  rfl

/-- Lines that are no commands move the commands below them, and change nothing
else. -/
theorem numbered_insert {new : List Text}
    (h : ∀ line ∈ new, ∀ name arg, ¬ Command.Spells line name arg)
    (before after : List Text) :
    numbered 1 (before ++ (new ++ after)) = (numbered 1 (before ++ after)).map
      fun c =>
      if c.line ≤ before.length then c else c.shift new.length := by
  have hbefore : ∀ c ∈ numbered 1 before,
      (if c.line ≤ before.length then c else c.shift new.length) = id c := by
    intro c hc
    have hline := line_of_mem_numbered hc
    exact if_pos (by omega)
  have hafter : ∀ c ∈ numbered (1 + before.length) after,
      (if c.line ≤ before.length then c else c.shift new.length) =
        c.shift new.length := by
    intro c hc
    have hline := line_of_mem_numbered hc
    exact if_neg (by omega)
  rw [numbered_append, numbered_append, numbered_eq_nil h, List.nil_append,
    numbered_append, List.map_append, List.map_congr_left hbefore,
    List.map_congr_left hafter, List.map_id, numbered_add]

/-- **The commands of a text are the lines that spell one.**

* The commands are those that some line spells, with the number of this line,
  and they come in the order of the lines.
* After a line feed the commands of the rest follow, with numbers that go on.
* Lines that spell no command can be put between any two lines, or taken away.
  The commands before them stay as they are, and those after them are moved. -/
theorem commands_exact (src : Text) :
    (∀ c, c ∈ commands src ↔
      ∃ i line, (src.splitOn lf)[i]? = some line ∧ c.line = i + 1 ∧
        Command.Spells line c.name c.arg) ∧
    ((commands src).Pairwise fun c d => c.line < d.line) ∧
    (∀ rest, commands (src ++ lf :: rest) =
      commands src ++ (commands rest).map fun c =>
        { c with line := c.line + (1 + src.count lf) }) ∧
    ∀ (src' : Text) (before new after : List Text),
      src.splitOn lf = before ++ after →
      src'.splitOn lf = before ++ (new ++ after) →
      (∀ line ∈ new, ∀ name arg, ¬ Command.Spells line name arg) →
      commands src' = (commands src).map fun c =>
        if c.line ≤ before.length then c else
          { c with line := c.line + new.length } := by
  refine ⟨?_, commands_pairwise src, commands_append src, ?_⟩
  · intro c
    rw [commands_eq_numbered, Text.lines, Text.split_eq_splitOn]
    exact mem_numbered_iff
  · intro src' before new after hlines hlines' hnew
    rw [commands_eq_numbered, commands_eq_numbered, Text.lines, Text.lines,
      Text.split_eq_splitOn, Text.split_eq_splitOn, hlines, hlines']
    exact numbered_insert hnew before after

/-- The command `cut` is left out, also with an argument, and a name begins with
a letter. -/
theorem commands_exact_cut :
    commands (utf8 "=head1 A\r\n=cutX\t b ") = [⟨utf8 "head1", utf8 "A", 1⟩,
      ⟨utf8 "cutX", utf8 " b ", 2⟩] ∧
    commands (utf8 "=head1 A\r\n=cut b\n=1\n=cutX\t b ") =
      [⟨utf8 "head1", utf8 "A", 1⟩, ⟨utf8 "cutX", utf8 " b ", 4⟩] := by
  have hcommands : commands (utf8 "=head1 A\r\n=cutX\t b ") =
      [⟨utf8 "head1", utf8 "A", 1⟩, ⟨utf8 "cutX", utf8 " b ", 2⟩] := by
        decide +kernel
  obtain ⟨-, -, -, hinsert⟩ := commands_exact (utf8 "=head1 A\r\n=cutX\t b ")
  refine ⟨hcommands, ?_⟩
  rw [hinsert (utf8 "=head1 A\r\n=cut b\n=1\n=cutX\t b ") [utf8 "=head1 A\r"]
      [utf8 "=cut b", utf8 "=1"] [utf8 "=cutX\t b "] (by decide +kernel) (by decide +kernel) ?_,
    hcommands]
  · decide +kernel
  · rw [List.forall_mem_cons, List.forall_mem_singleton, Command.not_spells_iff,
      Command.not_spells_iff]
    exact ⟨rfl, rfl⟩

end Pod

end ToolLint
