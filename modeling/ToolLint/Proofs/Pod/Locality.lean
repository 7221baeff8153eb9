import ToolLint.Proofs.Pod.Forest
import Mathlib.Data.List.Nodup

/-!
# Closed sections

A section is closed by the next heading that is not deeper than its own. From
there on, nothing can be added to it: the entries of a text that is cut there
are those of its two parts (`entries_append`), and so are the trees of a forest
if the second part begins with a heading that is not deeper than any of the
first (`nest_append`). A root is such a heading (`exists_append_of_mem_nest`),
so what stands before it, below it and behind its section can be told apart
(`nest_root`).
-/

namespace ToolLint

namespace Pod

/-! ## Commands that close a section -/

/-- Nothing in these commands belongs to an open section of the given level: the
first heading or option among them, if there is one, is a heading that is not
deeper. -/
def Closes (level : Nat) : List Command → Prop
  | [] => True
  | c :: cmds =>
    match headingLevel? c.name with
    | some l => l ≤ level
    | none => c.option? = none ∧ Closes level cmds

theorem closes_of_heading {level l : Nat} {c : Command}
    (hc : headingLevel? c.name = some l) (hl : l ≤ level) (cmds : List Command) :
    Closes level (c :: cmds) := by
  rw [Closes, hc]
  exact hl

theorem push_of_heading {c : Command} {l : Nat}
    (hc : headingLevel? c.name = some l) (done : List Entry) :
    Entry.push done c = ⟨c.arg.trim, l, c.line, []⟩ :: done := by
  simp [Entry.push, Entry.ofCommand?, hc]

/-- What is open stays in front of what was done before. -/
theorem push_append (e : Entry) (es done : List Entry) (c : Command) :
    ∃ d ds, Entry.push (e :: es) c = d :: ds ∧ Entry.push (e :: es ++ done) c =
      d :: ds ++ done := by
  unfold Entry.push Entry.ofCommand?
  cases headingLevel? c.name with
  | some l => exact ⟨_, _, rfl, rfl⟩
  | none =>
      cases c.option? with
      | some o => exact ⟨_, _, rfl, rfl⟩
      | none => exact ⟨_, _, rfl, rfl⟩

theorem foldl_push_append (e : Entry) (es done : List Entry)
    (cmds : List Command) :
    cmds.foldl Entry.push (e :: es ++ done) = cmds.foldl Entry.push (e :: es) ++
      done := by
  induction cmds generalizing e es with
  | nil => rfl
  | cons c cmds ih =>
      obtain ⟨d, ds, hpush, hpush'⟩ := push_append e es done c
      rw [List.foldl_cons, List.foldl_cons, hpush, hpush', ih]

/-- Commands that close a section leave what was done before as it is. -/
theorem foldl_push_of_closes {level : Nat} {cmds : List Command}
    (h : Closes level cmds) (done : List Entry) :
    cmds.foldl Entry.push done = cmds.foldl Entry.push [] ++ done := by
  induction cmds with
  | nil => rfl
  | cons c cmds ih =>
      rw [List.foldl_cons, List.foldl_cons]
      cases hc : headingLevel? c.name with
      | some l =>
          rw [push_of_heading hc, push_of_heading hc]
          exact foldl_push_append _ [] done cmds
      | none =>
          rw [Closes, hc] at h
          have hquiet : ∀ done, Entry.push done c = done := by
            intro done
            simp [Entry.push, Entry.ofCommand?, hc, h.1]
          rw [hquiet, hquiet, ih h.2]

theorem entries_append {level : Nat} {b : List Command} (h : Closes level b)
    (a : List Command) : entries (a ++ b) = entries a ++ entries b := by
  rw [entries, List.foldl_append, foldl_push_of_closes h, List.reverse_append]
  rfl

theorem headings_of_closes {level : Nat} {cmds : List Command}
    (h : Closes level cmds) : ∀ x ∈ (headings cmds).head?, x.2 ≤ level := by
  induction cmds with
  | nil => simp [headings]
  | cons c cmds ih =>
      rw [Closes] at h
      cases hc : headingLevel? c.name with
      | some l =>
          rw [hc] at h
          simpa [headings, hc] using h
      | none =>
          rw [hc] at h
          have hskip : headings (c :: cmds) = headings cmds := by
            simp [headings, hc]
          rw [hskip]
          exact ih h.2

/-- The first entry after a closed section is not deeper than it. -/
theorem level_le_of_closes {level : Nat} {cmds : List Command}
    (h : Closes level cmds) : ∀ d ∈ (entries cmds).head?, d.level ≤ level := by
  intro d hd
  have htitle : (entries cmds).head?.map Entry.title =
      (headings cmds).head?.map titleOf := by
    rw [← List.head?_map, ← List.head?_map, entries_title]
  rw [Option.mem_def.mp hd, Option.map_some, eq_comm, Option.map_eq_some_iff]
    at htitle
  obtain ⟨x, hx, heq⟩ := htitle
  have hlevel : x.2 = d.level := congrArg Prod.fst heq
  rw [← hlevel]
  exact headings_of_closes h x hx

/-! ## Lines -/

/-- Commands are found in the order of their lines. -/
theorem commands_pairwise (src : Text) :
    (commands src).Pairwise fun a b => a.line < b.line := by
  have hzip : ∀ (ls : List Text) (n : Nat), (ls.zipIdx n).Pairwise fun a b =>
      a.2 < b.2 := by
    intro ls
    induction ls with
    | nil => intro n; exact List.Pairwise.nil
    | cons l ls ih =>
        intro n
        rw [List.zipIdx_cons, List.pairwise_cons]
        refine ⟨?_, ih (n + 1)⟩
        rintro ⟨x, i⟩ hx
        have := List.le_snd_of_mem_zipIdx hx
        simp only at this ⊢
        omega
  apply (hzip src.lines 1).filterMap
  rintro ⟨l, i⟩ ⟨l', i'⟩ hlt c hc c' hc'
  obtain ⟨r, -, rfl⟩ := Option.map_eq_some_iff.mp hc
  obtain ⟨r', -, rfl⟩ := Option.map_eq_some_iff.mp hc'
  exact hlt

/-- No two sections begin on the same line. -/
theorem entries_line_nodup (src : Text) :
    ((entries (commands src)).map Entry.line).Nodup := by
  have hlines : (entries (commands src)).map Entry.line =
      (headings (commands src)).map fun x => x.1.line := by
    have h := congrArg (List.map fun t : Nat × Nat × Text => t.2.1)
      (entries_title (commands src))
    rw [List.map_map, List.map_map] at h
    exact h
  have hpairwise :
      (headings (commands src)).Pairwise fun x y => x.1.line < y.1.line := by
    apply (commands_pairwise src).filterMap
    intro c c' hlt x hx x' hx'
    obtain ⟨l, -, rfl⟩ := Option.map_eq_some_iff.mp hx
    obtain ⟨l', -, rfl⟩ := Option.map_eq_some_iff.mp hx'
    exact hlt
  rw [hlines, List.Nodup, List.pairwise_map]
  exact hpairwise.imp fun h => Nat.ne_of_lt h

/-! ## Forests side by side -/

theorem takeWhile_append_of_closed {e : Entry} {es ds : List Entry}
    (h : ∀ d ∈ ds.head?, d.level ≤ e.level) :
    (es ++ ds).takeWhile (fun d => decide (e.level < d.level)) =
      es.takeWhile fun d => decide (e.level < d.level) := by
  induction es with
  | nil =>
      cases ds with
      | nil => rfl
      | cons d ds =>
          have hd : d.level ≤ e.level := h d rfl
          simp [Nat.not_lt.mpr hd]
  | cons x es ih =>
      rw [List.cons_append, List.takeWhile_cons, List.takeWhile_cons, ih]

theorem dropWhile_append_of_closed {e : Entry} {es ds : List Entry}
    (h : ∀ d ∈ ds.head?, d.level ≤ e.level) :
    (es ++ ds).dropWhile (fun d => decide (e.level < d.level)) =
      es.dropWhile (fun d => decide (e.level < d.level)) ++ ds := by
  have hall :=
    List.takeWhile_append_dropWhile (p := fun d => decide (e.level < d.level))
      (l := es ++ ds)
  rw [takeWhile_append_of_closed h] at hall
  rw [← List.append_right_inj (es.takeWhile fun d => decide (e.level < d.level)),
    hall, ← List.append_assoc, List.takeWhile_append_dropWhile]

/-- If the second of two parts begins with an entry that is not deeper than any
of the first, their forests stand side by side. -/
theorem nest_append (es ds : List Entry)
    (h : ∀ d ∈ ds.head?, ∀ e ∈ es, d.level ≤ e.level) :
    nest (es ++ ds) = nest es ++ nest ds := by
  fun_induction nest es with
  | case1 => rfl
  | case2 e rest ih₁ ih₂ =>
      have hclosed : ∀ d ∈ ds.head?, d.level ≤ e.level :=
        fun d hd => h d hd e List.mem_cons_self
      have hrest : ∀ d ∈ ds.head?, ∀ x ∈ rest.dropWhile fun d =>
          decide (e.level < d.level),
          d.level ≤ x.level := by
        intro d hd x hx
        exact h d hd x
          (List.mem_cons_of_mem e ((List.dropWhile_suffix _).subset hx))
      rw [List.cons_append, nest, takeWhile_append_of_closed hclosed,
        dropWhile_append_of_closed hclosed, ih₂ hrest]
      rfl

/-- A root is not deeper than any entry before it. -/
theorem exists_append_of_mem_nest {es : List Entry} {s : Section}
    (h : s ∈ nest es) :
    ∃ before after, es = before ++ s.entry :: after ∧ ∀ d ∈ before,
      s.level ≤ d.level := by
  have hsiblings := nest_pairwise es
  fun_induction nest es with
  | case1 => simp at h
  | case2 e rest ih₁ ih₂ =>
      rw [List.pairwise_cons] at hsiblings
      rcases List.mem_cons.mp h with rfl | h
      · exact ⟨[], rest, rfl, by simp⟩
      · obtain ⟨before, after, hafter, hbefore⟩ := ih₂ h hsiblings.2
        have hle : s.level ≤ e.level := hsiblings.1 s h
        refine ⟨e :: (rest.takeWhile (fun d => decide (e.level < d.level)) ++
          before), after, ?_, ?_⟩
        · rw [List.cons_append, List.append_assoc, ← hafter,
            List.takeWhile_append_dropWhile]
        · intro d hd
          rcases List.mem_cons.mp hd with rfl | hd
          · exact hle
          rcases List.mem_append.mp hd with hd | hd
          -- What `e` owns is deeper than `e`, and no root after `e` is.
          · have :=
              lt_of_mem_takeWhile (List.mem_map_of_mem (f := Entry.level) hd)
            exact Nat.le_of_lt (Nat.lt_of_le_of_lt hle this)
          · exact hbefore d hd

/-- The forest around a root: the trees before it, its own subsections, in which
nothing after its section has a part, and the trees after it. -/
theorem nest_root {before below after : List Entry} {e : Entry}
    (hroot : ∀ d ∈ before, e.level ≤ d.level)
    (hclosed : ∀ d ∈ after.head?, d.level ≤ e.level) :
    nest (before ++ e :: (below ++ after)) =
      nest before ++ .node e
        (nest (below.takeWhile fun d => decide (e.level < d.level))) ::
        nest (below.dropWhile (fun d => decide (e.level < d.level)) ++
          after) := by
  rw [nest_append before _ (by simpa using hroot), nest,
    takeWhile_append_of_closed hclosed, dropWhile_append_of_closed hclosed]

/-! ## Sections of a text -/

/-- An entry was opened by a heading on its line. -/
theorem exists_heading_of_mem_entries {cmds : List Command} {e : Entry}
    (h : e ∈ entries cmds) :
    ∃ c ∈ cmds, headingLevel? c.name = some e.level ∧ c.line = e.line := by
  have hmem : e.title ∈ (headings cmds).map titleOf := by
    rw [← entries_title]
    exact List.mem_map_of_mem h
  obtain ⟨x, hx, htitle⟩ := List.mem_map.mp hmem
  obtain ⟨c, hc, hlevel⟩ := List.mem_filterMap.mp hx
  obtain ⟨l, hl, rfl⟩ := Option.map_eq_some_iff.mp hlevel
  obtain ⟨hlevel, hline,
      -⟩ : l = e.level ∧ c.line = e.line ∧ c.arg.trim = e.name := by
    simpa [titleOf, Entry.title] using htitle
  exact ⟨c, hc, hlevel ▸ hl, hline⟩

/-- The command on the first line of a section is the heading that opens it. -/
theorem headingLevel?_of_line {src : Text} {s : Section} {o : Command}
    (hs : s ∈ sections (commands src)) (ho : o ∈ commands src)
    (hline : o.line = s.line) : headingLevel? o.name = some s.level := by
  rw [sections_eq] at hs
  obtain ⟨c, hc, hlevel, hcline⟩ :=
    exists_heading_of_mem_entries (mem_nest_level hs)
  have hlines : ((commands src).map Command.line).Nodup := by
    rw [List.Nodup, List.pairwise_map]
    exact (commands_pairwise src).imp fun h => Nat.ne_of_lt h
  obtain rfl : c = o :=
    List.inj_on_of_nodup_map hlines hc ho (hcline.trans hline.symm)
  exact hlevel

/-- A text is cut at a heading and where its section is closed: what stands
behind the section has no part in the entries before. -/
theorem exists_entries_eq {o : Command} {l : Nat}
    (ho : headingLevel? o.name = some l) (before inside : List Command) :
    ∃ e below, e.line = o.line ∧ e.level = l ∧ ∀ rest, Closes l rest →
      entries (before ++ o :: (inside ++ rest)) = entries before ++ e ::
        (below ++ entries rest) := by
  have htitle := entries_title (o :: inside)
  have hheadings : headings (o :: inside) = (o, l) :: headings inside := by
    simp [headings, ho]
  rw [hheadings, List.map_cons] at htitle
  obtain ⟨e, below, hbelow, he, -⟩ := List.map_eq_cons_iff.mp htitle
  obtain ⟨hlevel, hline,
      -⟩ : e.level = l ∧ e.line = o.line ∧ e.name = o.arg.trim := by
    simpa [titleOf, Entry.title] using he
  refine ⟨e, below, hline, hlevel, ?_⟩
  intro rest hrest
  rw [entries_append (closes_of_heading ho (Nat.le_refl l) _), ← List.cons_append,
    entries_append hrest, hbelow, List.cons_append]

/-- Lines tell the entries apart: a root on the line of an entry is that entry,
and no entry before it is deeper. -/
theorem root_of_line {before after : List Entry} {e : Entry} {s : Section}
    (hs : s ∈ nest (before ++ e :: after)) (hline : s.line = e.line)
    (hlines : ((before ++ e :: after).map Entry.line).Nodup) :
    s.entry = e ∧ e ∉ before ∧ ∀ d ∈ before, e.level ≤ d.level := by
  have hentry : s.entry = e :=
    List.inj_on_of_nodup_map hlines (mem_nest_level hs) (by simp) hline
  obtain ⟨-, hcons, hdisjoint⟩ := List.nodup_append.mp hlines.of_map
  have hbefore : e ∉ before := fun h => hdisjoint e h e List.mem_cons_self rfl
  obtain ⟨before', after', hsplit, hroot⟩ := exists_append_of_mem_nest hs
  rw [hentry, List.append_cons_inj_of_notMem hbefore (List.nodup_cons.mp hcons).1]
    at hsplit
  obtain ⟨rfl, -, -⟩ := hsplit
  exact ⟨hentry, hbefore, hentry ▸ hroot⟩

/-- The first root with its name is found with the subsections that it has
before its section is closed. -/
theorem find?_nest_root {before below after : List Entry} {e : Entry}
    {name : Text} (hfirst : ∀ t ∈ nest before, t.name ≠ name)
    (hname : e.name = name) (hroot : ∀ d ∈ before, e.level ≤ d.level)
    (hclosed : ∀ d ∈ after.head?, d.level ≤ e.level) :
    find? (nest (before ++ e :: (below ++ after))) name =
      some (.node e
        (nest (below.takeWhile fun d => decide (e.level < d.level)))) := by
  have hnone : ((nest before).find? fun t => t.name == name) = none := by
    rw [List.find?_eq_none]
    intro t ht
    simpa using hfirst t ht
  rw [find?, nest_root hroot hclosed, List.find?_append, hnone, Option.none_or]
  exact List.find?_cons_of_pos (beq_iff_eq.mpr hname)

/-- **A closed section is found again, whatever follows it.** The first root
with a given name stands between what comes before its heading and what closes
it. If something else that closes it stands there instead, the same section is
found. -/
theorem find?_sections_of_closes {src src' name : Text} {s : Section}
    {o : Command} {before inside rest rest' : List Command}
    (hs : find? (sections (commands src)) name = some s)
    (hcmds : commands src = before ++ o :: (inside ++ rest))
    (hline : o.line = s.line) (hrest : Closes s.level rest)
    (hcmds' : commands src' = before ++ o :: (inside ++ rest'))
    (hrest' : Closes s.level rest') :
    find? (sections (commands src')) name = some s := by
  have hmem : s ∈ sections (commands src) := List.mem_of_find?_eq_some hs
  have ho : headingLevel? o.name = some s.level :=
    headingLevel?_of_line hmem (by rw [hcmds]; simp) hline
  obtain ⟨e, below, heline, helevel, hentries⟩ :=
    exists_entries_eq ho before inside
  have hlines := entries_line_nodup src
  rw [sections_eq, hcmds, hentries rest hrest] at hs hmem
  rw [hcmds, hentries rest hrest] at hlines
  obtain ⟨hentry, hbefore, hroot⟩ :=
    root_of_line hmem (hline.symm.trans heline.symm) hlines
  have hname : e.name = name := by
    have hfound := List.find?_some (p := fun t : Section => t.name == name) hs
    rw [← hentry]
    exact beq_iff_eq.mp hfound
  have hclosed : ∀ r, Closes s.level r → ∀ d ∈ (entries r).head?,
      d.level ≤ e.level :=
    fun r hr => helevel ▸ level_le_of_closes hr
  have hfirst : ∀ t ∈ nest (entries before), t.name ≠ name := by
    intro t ht hname
    -- Then a section before the heading would have been found instead.
    have hsome :
        ((nest (entries before)).find? fun t => t.name == name).isSome := by
      rw [List.find?_isSome]
      exact ⟨t, ht, beq_iff_eq.mpr hname⟩
    obtain ⟨u, hu⟩ := Option.isSome_iff_exists.mp hsome
    rw [find?, nest_root hroot (hclosed rest hrest), List.find?_append, hu,
      Option.some_or] at hs
    obtain rfl := Option.some.inj hs
    exact hbefore (hentry ▸ mem_nest_level (List.mem_of_find?_eq_some hu))
  rw [find?_nest_root hfirst hname hroot (hclosed rest hrest)] at hs
  rw [sections_eq, hcmds', hentries rest' hrest',
    find?_nest_root hfirst hname hroot (hclosed rest' hrest'), hs]

end Pod

end ToolLint
