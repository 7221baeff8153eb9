import ToolLint.Proofs.Pod.Nesting

/-!
# The forest of headings

The sections of a list of commands are its headings again, in pre-order, and the
forest is the one that the levels ask for: a section lies below the nearest
heading before it with a smaller level.

The places of a forest are those of its pre-order, counted from 0.
`Section.parents` reads the place of every section's parent off the forest, and
`nearest` computes from the levels alone, looking back over the headings that
came before, where it should be. `parents_nest` is the induction that says they
agree. What was passed on the way back from a section is never looked at again
from a later sibling of it, which is why the forest can be cut into a first
section and the rest.
-/

namespace ToolLint

namespace Pod

def headings (cmds : List Command) : List (Command × Nat) :=
  cmds.filterMap fun c => (headingLevel? c.name).map fun level => (c, level)

/-! ## The pre-order -/

namespace Section

@[simp]
theorem preorderAll_nil : preorderAll [] = [] := by
  rw [preorderAll]

theorem preorderAll_cons (e : Entry) (subs rest : List Section) :
    preorderAll (.node e subs :: rest) = .node e subs ::
      (preorderAll subs ++ preorderAll rest) := by
  rw [preorderAll, preorder, List.cons_append]

theorem mem_preorderAll_of_mem {s : Section} {ss : List Section} (h : s ∈ ss) :
    s ∈ preorderAll ss := by
  induction ss with
  | nil => simp at h
  | cons t ss ih =>
      obtain ⟨e, subs⟩ := t
      rw [preorderAll_cons]
      rcases List.mem_cons.mp h with rfl | h
      · exact List.mem_cons_self
      · exact List.mem_cons_of_mem _ (List.mem_append_right _ (ih h))

end Section

/-- An entry owns a first part of those that follow it, and nothing is lost. -/
theorem preorderAll_nest (es : List Entry) :
    (Section.preorderAll (nest es)).map Section.entry = es := by
  fun_induction nest es with
  | case1 => simp
  | case2 e rest ih₁ ih₂ =>
      rw [Section.preorderAll_cons, List.map_cons, List.map_append, ih₁, ih₂,
        List.takeWhile_append_dropWhile]
      rfl

theorem preorderAll_sections (cmds : List Command) :
    (Section.preorderAll (sections cmds)).map Section.entry = entries cmds := by
  rw [sections_eq, preorderAll_nest]

theorem length_preorderAll_nest (es : List Entry) :
    (Section.preorderAll (nest es)).length = es.length := by
  rw [← List.length_map (f := Section.entry), preorderAll_nest]

/-! ## Entries and headings -/

/-- What a heading says of the section that it opens: level, line and name. -/
def titleOf (h : Command × Nat) : Nat × Nat × Text :=
  (h.2, h.1.line, h.1.arg.trim)

def Entry.title (e : Entry) : Nat × Nat × Text := (e.level, e.line, e.name)

theorem push_title (done : List Entry) (c : Command) :
    (Entry.push done c).map Entry.title = (headings [c]).map titleOf ++
      done.map Entry.title := by
  unfold Entry.push Entry.ofCommand?
  cases h : headingLevel? c.name with
  | some level => simp [headings, h, titleOf, Entry.title]
  | none =>
      have hnone : headings [c] = [] := by simp [headings, h]
      rw [hnone]
      cases c.option? with
      | none => rfl
      | some o => cases done <;> rfl

theorem foldl_push_title (done : List Entry) (cmds : List Command) :
    (cmds.foldl Entry.push done).map Entry.title =
      ((headings cmds).map titleOf).reverse ++ done.map Entry.title := by
  induction cmds generalizing done with
  | nil => rfl
  | cons c cmds ih =>
      have hcons : headings (c :: cmds) = headings [c] ++ headings cmds := by
        rw [← List.singleton_append]
        exact List.filterMap_append
      have hone :
          ((headings [c]).map titleOf).reverse = (headings [c]).map titleOf := by
        unfold headings
        cases h : headingLevel? c.name <;> simp [h]
      rw [List.foldl_cons, ih, push_title, hcons, List.map_append,
        List.reverse_append, hone, List.append_assoc]

/-- The entries are the headings, in order. Options change nothing in them. -/
theorem entries_title (cmds : List Command) :
    (entries cmds).map Entry.title = (headings cmds).map titleOf := by
  rw [entries, List.map_reverse, foldl_push_title]
  simp

/-! ## Parents -/

namespace Section

mutual

/-- The places of the parents of a section and of those below it, in pre-order,
if the section itself is at the place `i` below `parent`. -/
def parentsIn (parent : Option Nat) (i : Nat) : Section → List (Option Nat)
  | .node _ subs => parent :: parentsInAll (some i) (i + 1) subs

/-- The places of the parents in a part of a forest that begins at the place `i`
and lies below `parent`. -/
def parentsInAll (parent : Option Nat) (i : Nat) :
    List Section → List (Option Nat)
  | [] => []
  | s :: rest =>
    s.parentsIn parent i ++ parentsInAll parent (i + s.preorder.length) rest

end

/-- The place of the parent of every section of a forest, in pre-order; a root
has none. -/
def parents (roots : List Section) : List (Option Nat) :=
  parentsInAll none 0 roots

theorem parentsInAll_cons (parent : Option Nat) (i : Nat) (e : Entry)
    (subs rest : List Section) :
    parentsInAll parent i (.node e subs :: rest) =
      parent :: (parentsInAll (some i) (i + 1) subs ++
        parentsInAll parent (i + 1 + (preorderAll subs).length) rest) := by
  rw [parentsInAll, parentsIn, preorder, List.length_cons, List.cons_append,
    Nat.add_assoc i 1, Nat.add_comm 1]

theorem length_parentsInAll :
    ∀ (parent : Option Nat) (i : Nat) (ss : List Section),
    (parentsInAll parent i ss).length = (preorderAll ss).length
  | _, _, [] => by simp [parentsInAll]
  | parent, i, .node e subs :: rest => by
      rw [parentsInAll_cons, preorderAll_cons, List.length_cons,
        List.length_append, length_parentsInAll (some i) _ subs,
        length_parentsInAll parent _ rest, List.length_cons, List.length_append]

/-- Where a part of a forest gives a place for the parent of a section, the
section is one of those directly below the section at that place; where it gives
the `parent` of the whole part, the section is one of its roots. -/
theorem parentsInAll_getElem? :
    ∀ {parent : Option Nat} {i k : Nat} {ss : List Section} {r : Option Nat},
    (parentsInAll parent i ss)[k]? = some r →
      ∃ s, (preorderAll ss)[k]? = some s ∧
        (r = parent ∧ s ∈ ss ∨
          ∃ j p, r = some (i + j) ∧ (preorderAll ss)[j]? = some p ∧
            s ∈ p.subsections)
  | _, _, _, [], _, h => by simp [parentsInAll] at h
  | parent, i, 0, .node e subs :: rest, r, h => by
      rw [parentsInAll_cons] at h
      obtain rfl : parent = r := by simpa using h
      exact ⟨.node e subs, by rw [preorderAll_cons]; rfl,
        Or.inl ⟨rfl, List.mem_cons_self⟩⟩
  | parent, i, k + 1, .node e subs :: rest, r, h => by
      rw [parentsInAll_cons, List.getElem?_cons_succ, List.getElem?_append,
        length_parentsInAll] at h
      rw [preorderAll_cons]
      simp only [List.getElem?_cons_succ, List.getElem?_append]
      split at h
      · rename_i hk
        obtain ⟨s, hs, hr⟩ := parentsInAll_getElem? h
        refine ⟨s, by rwa [if_pos hk], Or.inr ?_⟩
        rcases hr with ⟨rfl, hmem⟩ | ⟨j, p, rfl, hp, hmem⟩
        · exact ⟨0, .node e subs, rfl, rfl, hmem⟩
        · refine ⟨j + 1, p, by congr 1; omega, ?_, hmem⟩
          have hj := (List.getElem?_eq_some_iff.mp hp).1
          rw [List.getElem?_cons_succ, List.getElem?_append_left hj]
          exact hp
      · rename_i hk
        obtain ⟨s, hs, hr⟩ := parentsInAll_getElem? h
        refine ⟨s, by rwa [if_neg hk], ?_⟩
        rcases hr with ⟨rfl, hmem⟩ | ⟨j, p, rfl, hp, hmem⟩
        · exact Or.inl ⟨rfl, List.mem_cons_of_mem _ hmem⟩
        · refine Or.inr ⟨(preorderAll subs).length + j + 1, p, by congr 1; omega,
            ?_, hmem⟩
          rw [List.getElem?_cons_succ,
            List.getElem?_append_right (Nat.le_add_right _ j),
            Nat.add_sub_cancel_left]
          exact hp

/-- A section is directly below its parent. -/
theorem mem_subsections_of_parents {roots : List Section} {i j : Nat}
    (h : (parents roots)[i]? = some (some j)) :
    ∃ s p, (preorderAll roots)[i]? = some s ∧ (preorderAll roots)[j]? = some p ∧
      s ∈ p.subsections := by
  obtain ⟨s, hs, ⟨hr, -⟩ | ⟨k, p, hr, hp, hmem⟩⟩ := parentsInAll_getElem? h
  · simp at hr
  · obtain rfl : j = k := by simpa using hr
    exact ⟨s, p, hs, hp, hmem⟩

/-- A section without a parent is a root. -/
theorem mem_roots_of_parents {roots : List Section} {i : Nat}
    (h : (parents roots)[i]? = some none) :
    ∃ s, (preorderAll roots)[i]? = some s ∧ s ∈ roots := by
  obtain ⟨s, hs, ⟨-, hmem⟩ | ⟨k, p, hr, -, -⟩⟩ := parentsInAll_getElem? h
  · exact ⟨s, hs, hmem⟩
  · simp at hr

end Section

/-- The place of the last of some earlier headings, given with their places and
the last one first, whose level is below `level`; `parent` if there is none. -/
def lastBelow (parent : Option Nat) (earlier : List (Nat × Nat)) (level : Nat) :
    Option Nat :=
  ((earlier.find? fun e => e.2 < level).map Prod.fst).or parent

/-- For each of some levels, from the place `i` on, the place of the last
earlier heading below it. -/
def nearest (parent : Option Nat) :
    List (Nat × Nat) → Nat → List Nat → List (Option Nat)
  | _, _, [] => []
  | earlier, i, level :: levels =>
    lastBelow parent earlier level :: nearest parent ((i, level) :: earlier)
      (i + 1) levels

/-- Levels with their places from `i` on, the last one first. -/
def passed (i : Nat) (levels : List Nat) : List (Nat × Nat) :=
  ((levels.zipIdx i).map fun e => (e.2, e.1)).reverse

theorem nearest_append (parent : Option Nat) (earlier : List (Nat × Nat))
    (i : Nat) (as bs : List Nat) :
    nearest parent earlier i (as ++ bs) =
      nearest parent earlier i as ++ nearest parent (passed i as ++ earlier)
        (i + as.length) bs := by
  induction as generalizing earlier i with
  | nil => rfl
  | cons a as ih =>
      rw [List.cons_append, nearest, ih, nearest, List.cons_append]
      simp [passed, Nat.add_assoc, Nat.add_comm 1]

/-- Levels that are all larger than that of a heading never look past it, so it
might as well be the parent of all that is looked at. -/
theorem nearest_of_deeper {parent : Option Nat} {i l j : Nat}
    (earlier : List (Nat × Nat)) {levels : List Nat} (h : ∀ x ∈ levels, l < x) :
    nearest parent (earlier ++ [(i, l)]) j levels =
      nearest (some i) earlier j levels := by
  induction levels generalizing earlier j with
  | nil => rfl
  | cons x levels ih =>
      have hx : l < x := h x List.mem_cons_self
      have hhead : lastBelow parent (earlier ++ [(i, l)]) x =
          lastBelow (some i) earlier x := by
        unfold lastBelow
        rw [List.find?_append]
        cases earlier.find? fun e => decide (e.2 < x) <;> simp [hx]
      rw [nearest, nearest, hhead, ← List.cons_append,
        ih _ fun y hy => h y (List.mem_cons_of_mem x hy)]

/-- Headings are hidden from a level if a nearer one is below it, or none of
them is. Hidden headings might as well not be there. -/
theorem nearest_of_hidden {parent : Option Nat} {j : Nat}
    {earlier hidden : List (Nat × Nat)} {levels : List Nat}
    (h : ∀ x ∈ levels, (∃ e ∈ earlier, e.2 < x) ∨ ∀ e ∈ hidden, x ≤ e.2) :
    nearest parent (earlier ++ hidden) j levels =
      nearest parent earlier j levels := by
  induction levels generalizing earlier j with
  | nil => rfl
  | cons x levels ih =>
      have hhead : lastBelow parent (earlier ++ hidden) x =
          lastBelow parent earlier x := by
        unfold lastBelow
        rw [List.find?_append]
        cases hfind : earlier.find? fun e => decide (e.2 < x) with
        | some e => rfl
        | none =>
            have hnot : ¬ ∃ e ∈ earlier, e.2 < x := by
              rintro ⟨e, he, hlt⟩
              have := List.find?_eq_none.mp hfind e he
              simp [hlt] at this
            have hall := (h x List.mem_cons_self).resolve_left hnot
            have hnone : (hidden.find? fun e => decide (e.2 < x)) = none := by
              rw [List.find?_eq_none]
              intro e he
              simpa using hall e he
            rw [hnone]
            rfl
      rw [nearest, nearest, hhead, ← List.cons_append, ih]
      intro y hy
      rcases h y (List.mem_cons_of_mem x hy) with ⟨e, he, hlt⟩ | hall
      · exact Or.inl ⟨e, List.mem_cons_of_mem _ he, hlt⟩
      · exact Or.inr hall

/-- A heading hides all those before it that are at least as deep, also from the
headings after it. -/
theorem nearest_cons_of_hidden {parent : Option Nat} {j l : Nat}
    {hidden : List (Nat × Nat)} {levels : List Nat} (h : ∀ e ∈ hidden, l ≤ e.2) :
    nearest parent hidden j (l :: levels) = nearest parent [] j
      (l :: levels) := by
  have hhead : lastBelow parent hidden l = lastBelow parent [] l := by
    have hnone : (hidden.find? fun e => decide (e.2 < l)) = none := by
      rw [List.find?_eq_none]
      intro e he
      simpa using h e he
    rw [lastBelow, hnone]
    rfl
  have htail : nearest parent ([(j, l)] ++ hidden) (j + 1) levels =
      nearest parent [(j, l)] (j + 1) levels := by
    apply nearest_of_hidden
    intro x _
    by_cases hx : l < x
    · exact Or.inl ⟨(j, l), List.mem_singleton_self _, hx⟩
    · exact Or.inr fun e he => Nat.le_trans (Nat.le_of_not_lt hx) (h e he)
  rw [nearest, nearest, hhead, ← htail]
  rfl

theorem mem_passed_iff {i j l : Nat} {levels : List Nat} :
    (j, l) ∈ passed i levels ↔ ∃ k, j = i + k ∧ levels[k]? = some l := by
  rw [passed, List.mem_reverse, List.mem_map]
  constructor
  · rintro ⟨⟨a, b⟩, hmem, heq⟩
    obtain ⟨rfl, rfl⟩ := Prod.mk.inj heq
    rw [List.mk_mem_zipIdx_iff_le_and_getElem?_sub] at hmem
    exact ⟨b - i, by omega, hmem.2⟩
  · rintro ⟨k, rfl, hk⟩
    refine ⟨(l, i + k), ?_, rfl⟩
    rw [List.mk_mem_zipIdx_iff_le_and_getElem?_sub]
    exact ⟨Nat.le_add_right i k, by rwa [Nat.add_sub_cancel_left]⟩

/-- The levels of the entries that an entry owns are all larger than its own. -/
theorem lt_of_mem_takeWhile {e : Entry} {rest : List Entry} {x : Nat}
    (h : x ∈
      (rest.takeWhile fun d => decide (e.level < d.level)).map Entry.level) :
    e.level < x := by
  obtain ⟨d, hd, rfl⟩ := List.mem_map.mp h
  simpa using List.mem_takeWhile_imp hd

/-- The first entry that an entry does not own is not deeper than it. -/
theorem level_le_of_dropWhile {e d : Entry} {rest ds : List Entry}
    (h : rest.dropWhile (fun d => decide (e.level < d.level)) = d :: ds) :
    d.level ≤ e.level := by
  have hne : rest.dropWhile (fun d => decide (e.level < d.level)) ≠ [] := by
    simp [h]
  have hhead :=
    List.head_dropWhile_not (fun d : Entry => decide (e.level < d.level)) hne
  simpa [h] using hhead

/-- **The forest is the one that the levels ask for.** Every section is below
the nearest earlier heading with a smaller level. -/
theorem parents_nest (parent : Option Nat) (i : Nat) (es : List Entry) :
    Section.parentsInAll parent i (nest es) =
      nearest parent [] i (es.map Entry.level) := by
  fun_induction nest es generalizing parent i with
  | case1 => simp [Section.parentsInAll, nearest]
  | case2 e rest ih₁ ih₂ =>
      rw [Section.parentsInAll_cons, ih₁, ih₂, length_preorderAll_nest]
      set owned := rest.takeWhile fun d => decide (e.level < d.level) with howned
      set others := rest.dropWhile fun d => decide (e.level < d.level)
        with hothers
      have hrest : rest.map Entry.level = owned.map Entry.level ++
          others.map Entry.level := by
        rw [← List.map_append, howned, hothers, List.takeWhile_append_dropWhile]
      have hdeeper : ∀ x ∈ owned.map Entry.level, e.level < x :=
        fun x hx => lt_of_mem_takeWhile hx
      have hchildren :
          nearest parent [(i, e.level)] (i + 1) (owned.map Entry.level) =
          nearest (some i) [] (i + 1) (owned.map Entry.level) :=
        nearest_of_deeper [] hdeeper
      rw [List.map_cons, nearest, hrest, nearest_append, hchildren,
        List.length_map]
      congr 2
      -- From the next sibling on, neither `e` nor what it owns is found any more.
      cases hcases : others with
      | nil => rfl
      | cons d ds =>
          have hd : d.level ≤ e.level :=
            level_le_of_dropWhile (hothers.symm.trans hcases)
          rw [List.map_cons]
          symm
          apply nearest_cons_of_hidden
          intro p hp
          rcases List.mem_append.mp hp with hp | hp
          · obtain ⟨k, -, hk⟩ := mem_passed_iff.mp hp
            exact Nat.le_of_lt
              (Nat.lt_of_le_of_lt hd (hdeeper p.2 (List.mem_of_getElem? hk)))
          · obtain rfl := List.mem_singleton.mp hp
            exact hd

/-! ## The nearest heading, said of levels -/

/-- Of all the levels before the place `i`, the one at `j` is the last that is
smaller than that at `i`. -/
def IsNearest (levels : List Nat) (j i : Nat) : Prop :=
  ∃ below here, levels[j]? = some below ∧ levels[i]? = some here ∧ j < i ∧
    below < here ∧
    ∀ k between, j < k → k < i → levels[k]? = some between → here ≤ between

/-- No level before the place `i` is smaller than that at `i`. -/
def IsLeast (levels : List Nat) (i : Nat) : Prop :=
  ∃ here, levels[i]? = some here ∧ ∀ j below, j < i → levels[j]? = some below →
    here ≤ below

theorem nearest_getElem? (parent : Option Nat) (earlier : List (Nat × Nat))
    (i : Nat) (levels : List Nat) (k : Nat) :
    (nearest parent earlier i levels)[k]? =
      levels[k]?.map fun l =>
        lastBelow parent (passed i (levels.take k) ++ earlier) l := by
  induction levels generalizing earlier i k with
  | nil => rfl
  | cons x levels ih =>
      rw [nearest]
      cases k with
      | zero => rfl
      | succ k =>
          rw [List.getElem?_cons_succ, List.getElem?_cons_succ, ih]
          simp [passed]

theorem passed_pairwise (i : Nat) (levels : List Nat) :
    (passed i levels).Pairwise fun a b => b.1 < a.1 := by
  induction levels generalizing i with
  | nil => simp [passed]
  | cons l levels ih =>
      have hcons : passed i (l :: levels) =
          passed (i + 1) levels ++ [(i, l)] := by simp [passed]
      rw [hcons, List.pairwise_append]
      refine ⟨ih (i + 1), List.pairwise_singleton _ _, ?_⟩
      rintro ⟨j, x⟩ hj b hb
      obtain ⟨k, rfl, -⟩ := mem_passed_iff.mp hj
      obtain rfl := List.mem_singleton.mp hb
      simp only
      omega

theorem mem_passed_zero {levels : List Nat} {k x : Nat} :
    (k, x) ∈ passed 0 levels ↔ levels[k]? = some x := by
  rw [mem_passed_iff]
  simp

theorem lastBelow_eq_none_iff {levels : List Nat} {l : Nat} :
    lastBelow none (passed 0 levels) l = none ↔
      ∀ (k below : Nat), levels[k]? = some below → l ≤ below := by
  unfold lastBelow
  rw [Option.or_none, Option.map_eq_none_iff, List.find?_eq_none]
  constructor
  · intro h k below hk
    simpa using h (k, below) (mem_passed_zero.mpr hk)
  · rintro h ⟨k, below⟩ hk
    simpa using h k below (mem_passed_zero.mp hk)

/-- What looking back finds is smaller, and nothing after it is. -/
theorem lastBelow_spec {levels : List Nat} {j l : Nat}
    (h : lastBelow none (passed 0 levels) l = some j) :
    ∃ below, levels[j]? = some below ∧ below < l ∧
      ∀ k between, j < k → levels[k]? = some between → l ≤ between := by
  unfold lastBelow at h
  rw [Option.or_none, Option.map_eq_some_iff] at h
  obtain ⟨⟨k, below⟩, hfind, rfl⟩ := h
  obtain ⟨hlt, before, after, hsplit, hbefore⟩ :=
    List.find?_eq_some_iff_append.mp hfind
  have hsorted := passed_pairwise 0 levels
  rw [hsplit, List.pairwise_append] at hsorted
  refine ⟨below, mem_passed_zero.mp (by rw [hsplit]; simp), by simpa using hlt,
    ?_⟩
  intro m between hm hbetween
  have hin : (m, between) ∈ before ++ (k, below) :: after :=
    hsplit ▸ mem_passed_zero.mpr hbetween
  rcases List.mem_append.mp hin with hin | hin
  · simpa using hbefore _ hin
  · rcases List.mem_cons.mp hin with heq | hin
    · obtain ⟨rfl, rfl⟩ := Prod.mk.inj heq
      exact absurd hm (Nat.lt_irrefl m)
    · have hafter := (List.pairwise_cons.mp hsorted.2.1).1 _ hin
      exact absurd hm (Nat.not_lt_of_lt hafter)

/-- Looking back finds the nearest level. -/
theorem lastBelow_eq_some_iff {levels : List Nat} {j l : Nat} :
    lastBelow none (passed 0 levels) l = some j ↔
      ∃ below, levels[j]? = some below ∧ below < l ∧
        ∀ k between, j < k → levels[k]? = some between → l ≤ between := by
  refine ⟨lastBelow_spec, ?_⟩
  rintro ⟨below, hj, hlt, hlast⟩
  cases h : lastBelow none (passed 0 levels) l with
  | none =>
      have hle := lastBelow_eq_none_iff.mp h j below hj
      exact absurd hlt (Nat.not_lt_of_le hle)
  | some k =>
      obtain ⟨found, hk, hfound, hlast'⟩ := lastBelow_spec h
      rcases Nat.lt_trichotomy j k with hjk | rfl | hkj
      · exact absurd hfound (Nat.not_lt_of_le (hlast k found hjk hk))
      · rfl
      · exact absurd hlt (Nat.not_lt_of_le (hlast' j below hkj hj))

theorem nearest_eq_some_iff {levels : List Nat} {i j : Nat} :
    (nearest none [] 0 levels)[i]? = some (some j) ↔ IsNearest levels j i := by
  rw [nearest_getElem?, Option.map_eq_some_iff]
  simp only [List.append_nil, lastBelow_eq_some_iff, List.getElem?_take]
  constructor
  · rintro ⟨here, hi, below, hj, hlt, hlast⟩
    split at hj
    · rename_i hji
      refine ⟨below, here, hj, hi, hji, hlt, ?_⟩
      intro k between hjk hki hk
      exact hlast k between hjk (by rwa [if_pos hki])
    · simp at hj
  · rintro ⟨below, here, hj, hi, hji, hlt, hlast⟩
    refine ⟨here, hi, below, by rwa [if_pos hji], hlt, ?_⟩
    intro k between hjk hk
    split at hk
    · rename_i hki
      exact hlast k between hjk hki hk
    · simp at hk

theorem nearest_eq_none_iff {levels : List Nat} {i : Nat} :
    (nearest none [] 0 levels)[i]? = some none ↔ IsLeast levels i := by
  rw [nearest_getElem?, Option.map_eq_some_iff]
  simp only [List.append_nil, lastBelow_eq_none_iff, List.getElem?_take]
  constructor
  · rintro ⟨here, hi, hleast⟩
    exact ⟨here, hi, fun j below hji hj => hleast j below (by rwa [if_pos hji])⟩
  · rintro ⟨here, hi, hleast⟩
    refine ⟨here, hi, ?_⟩
    intro j below hj
    split at hj
    · rename_i hji
      exact hleast j below hji hj
    · simp at hj

theorem length_nearest (parent : Option Nat) (earlier : List (Nat × Nat))
    (i : Nat) (levels : List Nat) :
    (nearest parent earlier i levels).length = levels.length := by
  induction levels generalizing earlier i with
  | nil => rfl
  | cons l levels ih => rw [nearest, List.length_cons, ih, List.length_cons]

/-! ## Children and siblings -/

theorem mem_nest_level {es : List Entry} {s : Section} (h : s ∈ nest es) :
    s.entry ∈ es := by
  have hmem :=
    List.mem_map_of_mem (f := Section.entry) (Section.mem_preorderAll_of_mem h)
  rwa [preorderAll_nest] at hmem

/-- Siblings do not get deeper. -/
theorem nest_pairwise (es : List Entry) :
    (nest es).Pairwise fun a b => b.level ≤ a.level := by
  fun_induction nest es with
  | case1 => exact List.Pairwise.nil
  | case2 e rest ih₁ ih₂ =>
      rw [List.pairwise_cons]
      refine ⟨?_, ih₂⟩
      intro s hs
      cases hcases : rest.dropWhile fun d => decide (e.level < d.level) with
      | nil =>
          rw [hcases, nest] at hs
          simp at hs
      | cons d ds =>
          have hd : d.level ≤ e.level := level_le_of_dropWhile hcases
          rw [hcases, nest] at hs ih₂
          -- The first of the others is at most as deep as `e`, and the rest
          -- are at most as deep as that.
          rcases List.mem_cons.mp hs with rfl | hs
          · exact hd
          · exact Nat.le_trans ((List.pairwise_cons.mp ih₂).1 s hs) hd

/-- Below every section the next ones are deeper than it, and do not get deeper
among themselves. -/
theorem preorderAll_nest_subsections (es : List Entry) (s : Section)
    (h : s ∈ Section.preorderAll (nest es)) :
    (∀ c ∈ s.subsections, s.level < c.level) ∧
      s.subsections.Pairwise fun a b => b.level ≤ a.level := by
  fun_induction nest es with
  | case1 => simp at h
  | case2 e rest ih₁ ih₂ =>
      rw [Section.preorderAll_cons] at h
      rcases List.mem_cons.mp h with rfl | h
      · refine ⟨?_, nest_pairwise _⟩
        intro c hc
        exact lt_of_mem_takeWhile (List.mem_map_of_mem (mem_nest_level hc))
      · rcases List.mem_append.mp h with h | h
        · exact ih₁ h
        · exact ih₂ h

/-- **The heading tree.** The sections of a list of commands, in pre-order, are
its headings: as many, in the same order, and with the same levels, lines and
trimmed names. The parent of the section at a place, which is the section that
has it among its subsections, is the one at the last earlier place with a
smaller level, and a section is a root exactly if there is none. So sections are
deeper than their parents, and neither the sections below a section nor the
roots get deeper from one to the next. -/
theorem sections_headings (cmds : List Command) :
    (Section.preorderAll (sections cmds)).length = (headings cmds).length ∧
    (Section.preorderAll (sections cmds)).map
        (fun s => (s.level, s.line, s.name)) =
      (headings cmds).map (fun h => (h.2, h.1.line, h.1.arg.trim)) ∧
    (Section.parents (sections cmds)).length = (headings cmds).length ∧
    (∀ i j : Nat, (Section.parents (sections cmds))[i]? = some (some j) ↔
      IsNearest ((headings cmds).map Prod.snd) j i) ∧
    (∀ i : Nat, (Section.parents (sections cmds))[i]? = some none ↔
      IsLeast ((headings cmds).map Prod.snd) i) ∧
    (∀ i j : Nat, (Section.parents (sections cmds))[i]? = some (some j) →
      ∃ s p : Section, (Section.preorderAll (sections cmds))[i]? = some s ∧
        (Section.preorderAll (sections cmds))[j]? = some p ∧ s ∈ p.subsections) ∧
    (∀ i : Nat, (Section.parents (sections cmds))[i]? = some none →
      ∃ s, (Section.preorderAll (sections cmds))[i]? = some s ∧
        s ∈ sections cmds) ∧
    (∀ s ∈ Section.preorderAll (sections cmds), ∀ c ∈ s.subsections,
      s.level < c.level) ∧
    (∀ s ∈ Section.preorderAll (sections cmds),
      s.subsections.Pairwise fun a b => b.level ≤ a.level) ∧
    (sections cmds).Pairwise fun a b => b.level ≤ a.level := by
  have htitles : (Section.preorderAll (sections cmds)).map
      (fun s => (s.level, s.line, s.name)) =
      (headings cmds).map titleOf := by
    rw [← entries_title, ← preorderAll_sections, List.map_map]
    rfl
  have hlevels :
      (entries cmds).map Entry.level = (headings cmds).map Prod.snd := by
    have h := congrArg (List.map Prod.fst) (entries_title cmds)
    rw [List.map_map, List.map_map] at h
    exact h
  have hparents : Section.parents (sections cmds) =
      nearest none [] 0 ((headings cmds).map Prod.snd) := by
    rw [Section.parents, sections_eq, parents_nest, hlevels]
  have hlength : (Section.preorderAll (sections cmds)).length =
      (headings cmds).length := by
    have h := congrArg List.length htitles
    rwa [List.length_map, List.length_map] at h
  refine ⟨hlength, htitles, ?_, ?_, ?_, ?_, ?_, ?_, ?_, ?_⟩
  · rw [hparents, length_nearest, List.length_map]
  · intro i j
    rw [hparents, nearest_eq_some_iff]
  · intro i
    rw [hparents, nearest_eq_none_iff]
  · intro i j
    exact Section.mem_subsections_of_parents
  · intro i
    exact Section.mem_roots_of_parents
  · intro s hs
    rw [sections_eq] at hs
    exact (preorderAll_nest_subsections _ s hs).1
  · intro s hs
    rw [sections_eq] at hs
    exact (preorderAll_nest_subsections _ s hs).2
  · rw [sections_eq]
    exact nest_pairwise _

/-- A level that skips one: the third heading lies below the first one, not
below the second. -/
theorem sections_headings_skip :
    let cmds : List Command := [⟨utf8 "head1", utf8 "A", 1⟩,
      ⟨utf8 "head3", utf8 "B", 2⟩,
      ⟨utf8 "item", utf8 "--x", 3⟩, ⟨utf8 "head2", utf8 "C", 4⟩]
    (Section.parents (sections cmds))[2]? = some (some 0) ∧
      ∃ s p : Section, (Section.preorderAll (sections cmds))[2]? = some s ∧
        (Section.preorderAll (sections cmds))[0]? = some p ∧ s ∈ p.subsections ∧
        p.level < s.level := by
  intro cmds
  obtain ⟨-, -, -, hnearest, -, hchild, -, hdeeper, -, -⟩ :=
    sections_headings cmds
  have hlevels : (headings cmds).map Prod.snd = [1, 3, 2] := by decide
  have hparent : (Section.parents (sections cmds))[2]? = some (some 0) := by
    rw [hnearest, hlevels]
    refine ⟨1, 2, rfl, rfl, by decide, by decide, ?_⟩
    intro k between hk hk' hbetween
    obtain rfl : k = 1 := by omega
    obtain rfl : 3 = between := by simpa using hbetween
    decide
  obtain ⟨s, p, hs, hp, hmem⟩ := hchild 2 0 hparent
  exact ⟨hparent, s, p, hs, hp, hmem, hdeeper p (List.mem_of_getElem? hp) s hmem⟩

end Pod

end ToolLint
