import ToolLint.Order
import Mathlib.Data.List.GetD
import Mathlib.Data.List.Perm.Basic

/-!
# Names in order

Names are in order if none of them comes before a smaller one, bytewise. Sorting
leaves just such lists as they are, so the comparison of a list with its sorted
form is empty for them and for no others.

The rows of the comparison are the pairs that differ, if the list is laid beside
its sorted form; that they are looked for from the first of them on leaves none out
(`displaced_eq`). The pairs left out have the same name on both sides, so the two
columns of the rows have the same names (`correct_perm_actual`). What is said of
the rows as a whole follows from this and from the order of the second column.
-/

namespace ToolLint

namespace Order

/-- The names are in bytewise order. -/
def InOrder (names : List Text) : Prop := names.Pairwise fun a b => a ≤ b

instance (names : List Text) : Decidable (InOrder names) :=
  inferInstanceAs (Decidable (names.Pairwise _))

theorem le_iff {a b : Text} : Text.le a b = true ↔ a ≤ b := decide_eq_true_iff

theorem inOrder_sorted (names : List Text) : InOrder (sorted names) := by
  have hpairwise : (sorted names).Pairwise fun a b => Text.le a b = true := by
    apply List.pairwise_mergeSort
    · intro a b c hab hbc
      exact le_iff.mpr (List.le_trans (le_iff.mp hab) (le_iff.mp hbc))
    · intro a b
      rw [Bool.or_eq_true, le_iff, le_iff]
      exact List.le_total a b
  exact hpairwise.imp fun h => le_iff.mp h

theorem sorted_perm (names : List Text) : (sorted names).Perm names :=
  List.mergeSort_perm names Text.le

theorem length_sorted (names : List Text) :
    (sorted names).length = names.length :=
  List.length_mergeSort names

/-- Sorting changes nothing in a list that is in order, and something in every
other. -/
theorem sorted_eq_self_iff {names : List Text} :
    sorted names = names ↔ InOrder names := by
  constructor
  · intro h
    rw [← h]
    exact inOrder_sorted names
  · intro h
    exact List.mergeSort_of_pairwise (h.imp fun hle => le_iff.mpr hle)

/-! ## Pairs that differ -/

theorem map_fst_paired (names : List Text) :
    (paired names).map Prod.fst = names :=
  List.map_fst_zip (Nat.le_of_eq (length_sorted names).symm)

theorem map_snd_paired (names : List Text) :
    (paired names).map Prod.snd = sorted names :=
  List.map_snd_zip (Nat.le_of_eq (length_sorted names))

def differing (pairs : List (Text × Text)) : List (Text × Text) :=
  pairs.filter fun p => p.1 != p.2

/-- No pair before the first that differs is lost. -/
theorem differing_drop {pairs : List (Text × Text)} {first : Nat}
    (h : pairs.findIdx? (fun p => p.1 != p.2) = some first) :
    differing (pairs.drop first) = differing pairs := by
  obtain ⟨hlt, -, hbefore⟩ := List.findIdx?_eq_some_iff_getElem.mp h
  have hnone : differing (pairs.take first) = [] := by
    rw [differing, List.filter_eq_nil_iff]
    intro p hp
    obtain ⟨i, hi, rfl⟩ := List.mem_take_iff_getElem.mp hp
    exact hbefore i (Nat.lt_of_lt_of_le hi (Nat.min_le_left _ _))
  conv_rhs => rw [← List.take_append_drop first pairs, differing,
    List.filter_append]
  unfold differing at hnone ⊢
  rw [hnone, List.nil_append]

/-- The search for the first displaced name leaves none out. -/
theorem displaced_eq (names : List Text) :
    displaced names = (differing (paired names)).map fun p => ⟨p.1, p.2⟩ := by
  unfold displaced
  cases h : firstDisplaced? names with
  | none =>
      have hsame : differing (paired names) = [] := by
        rw [differing, List.filter_eq_nil_iff]
        intro p hp
        simp [List.findIdx?_eq_none_iff.mp h p hp]
      rw [hsame]
      rfl
  | some first =>
      simp only
      rw [← differing_drop h, differing, ← List.filterMap_eq_filter,
        List.map_filterMap]
      congr 1
      funext p
      by_cases hp : p.1 = p.2
      · simp [hp, Option.guard]
      · simp [hp, Option.guard]

/-- Nothing is displaced in a list if and only if it is in order. -/
theorem displaced_eq_nil_iff {names : List Text} :
    displaced names = [] ↔ InOrder names := by
  have hsame : sorted names = names ↔ ∀ p ∈ paired names, p.2 = p.1 := by
    rw [← List.map_inj_left, map_snd_paired, map_fst_paired]
  rw [← sorted_eq_self_iff, hsame, displaced_eq, List.map_eq_nil_iff, differing,
    List.filter_eq_nil_iff]
  apply forall₂_congr
  intro p _
  rw [bne_iff_ne, not_not, eq_comm]

/-- If both sides of some pairs have the same names, so have those of the pairs
that differ. -/
theorem perm_differing {pairs : List (Text × Text)}
    (h : (pairs.map Prod.snd).Perm (pairs.map Prod.fst)) :
    ((differing pairs).map Prod.snd).Perm ((differing pairs).map Prod.fst) := by
  -- The other pairs have the same name on both sides, so they can be taken
  -- away from both.
  have hsplit := List.filter_append_perm (fun p : Text × Text => p.1 != p.2) pairs
  have hfst := hsplit.map Prod.fst
  have hsnd := hsplit.map Prod.snd
  have hsame : (pairs.filter fun p => !(p.1 != p.2)).map Prod.fst =
      (pairs.filter fun p => !(p.1 != p.2)).map Prod.snd := by
    apply List.map_congr_left
    intro p hp
    simpa using (List.mem_filter.mp hp).2
  rw [List.map_append] at hfst hsnd
  rw [hsame] at hfst
  exact (List.perm_append_right_iff _).mp (hsnd.trans (h.trans hfst.symm))

/-! ## The two columns -/

theorem map_correct_displaced (names : List Text) :
    (displaced names).map Row.correct =
      (differing (paired names)).map Prod.snd := by
  rw [displaced_eq, List.map_map]
  rfl

theorem map_actual_displaced (names : List Text) :
    (displaced names).map Row.actual =
      (differing (paired names)).map Prod.fst := by
  rw [displaced_eq, List.map_map]
  rfl

/-- The same names are in both columns. -/
theorem correct_perm_actual (names : List Text) :
    ((displaced names).map Row.correct).Perm
      ((displaced names).map Row.actual) := by
  rw [map_correct_displaced, map_actual_displaced]
  apply perm_differing
  rw [map_snd_paired, map_fst_paired]
  exact sorted_perm names

theorem inOrder_correct (names : List Text) :
    InOrder ((displaced names).map Row.correct) := by
  have hsublist : ((displaced names).map Row.correct).Sublist
      ((paired names).map Prod.snd) := by
    rw [map_correct_displaced]
    exact List.filter_sublist.map Prod.snd
  rw [map_snd_paired] at hsublist
  exact (inOrder_sorted names).sublist hsublist

theorem correct_ne_actual {names : List Text} {row : Row}
    (h : row ∈ displaced names) : row.correct ≠ row.actual := by
  rw [displaced_eq] at h
  obtain ⟨p, hp, rfl⟩ := List.mem_map.mp h
  have hne := (List.mem_filter.mp hp).2
  exact fun heq => bne_iff_ne.mp hne heq.symm

/-- The first of the correct names is smaller than the one that stands in its
place: it is the smallest in its column, and the other column has the same
names. -/
theorem correct_lt_actual_of_head {names : List Text} {row : Row}
    (h : (displaced names).head? = some row) : row.correct < row.actual := by
  obtain ⟨rows, hrows⟩ := List.head?_eq_some_iff.mp h
  have hmem : row ∈ displaced names := List.mem_of_head? h
  have hactual : row.actual ∈ (displaced names).map Row.correct :=
    (correct_perm_actual names).mem_iff.mpr (List.mem_map_of_mem hmem)
  have horder := inOrder_correct names
  rw [hrows, List.map_cons] at hactual horder
  have hle : row.correct ≤ row.actual := by
    rcases List.mem_cons.mp hactual with heq | hlater
    · exact absurd heq.symm (correct_ne_actual hmem)
    · exact List.rel_of_pairwise_cons horder hlater
  rcases List.le_iff_lt_or_eq.mp hle with hlt | heq
  · exact hlt
  · exact absurd heq (correct_ne_actual hmem)

/-- One name alone cannot be displaced. -/
theorem length_displaced_ne_one (names : List Text) :
    (displaced names).length ≠ 1 := by
  intro h
  obtain ⟨row, hrow⟩ := List.length_eq_one_iff.mp h
  have hperm := correct_perm_actual names
  rw [hrow, List.map_singleton, List.map_singleton, List.singleton_perm_singleton]
    at hperm
  exact correct_ne_actual (hrow ▸ List.mem_singleton_self row) hperm

/-! ## The places -/

/-- The places at which the members of two lists differ. -/
def differsAt (as bs : List Text) : List Nat :=
  (List.range as.length).filter fun i => as.getD i [] != bs.getD i []

theorem zip_eq_map_range {as bs : List Text} (h : as.length = bs.length) :
    as.zip bs =
      (List.range as.length).map fun i => (as.getD i [], bs.getD i []) := by
  apply List.ext_getElem
  · simp [h]
  · intro i hi hi'
    have ha : i < as.length := by simpa using hi'
    have hb : i < bs.length := h ▸ ha
    rw [List.getElem_zip, List.getElem_map, List.getElem_range,
      List.getD_eq_getElem _ _ ha, List.getD_eq_getElem _ _ hb]

theorem displaced_eq_map_places (names : List Text) :
    displaced names = (differsAt names (sorted names)).map fun i =>
      ⟨names.getD i [], (sorted names).getD i []⟩ := by
  rw [displaced_eq, differing, paired,
    zip_eq_map_range (length_sorted names).symm, List.filter_map, List.map_map]
  rfl

/-- The list with other names put at some places. -/
def putAt (names : List Text) (new : List (Nat × Text)) : List Text :=
  new.foldl (fun names p => names.set p.1 p.2) names

/-- A list becomes another one if what it has is put at the places where they do
not agree. -/
theorem putAt_eq {as bs : List Text} {places : List Nat}
    (hlength : as.length = bs.length) (hplaces : ∀ i ∈ places, i < bs.length)
    (hagree : ∀ i, i ∉ places → as[i]? = bs[i]?) :
    putAt as (places.map fun i => (i, bs.getD i [])) = bs := by
  induction places generalizing as with
  | nil => exact List.ext_getElem? fun i => hagree i List.not_mem_nil
  | cons i places ih =>
      -- Outside of the places that are left, the lists agree also after this
      -- step.
      rw [List.forall_mem_cons] at hplaces
      refine ih (by rw [List.length_set, hlength]) hplaces.2 fun j hj => ?_
      by_cases hij : i = j
      · subst hij
        rw [List.getElem?_set_self (hlength ▸ hplaces.1),
          List.getElem?_eq_getElem hplaces.1]
        exact congrArg some (List.getD_eq_getElem _ _ hplaces.1)
      · rw [List.getElem?_set_ne hij]
        exact hagree j (List.not_mem_cons_of_ne_of_not_mem (Ne.symm hij) hj)

theorem putAt_differsAt {as bs : List Text} (h : as.length = bs.length) :
    putAt as ((differsAt as bs).map fun i => (i, bs.getD i [])) = bs := by
  have hplaces : ∀ i ∈ differsAt as bs, i < bs.length := by
    intro i hi
    rw [← h]
    exact List.mem_range.mp (List.mem_of_mem_filter hi)
  apply putAt_eq h hplaces
  intro i hi
  by_cases hlt : i < as.length
  · have hsame : as.getD i [] = bs.getD i [] := by
      by_contra hne
      exact hi (List.mem_filter.mpr ⟨List.mem_range.mpr hlt, bne_iff_ne.mpr hne⟩)
    rw [List.getD_eq_getElem _ _ hlt, List.getD_eq_getElem _ _ (h ▸ hlt)] at hsame
    rw [List.getElem?_eq_getElem hlt, List.getElem?_eq_getElem (h ▸ hlt), hsame]
  · rw [List.getElem?_eq_none (Nat.le_of_not_lt hlt),
      List.getElem?_eq_none (h ▸ Nat.le_of_not_lt hlt)]

theorem putAt_correct (names : List Text) :
    putAt names ((differsAt names (sorted names)).zip
      ((displaced names).map Row.correct)) = sorted names := by
  rw [displaced_eq_map_places, List.map_map, ← List.map_prod_left_eq_zip]
  exact putAt_differsAt (length_sorted names).symm

/-- **A list is compared with its sorted form exactly where they differ.** Let
`s` be the names in bytewise order and `places` the places at which another name
stands in `s`. There is one row for each of these places, in their order, with
the name that is there and the one in `s`. So:

* there is no row if and only if the names are in order, and there is never just
  one;
* the correct names are in order, they are the actual ones in another order, and
  the first of them is smaller than the name that stands in its place;
* with the correct names put at the places, no name is displaced. -/
theorem displaced_exact (names : List Text) :
    ∃ s : List Text, s.Perm names ∧ (s.Pairwise fun a b => a ≤ b) ∧
      let places :=
        (List.range names.length).filter fun i => names.getD i [] != s.getD i []
      let rows := displaced names
      let correct := rows.map Row.correct
      rows = places.map (fun i => ⟨names.getD i [], s.getD i []⟩) ∧
      (rows = [] ↔ names.Pairwise fun a b => a ≤ b) ∧
      (correct.Pairwise fun a b => a ≤ b) ∧ correct.Perm (rows.map Row.actual) ∧
      rows.length ≠ 1 ∧
      (∀ row ∈ rows.head?, row.correct < row.actual) ∧
      displaced (putAt names (places.zip correct)) = [] := by
  refine ⟨sorted names, sorted_perm names, inOrder_sorted names,
    displaced_eq_map_places names, displaced_eq_nil_iff,
    inOrder_correct names, correct_perm_actual names,
      length_displaced_ne_one names,
    fun row hrow => correct_lt_actual_of_head hrow, ?_⟩
  have hput := putAt_correct names
  rw [differsAt] at hput
  rw [hput, displaced_eq_nil_iff]
  exact inOrder_sorted names

/-- Two names stand in each other's place, with two others between them that are
where they belong. -/
theorem displaced_exact_swapped :
    let names := [utf8 "c", utf8 "a", utf8 "b", utf8 "a", utf8 "c"]
    displaced names = [⟨utf8 "c", utf8 "a"⟩, ⟨utf8 "a", utf8 "c"⟩] ∧
    utf8 "a" < utf8 "c" ∧
    displaced (putAt names [(0, utf8 "a"), (3, utf8 "c")]) = [] := by
  intro names
  obtain ⟨s, hperm, hsorted, hrows, -, -, -, -, hfirst, hput⟩ :=
    displaced_exact names
  have hs : s = [utf8 "a", utf8 "a", utf8 "b", utf8 "c", utf8 "c"] :=
    List.Perm.eq_of_pairwise (fun _ _ _ _ => List.le_antisymm) hsorted (by decide)
      (hperm.trans (by decide))
  subst hs
  have hnames : displaced names = [⟨utf8 "c", utf8 "a"⟩, ⟨utf8 "a", utf8 "c"⟩] :=
    hrows.trans (by decide)
  rw [hnames] at hfirst hput
  exact ⟨hnames, hfirst _ rfl, hput⟩

end Order

end ToolLint
