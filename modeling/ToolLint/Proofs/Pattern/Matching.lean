import ToolLint.Pattern.Basic
import Mathlib.Data.List.Basic

/-!
# What a pattern matches

`Pattern.Reads` says which pieces of a line a pattern matches, with no word
about places or about the order in which they are tried. The search from a place
finds exactly these pieces (`mem_ends_iff`), and a line is found if and only if
one of them is in it (`found_iff`).
-/

namespace ToolLint

namespace Pattern

/-- A piece that is made of smaller ones, none of them empty. `R i w r` means
that the piece `w` can stand after `i` characters and before the characters `r`.
-/
inductive Repeats (R : Nat → List Char → List Char → Prop) :
    Nat → List Char → List Char → Prop where
  | done (i : Nat) (r : List Char) : Repeats R i [] r
  | more {i : Nat} {u v r : List Char} (hu : u ≠ []) (first : R i u (v ++ r))
      (others : Repeats R (i + u.length) v r) : Repeats R i (u ++ v) r

/-- The pattern matches the piece `w` of a line, which comes after `i`
characters and before the characters `r`. -/
def Reads : Pattern → Nat → List Char → List Char → Prop
  | empty, _, w, _ => w = []
  | char k, _, w, _ => ∃ c, w = [c] ∧ k.has c = true
  | lineStart, i, w, _ => w = [] ∧ i = 0
  | lineEnd, _, w, r => w = [] ∧ r = []
  | sequence p q, i, w, r =>
      ∃ u v, w = u ++ v ∧ p.Reads i u (v ++ r) ∧ q.Reads (i + u.length) v r
  | choice p q, i, w, r => p.Reads i w r ∨ q.Reads i w r
  | many p, i, w, r => Repeats p.Reads i w r

/-! ## Places and pieces -/

/-- The piece between two places can stand there. -/
def Joins (R : Nat → List Char → List Char → Prop) (x y : Place) : Prop :=
  ∃ w, x.rest = w ++ y.rest ∧ y.index = x.index + w.length ∧ R x.index w y.rest

/-- From `x` to `y` in `n` steps that all move on. -/
def StepsIn (step : Place → List Place) : Nat → Place → Place → Prop
  | 0, x, y => x = y
  | n + 1, x, y => ∃ z ∈ step x, x.index < z.index ∧ StepsIn step n z y

/-- All places that few enough steps lead to are reached, and no others. -/
theorem mem_reach_iff {step : Place → List Place} {fuel : Nat}
    {level : List Place} {seen : List (List Place)} {y : Place} :
    y ∈ Place.reach step fuel level seen ↔
      (∃ l ∈ seen, y ∈ l) ∨ ∃ x ∈ level, ∃ n ≤ fuel, StepsIn step n x y := by
  induction fuel generalizing level seen with
  | zero =>
      rw [Place.reach, List.mem_flatten]
      constructor
      · rintro ⟨l, hl, hy⟩
        rcases List.mem_cons.mp (List.mem_reverse.mp hl) with rfl | hl
        · exact Or.inr ⟨y, hy, 0, Nat.le_refl 0, rfl⟩
        · exact Or.inl ⟨l, hl, hy⟩
      · rintro (⟨l, hl, hy⟩ | ⟨x, hx, n, hn, hsteps⟩)
        · exact ⟨l, List.mem_reverse.mpr (List.mem_cons_of_mem _ hl), hy⟩
        · obtain rfl := Nat.le_zero.mp hn
          obtain rfl : x = y := hsteps
          exact ⟨level, List.mem_reverse.mpr List.mem_cons_self, hx⟩
  | succ fuel ih =>
      rw [Place.reach]
      split
      · rename_i hlevel
        obtain rfl := List.isEmpty_iff.mp hlevel
        simp
      · rw [ih]
        constructor
        · rintro (⟨l, hl, hy⟩ | ⟨z, hz, n, hn, hsteps⟩)
          · rcases List.mem_cons.mp hl with rfl | hl
            · exact Or.inr ⟨y, hy, 0, Nat.zero_le _, rfl⟩
            · exact Or.inl ⟨l, hl, hy⟩
          · obtain ⟨x, hx, hz⟩ := List.mem_flatMap.mp hz
            obtain ⟨hmem, hlt⟩ := List.mem_filter.mp hz
            exact Or.inr ⟨x, hx, n + 1, Nat.succ_le_succ hn, z, hmem,
              by simpa using hlt, hsteps⟩
        · rintro (⟨l, hl, hy⟩ | ⟨x, hx, n, hn, hsteps⟩)
          · exact Or.inl ⟨l, List.mem_cons_of_mem _ hl, hy⟩
          · cases n with
            | zero =>
                obtain rfl : x = y := hsteps
                exact Or.inl ⟨level, List.mem_cons_self, hx⟩
            | succ n =>
                obtain ⟨z, hmem, hlt, hsteps⟩ := hsteps
                refine Or.inr ⟨z, ?_, n, Nat.le_of_succ_le_succ hn, hsteps⟩
                exact List.mem_flatMap.mpr ⟨x, hx,
                  List.mem_filter.mpr ⟨hmem, by simpa using hlt⟩⟩

/-- Steps over pieces that `R` allows make up a repetition. -/
theorem joins_of_stepsIn {R : Nat → List Char → List Char → Prop}
    {step : Place → List Place} (hstep : ∀ x y, y ∈ step x ↔ Joins R x y)
    {n : Nat} {x y : Place} (h : StepsIn step n x y) : Joins (Repeats R) x y := by
  induction n generalizing x with
  | zero =>
      obtain rfl : x = y := h
      exact ⟨[], rfl, rfl, .done _ _⟩
  | succ n ih =>
      obtain ⟨z, hz, hlt, hsteps⟩ := h
      obtain ⟨u, hxu, hzu, hu⟩ := (hstep x z).mp hz
      obtain ⟨v, hzv, hyv, hv⟩ := ih hsteps
      -- A step that does not move on is never taken, so its piece is not empty.
      have hne : u ≠ [] := by
        rintro rfl
        simp only [List.length_nil, Nat.add_zero] at hzu
        omega
      rw [hzv] at hxu hu
      rw [hzu] at hyv hv
      refine ⟨u ++ v, ?_, ?_, .more hne hu hv⟩
      · rw [hxu, List.append_assoc]
      · rw [hyv, List.length_append, Nat.add_assoc]

/-- A repetition is a number of steps. Each of them moves on, so there are not
more of them than characters. -/
theorem stepsIn_of_repeats {R : Nat → List Char → List Char → Prop}
    {step : Place → List Place} (hstep : ∀ x y, y ∈ step x ↔ Joins R x y)
    {i : Nat} {w r : List Char} (h : Repeats R i w r) :
    ∃ n ≤ w.length, StepsIn step n ⟨i, w ++ r⟩ ⟨i + w.length, r⟩ := by
  induction h with
  | done i r => exact ⟨0, Nat.le_refl 0, rfl⟩
  | @more i u v r hu first others ih =>
      obtain ⟨n, hn, hsteps⟩ := ih
      have hpos : 0 < u.length := List.length_pos_iff.mpr hu
      refine ⟨n + 1, by rw [List.length_append]; omega, ⟨i + u.length, v ++ r⟩,
        ?_, ?_, ?_⟩
      · exact (hstep _ _).mpr ⟨u, by rw [List.append_assoc], rfl, first⟩
      · exact Nat.lt_add_of_pos_right hpos
      · rw [List.length_append, ← Nat.add_assoc]
        exact hsteps

/-- **The search from a place is exact.** It ends at a place if and only if the
pattern matches the piece in between. -/
theorem mem_ends_iff {p : Pattern} {x y : Place} :
    y ∈ p.ends x ↔ Joins p.Reads x y := by
  induction p generalizing x y with
  | empty =>
      rw [ends, List.mem_singleton]
      constructor
      · rintro rfl
        exact ⟨[], rfl, rfl, rfl⟩
      · rintro ⟨w, hrest, hindex, rfl⟩
        cases x
        cases y
        simp_all
  | char k =>
      rcases x with ⟨i, _ | ⟨c, r⟩⟩
      · simp [ends, Joins, Reads]
      · simp only [ends]
        constructor
        · intro h
          split at h
          · rename_i hc
            obtain rfl := List.mem_singleton.mp h
            exact ⟨[c], rfl, rfl, c, rfl, hc⟩
          · simp at h
        · rintro ⟨w, hrest, hindex, d, rfl, hd⟩
          obtain ⟨rfl, rfl⟩ := List.cons.inj hrest
          rw [if_pos hd, List.mem_singleton]
          cases y
          simp_all
  | lineStart =>
      simp only [ends]
      constructor
      · intro h
        split at h
        · rename_i hi
          obtain rfl := List.mem_singleton.mp h
          exact ⟨[], rfl, rfl, rfl, hi⟩
        · simp at h
      · rintro ⟨w, hrest, hindex, rfl, hi⟩
        cases x
        cases y
        simp_all
  | lineEnd =>
      simp only [ends]
      constructor
      · intro h
        split at h
        · rename_i hr
          obtain rfl := List.mem_singleton.mp h
          exact ⟨[], rfl, rfl, rfl, List.isEmpty_iff.mp hr⟩
        · simp at h
      · rintro ⟨w, hrest, hindex, rfl, hr⟩
        cases x
        cases y
        simp_all
  | sequence p q ihp ihq =>
      rw [ends, List.mem_flatMap]
      constructor
      · rintro ⟨z, hz, hy⟩
        obtain ⟨u, hxu, hzu, hu⟩ := ihp.mp hz
        obtain ⟨v, hzv, hyv, hv⟩ := ihq.mp hy
        rw [hzv] at hxu hu
        rw [hzu] at hyv hv
        refine ⟨u ++ v, ?_, ?_, u, v, rfl, hu, hv⟩
        · rw [hxu, List.append_assoc]
        · rw [hyv, List.length_append, Nat.add_assoc]
      · rintro ⟨w, hrest, hindex, u, v, rfl, hu, hv⟩
        refine ⟨⟨x.index + u.length, v ++ y.rest⟩, ?_, ?_⟩
        · exact ihp.mpr ⟨u, by rw [hrest, List.append_assoc], rfl, hu⟩
        · exact ihq.mpr ⟨v, rfl,
            by rw [hindex, List.length_append, Nat.add_assoc], hv⟩
  | choice p q ihp ihq =>
      rw [ends, List.mem_append, ihp, ihq]
      constructor
      · rintro (⟨w, hrest, hindex, h⟩ | ⟨w, hrest, hindex, h⟩)
        · exact ⟨w, hrest, hindex, Or.inl h⟩
        · exact ⟨w, hrest, hindex, Or.inr h⟩
      · rintro ⟨w, hrest, hindex, h | h⟩
        · exact Or.inl ⟨w, hrest, hindex, h⟩
        · exact Or.inr ⟨w, hrest, hindex, h⟩
  | many p ih =>
      have hstep : ∀ x y, y ∈ p.ends x ↔ Joins p.Reads x y := fun _ _ => ih
      rw [ends, mem_reach_iff]
      constructor
      · rintro (⟨l, hl, -⟩ | ⟨z, hz, n, -, hsteps⟩)
        · simp at hl
        · obtain rfl := List.mem_singleton.mp hz
          exact joins_of_stepsIn hstep hsteps
      · rintro ⟨w, hrest, hindex, h⟩
        obtain ⟨n, hn, hsteps⟩ := stepsIn_of_repeats hstep h
        rw [← hrest, ← hindex] at hsteps
        -- The fuel is the number of characters from `x` on, which are enough
        -- for all the steps.
        have hlength : w.length ≤ x.rest.length := by
          rw [hrest, List.length_append]
          exact Nat.le_add_right _ _
        exact Or.inr ⟨x, List.mem_singleton_self x, n, Nat.le_trans hn hlength,
          hsteps⟩

/-! ## Lines -/

theorem ends_ne_nil_iff {p : Pattern} {i : Nat} {s : List Char} :
    (!(p.ends ⟨i, s⟩).isEmpty) = true ↔ ∃ w r, s = w ++ r ∧ p.Reads i w r := by
  rw [Bool.not_eq_true', List.isEmpty_eq_false_iff_exists_mem]
  constructor
  · rintro ⟨y, hy⟩
    obtain ⟨w, hrest, -, h⟩ := mem_ends_iff.mp hy
    exact ⟨w, y.rest, hrest, h⟩
  · rintro ⟨w, r, hs, h⟩
    exact ⟨⟨i + w.length, r⟩, mem_ends_iff.mpr ⟨w, hs, rfl, h⟩⟩

theorem foundFrom_iff {p : Pattern} {i : Nat} {s : List Char} :
    p.foundFrom i s = true ↔ ∃ u w r, s = u ++ w ++ r ∧
      p.Reads (i + u.length) w r := by
  induction s generalizing i with
  | nil =>
      rw [foundFrom, ends_ne_nil_iff]
      constructor
      · rintro ⟨w, r, hs, h⟩
        exact ⟨[], w, r, hs, h⟩
      · rintro ⟨u, w, r, hs, h⟩
        obtain ⟨huw, rfl⟩ := List.append_eq_nil_iff.mp hs.symm
        obtain ⟨rfl, rfl⟩ := List.append_eq_nil_iff.mp huw
        exact ⟨[], [], rfl, h⟩
  | cons c s ih =>
      -- A match begins here, or after this character.
      rw [foundFrom, Bool.or_eq_true, ends_ne_nil_iff, ih]
      constructor
      · rintro (⟨w, r, hs, h⟩ | ⟨u, w, r, hs, h⟩)
        · exact ⟨[], w, r, hs, h⟩
        · refine ⟨c :: u, w, r, by rw [hs, List.cons_append, List.cons_append],
            ?_⟩
          rwa [List.length_cons, Nat.add_comm u.length 1, ← Nat.add_assoc]
      · rintro ⟨u, w, r, hs, h⟩
        cases u with
        | nil => exact Or.inl ⟨w, r, hs, h⟩
        | cons d u =>
            obtain ⟨-, hs⟩ := List.cons.inj hs
            rw [List.length_cons, Nat.add_comm u.length 1, ← Nat.add_assoc] at h
            exact Or.inr ⟨u, w, r, hs, h⟩

/-- **A line is found if and only if the pattern matches a piece of it.** -/
theorem found_iff {p : Pattern} {line : List Char} :
    p.found line = true ↔ ∃ u w r, line = u ++ w ++ r ∧ p.Reads u.length w r := by
  rw [found, foundFrom_iff]
  simp only [Nat.zero_add]

end Pattern

end ToolLint
