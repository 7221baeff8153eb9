import ToolLint.Order
import Mathlib.Data.List.TakeDrop
import Mathlib.Order.Bounds.Basic

/-!
# Departures from a required list

The names that count and the required ones go together for a while, and then
they part (`exists_apart`). Up to there nothing is shown. From there on each
required name has a row (`fromDifference_append`, `fromDifference_of_apart`),
and a place that has no name is shown as an empty one. An empty name that is
required could not be told from such a place, so none may be.
-/

namespace ToolLint

namespace Order

/-! ## Where two lists part -/

/-- The lists do not begin with the same name. -/
def Apart (as bs : List Text) : Prop := ∀ a ∈ as.head?, a ∉ bs.head?

theorem apart_cons_iff {a b : Text} {as bs : List Text} :
    Apart (a :: as) (b :: bs) ↔ a ≠ b := by
  simp [Apart, eq_comm]

theorem exists_apart (as bs : List Text) :
    ∃ p as' bs', as = p ++ as' ∧ bs = p ++ bs' ∧ Apart as' bs' := by
  induction as generalizing bs with
  | nil => exact ⟨[], [], bs, rfl, rfl, by simp [Apart]⟩
  | cons a as ih =>
      by_cases hhead : bs.head? = some a
      · obtain ⟨bs, rfl⟩ := List.head?_eq_some_iff.mp hhead
        obtain ⟨p, as', bs', rfl, rfl, hapart⟩ := ih bs
        exact ⟨a :: p, as', bs', rfl, rfl, hapart⟩
      · exact ⟨[], a :: as, bs, rfl, rfl, by simpa [Apart] using hhead⟩

/-- What two lists begin with does not reach beyond the place where they part. -/
theorem length_le_of_apart {p q as bs : List Text} (h : Apart as bs)
    (has : q <+: p ++ as) (hbs : q <+: p ++ bs) : q.length ≤ p.length := by
  induction p generalizing q with
  | nil =>
      cases q with
      | nil => exact Nat.le_refl 0
      | cons x q =>
          obtain ⟨u, rfl⟩ := has
          obtain ⟨v, rfl⟩ := hbs
          exact absurd rfl (apart_cons_iff.mp h)
  | cons a p ih =>
      cases q with
      | nil => exact Nat.zero_le _
      | cons x q =>
          rw [List.cons_append, List.cons_prefix_cons] at has hbs
          exact Nat.succ_le_succ (ih has.2 hbs.2)

theorem isGreatest_of_apart (p : List Text) {as bs : List Text}
    (h : Apart as bs) :
    IsGreatest {n | ∃ q, q <+: p ++ as ∧ q <+: p ++ bs ∧ q.length = n}
      p.length := by
  constructor
  · exact ⟨p, List.prefix_append p as, List.prefix_append p bs, rfl⟩
  · rintro n ⟨q, has, hbs, rfl⟩
    exact length_le_of_apart h has hbs

/-! ## Rows -/

/-- Nothing is shown of what the lists begin with. -/
theorem fromDifference_append (p got required : List Text) :
    fromDifference (p ++ got) (p ++ required) = fromDifference got required := by
  induction p with
  | nil => rfl
  | cons a p ih =>
      rw [List.cons_append, List.cons_append, fromDifference, if_pos rfl, ih]

/-- Lists that have parted are shown to the end. -/
theorem fromDifference_of_apart {got required : List Text}
    (hrequired : [] ∉ required) (h : Apart got required) :
    fromDifference got required = aligned got required := by
  cases required with
  | nil => rw [fromDifference, aligned]
  | cons r required =>
      cases got with
      | nil =>
          have hr : r.isEmpty = false := by
            rw [List.isEmpty_eq_false_iff]
            rintro rfl
            exact hrequired List.mem_cons_self
          rw [fromDifference, hr, if_neg Bool.false_ne_true]
      | cons g got => rw [fromDifference, if_neg (apart_cons_iff.mp h)]

theorem map_correct_aligned (got required : List Text) :
    (aligned got required).map Row.correct = required := by
  fun_induction aligned got required with
  | case1 => rfl
  | case2 r required ih => rw [List.map_cons, ih]
  | case3 g got r required ih => rw [List.map_cons, ih]

theorem map_actual_aligned (got required : List Text) :
    (aligned got required).map Row.actual = got.takeD required.length [] := by
  fun_induction aligned got required with
  | case1 => rfl
  | case2 r required ih => rw [List.map_cons, ih]; rfl
  | case3 g got r required ih => rw [List.map_cons, ih]; rfl

theorem length_aligned (got required : List Text) :
    (aligned got required).length = required.length := by
  rw [← List.length_map Row.correct, map_correct_aligned]

/-- The names begin with all that is required only if nothing is left of it
where they part. -/
theorem prefix_iff_of_apart {p got required : List Text}
    (h : Apart got required) : p ++ required <+: p ++ got ↔ required = [] := by
  constructor
  · intro hprefix
    have hle := length_le_of_apart h hprefix (List.prefix_refl _)
    rw [List.length_append] at hle
    exact List.length_eq_zero_iff.mp (by omega)
  · rintro rfl
    rw [List.append_nil]
    exact List.prefix_append p got

/-! ## Names that do not count -/

theorem divergence_eq (actual required : List Text) :
    divergence actual required = fromDifference
      (actual.filter fun name => decide (name ∈ required)) required := by
  simp only [divergence, List.contains_eq_mem]

theorem divergence_insert {required others : List Text}
    (h : ∀ name ∈ others, name ∉ required) (before after : List Text) :
    divergence (before ++ others ++ after) required =
      divergence (before ++ after) required := by
  have hothers : others.filter (fun name => decide (name ∈ required)) = [] := by
    rw [List.filter_eq_nil_iff]
    intro name hname
    simpa using h name hname
  rw [divergence_eq, divergence_eq, List.filter_append, List.filter_append,
    List.filter_append, hothers, List.append_nil]

/-- **The rows are what is left of the required names when the names part from
them.** Let no required name be empty, let `got` be the names that are required,
and `k` the length of the longest list that both `got` and the required names
begin with.

* There is no row if and only if `k` is the number of required names, that is,
  if `got` begins with them.
* The correct names in the rows are the required ones without the first `k`, and
  the actual ones are those of `got` without the first `k`, cut off or filled up
  with empty names.
* Names that are not required may be put anywhere between the names, or taken
  away, and the rows stay as they are. -/
theorem divergence_exact {required : List Text} (hrequired : [] ∉ required)
    (actual : List Text) :
    let got := actual.filter fun name => decide (name ∈ required)
    let rows := divergence actual required
    (∃ k, IsGreatest {n | ∃ p, p <+: got ∧ p <+: required ∧ p.length = n} k ∧
      (rows = [] ↔ k = required.length) ∧
        (k = required.length ↔ required <+: got) ∧
      rows.length = required.length - k ∧
      rows.map Row.correct = required.drop k ∧
      rows.map Row.actual = (got.drop k).takeD (required.length - k) []) ∧
    ∀ before others after, actual = before ++ after →
      (∀ name ∈ others, name ∉ required) →
      divergence (before ++ others ++ after) required = rows := by
  intro got rows
  refine ⟨?_, ?_⟩
  · have hdivergence : rows = fromDifference got required :=
      divergence_eq actual required
    clear_value got rows
    -- Both begin with `p`, and from here on `got` and `required` are what is
    -- left of them.
    obtain ⟨p, got, required, rfl, rfl, hapart⟩ := exists_apart got required
    have hrows : rows = aligned got required := by
      rw [hdivergence, fromDifference_append]
      exact fromDifference_of_apart
        (fun hmem => hrequired (List.mem_append_right p hmem)) hapart
    have hend : p.length = (p ++ required).length ↔ required = [] := by
      rw [List.length_append, Nat.left_eq_add, List.length_eq_zero_iff]
    have hrest : (p ++ required).length - p.length = required.length := by
      rw [List.length_append, Nat.add_sub_cancel_left]
    refine ⟨p.length, isGreatest_of_apart p hapart, ?_, ?_, ?_, ?_, ?_⟩
    · rw [hend, hrows, ← List.length_eq_zero_iff, length_aligned,
        List.length_eq_zero_iff]
    · rw [hend, prefix_iff_of_apart hapart]
    · rw [hrest, hrows, length_aligned]
    · rw [hrows, map_correct_aligned, List.drop_left]
    · rw [hrest, hrows, map_actual_aligned, List.drop_left]
  · rintro before others after rfl hothers
    exact divergence_insert hothers before after

/-- A name that is not required stands where one is missing. -/
theorem divergence_exact_missing :
    let required := [utf8 "NAME", utf8 "SYNOPSIS", utf8 "OPTIONS"]
    let rows := divergence [utf8 "NAME", utf8 "OPTIONS"] required
    [] ∉ required ∧ rows.map Row.correct = [utf8 "SYNOPSIS", utf8 "OPTIONS"] ∧
    rows.map Row.actual = [utf8 "OPTIONS", []] ∧
    divergence [utf8 "NAME", utf8 "NOTES", utf8 "OPTIONS"] required = rows := by
  intro required rows
  have hrequired : [] ∉ required := by decide
  obtain ⟨⟨k, hk, -, -, -, hcorrect, hactual⟩, hinsert⟩ :=
    divergence_exact hrequired [utf8 "NAME", utf8 "OPTIONS"]
  have hgot : [utf8 "NAME",
      utf8 "OPTIONS"].filter (fun name => decide (name ∈ required)) =
      [utf8 "NAME"] ++ [utf8 "OPTIONS"] := by decide
  have hapart : Apart [utf8 "OPTIONS"] [utf8 "SYNOPSIS", utf8 "OPTIONS"] :=
    apart_cons_iff.mpr (by decide)
  rw [hgot] at hk hactual
  obtain rfl := hk.unique (isGreatest_of_apart [utf8 "NAME"] hapart)
  exact ⟨hrequired, hcorrect, hactual,
    hinsert [utf8 "NAME"] [utf8 "NOTES"] [utf8 "OPTIONS"] rfl (by decide)⟩

end Order

end ToolLint
