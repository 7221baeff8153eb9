import ToolLint.Proofs.Text.Pieces
import ToolLint.Report

/-!
# What a report writes

No entry of a report is silent: each of them writes at least one byte, whatever
its arguments are. For sentences this is so because of the line feed at the end
of every format. It is written as it is, or shown in the place of a verb that
does not exist, but it never takes the place of an argument.
-/

namespace ToolLint

namespace Format

theorem argument_lf_ne_nil (arg : Text) : argument '\n' arg ≠ [] := by
  rw [argument, if_neg (by decide), if_neg (by decide)]
  have h : encodeChar '\n' ≠ [] := encodeChar_ne_nil '\n'
  simp [h]

/-- If something was written already, or a line feed is still to come, filling a
format writes something. -/
theorem fill_ne_nil (done : List Text) (ps : List Piece) (args : List Text)
    (h : (∃ t ∈ done, t ≠ []) ∨ ps.getLast? = some (.char '\n')) :
    fill done ps args ≠ [] := by
  fun_induction fill done ps args with
  | case1 done ps args ih => exact ih (Or.inl ⟨_, List.mem_cons_self, by decide⟩)
  | case2 done p ps arg args hp ih =>
      apply ih
      rcases h with ⟨t, ht, hne⟩ | hlast
      · exact Or.inl ⟨t, List.mem_cons_of_mem _ ht, hne⟩
      · cases ps with
        | nil =>
            obtain rfl : p = .char '\n' := by simpa using hlast
            exact Or.inl ⟨_, List.mem_cons_self, argument_lf_ne_nil arg⟩
        | cons q ps => exact Or.inr (by simpa using hlast)
  | case3 done p ps hp ih =>
      exact ih (Or.inl ⟨_, List.mem_cons_self, by simp [utf8, encodeChar]⟩)
  | case4 done args ih => exact ih (Or.inl ⟨_, List.mem_cons_self, by decide⟩)
  | case5 done c ps args _ _ _ _ ih =>
      exact ih (Or.inl ⟨_, List.mem_cons_self, encodeChar_ne_nil c⟩)
  | case6 done b ps args ih =>
      exact ih (Or.inl ⟨[b], List.mem_cons_self, by simp⟩)
  | case7 done args =>
      rcases h with ⟨t, ht, hne⟩ | hlast
      · intro hnil
        have hflat : done.reverse.flatten = [] :=
          (List.append_eq_nil_iff.mp hnil).1
        exact hne (List.flatten_eq_nil_iff.mp hflat t (List.mem_reverse.mpr ht))
      · simp at hlast

theorem apply_lf_ne_nil (format : Text) (args : List Text) :
    apply (format ++ [lf]) args ≠ [] := by
  have hlf : IsAscii lf := by decide
  apply fill_ne_nil
  right
  rw [Text.pieces_append_ascii hlf, Text.pieces_cons_ascii hlf, Text.pieces_nil]
  simp only [List.getLast?_append, List.getLast?_singleton, Option.some_or]
  rfl

end Format

namespace Report

/-- Every entry writes something. -/
theorem Entry.render_ne_nil (e : Entry) : e.render ≠ [] := by
  cases e with
  | violation format args => exact Format.apply_lf_ne_nil format args
  | list heading items => simp [Entry.render]
  | block heading text => simp [Entry.render]
  | compare heading rows => simp [Entry.render]

/-- A report is empty only if it has no entries. -/
theorem render_eq_nil_iff {entries : List Entry} :
    render entries = [] ↔ entries = [] := by
  constructor
  · intro h
    cases entries with
    | nil => rfl
    | cons e es =>
        rw [render, List.flatMap_cons] at h
        exact absurd (List.append_eq_nil_iff.mp h).1 e.render_ne_nil
  · rintro rfl
    rfl

end Report

end ToolLint
