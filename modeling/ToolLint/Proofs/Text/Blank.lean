import ToolLint.Proofs.Text.Lines
import ToolLint.Text.Blank

/-!
# What is left of a text without white space at its ends

White space is dropped as long as one of its forms is there, and a byte that is
in no form stops this, from either end (`exists_trimEnd_append`). The carriage
return at the end of a line is white space too, so it makes no difference
whether it was dropped before (`trim_dropCr`).
-/

namespace ToolLint

namespace Text

/-! ## Forms at the beginning -/

theorem dropForms_of_none {forms : List Text} {s : Text}
    (h : afterForm? forms s = none) : dropForms forms s = s := by
  rw [dropForms.eq_def]
  split
  · simp_all
  · rfl

theorem dropForms_of_some {forms : List Text} {s r : Text}
    (h : afterForm? forms s = some r) :
    dropForms forms s = dropForms forms r := by
  rw [dropForms.eq_def]
  split
  · simp_all
  · simp_all

/-- A byte that no form begins with is not dropped. -/
theorem dropForms_cons {forms : List Text} {b : UInt8}
    (h : ∀ f ∈ forms, f.head? ≠ some b) (s : Text) :
    dropForms forms (b :: s) = b :: s := by
  apply dropForms_of_none
  rw [afterForm?, List.findSome?_eq_none_iff]
  intro f hf
  cases f with
  | nil => rfl
  | cons a f =>
      have hab : a ≠ b := fun hab => h (a :: f) hf (by rw [hab]; rfl)
      simp [after?, hab]

/-- What is dropped is made of forms. -/
theorem exists_append_dropForms (forms : List Text) (s : Text) :
    ∃ w, s = w ++ dropForms forms s ∧ ∀ b ∈ w, ∃ f ∈ forms, b ∈ f := by
  cases h : afterForm? forms s with
  | none => exact ⟨[], (dropForms_of_none h).symm, List.forall_mem_nil _⟩
  | some r =>
      obtain ⟨w, hr, hw⟩ := exists_append_dropForms forms r
      obtain ⟨f, hf, hafter⟩ := List.exists_of_findSome?_eq_some h
      split at hafter
      · cases hafter
      · refine ⟨f ++ w, ?_, ?_⟩
        · rw [dropForms_of_some h, List.append_assoc, ← hr]
          exact after?_eq_some_iff.mp hafter
        · intro b hb
          rcases List.mem_append.mp hb with hb | hb
          · exact ⟨f, hf, hb⟩
          · exact hw b hb
termination_by s.length
decreasing_by exact length_lt_of_afterForm? h

/-- A byte that is in no form stays, with all that follows it. -/
theorem exists_dropForms_append {forms : List Text} {b : UInt8}
    (hb : ∀ f ∈ forms, b ∉ f) (u v : Text) :
    ∃ w, dropForms forms (u ++ b :: v) = w ++ b :: v := by
  obtain ⟨w, hsplit, hw⟩ := exists_append_dropForms forms (u ++ b :: v)
  rcases List.append_eq_append_iff.mp hsplit with ⟨x, rfl, hx⟩ | ⟨x, -, hx⟩
  · cases x with
    | nil => exact ⟨[], hx.symm⟩
    | cons c x =>
        obtain ⟨rfl, -⟩ := List.cons.inj hx
        obtain ⟨f, hf, hmem⟩ := hw b (List.mem_append_right u List.mem_cons_self)
        exact absurd hmem (hb f hf)
  · exact ⟨x, hx⟩

theorem exists_trimEnd_append {b : UInt8} (hb : ∀ f ∈ whiteForms, b ∉ f)
    (u v : Text) : ∃ w, trimEnd (u ++ b :: v) = u ++ b :: w := by
  have hreverse : ∀ f ∈ whiteForms.map List.reverse, b ∉ f := by
    intro f hf
    obtain ⟨g, hg, rfl⟩ := List.mem_map.mp hf
    rw [List.mem_reverse]
    exact hb g hg
  obtain ⟨w, hw⟩ := exists_dropForms_append hreverse v.reverse u.reverse
  refine ⟨w.reverse, ?_⟩
  rw [trimEnd, show (u ++ b :: v).reverse = v.reverse ++ b :: u.reverse by simp,
    hw]
  simp

theorem trimEnd_isPrefix (s : Text) : trimEnd s <+: s := by
  obtain ⟨w, hw, -⟩ :=
    exists_append_dropForms (whiteForms.map List.reverse) s.reverse
  refine ⟨w.reverse, ?_⟩
  rw [trimEnd, ← List.reverse_append, ← hw, List.reverse_reverse]

/-- White space between words is white space. -/
theorem trimStart_append_of_isGap {margin : Text}
    (h : ∀ b ∈ margin, isGap b = true) (s : Text) :
    trimStart (margin ++ s) = trimStart s := by
  have hform : ∀ b : UInt8, isGap b = true → ∀ s, afterForm? whiteForms (b :: s) =
      some s := by
    intro b hb s
    simp only [isGap, Bool.or_eq_true, beq_iff_eq] at hb
    rcases hb with (((rfl | rfl) | rfl) | rfl) | rfl <;> rfl
  induction margin with
  | nil => rfl
  | cons b margin ih =>
      rw [List.forall_mem_cons] at h
      rw [List.cons_append, trimStart, dropForms_of_some (hform b h.1 _)]
      exact ih h.2

/-- A byte that is in no form of white space. -/
def isInk (b : UInt8) : Bool := whiteForms.all fun f => !f.contains b

theorem notMem_of_isInk {b : UInt8} (hb : isInk b = true) :
    ∀ f ∈ whiteForms, b ∉ f := by
  intro f hf
  simpa using List.all_eq_true.mp hb f hf

/-- White space before a word is dropped, and what follows the word loses its
end only. -/
theorem exists_trim_word {margin word : Text}
    (hmargin : ∀ b ∈ margin, isGap b = true) (hne : word ≠ [])
    (hword : ∀ b ∈ word, isInk b = true) (rest : Text) :
    ∃ r, r <+: rest ∧ trim (margin ++ (word ++ rest)) = word ++ r := by
  have hstart : trimStart (margin ++ (word ++ rest)) = word ++ rest := by
    obtain ⟨a, t, rfl⟩ := List.exists_cons_of_ne_nil hne
    have ha := notMem_of_isInk (hword a List.mem_cons_self)
    rw [trimStart_append_of_isGap hmargin, trimStart, List.cons_append,
      dropForms_cons]
    exact fun f hf hhead => ha f hf (List.mem_of_head? hhead)
  obtain ⟨u, b, rfl⟩ : ∃ u b, word = u ++ [b] :=
    ⟨_, _, (List.dropLast_append_getLast hne).symm⟩
  have hb :=
    notMem_of_isInk
      (hword b (List.mem_append_right u (List.mem_singleton_self b)))
  rw [List.append_assoc, List.singleton_append] at hstart
  obtain ⟨r, hr⟩ := exists_trimEnd_append hb u rest
  refine ⟨r, ?_, ?_⟩
  · have hprefix := trimEnd_isPrefix (u ++ b :: rest)
    rw [hr, List.prefix_append_right_inj, List.cons_prefix_cons] at hprefix
    exact hprefix.2
  · rw [trim, List.append_assoc, List.singleton_append, hstart, hr,
      List.append_assoc, List.singleton_append]

/-! ## The carriage return at the end of a line -/

theorem after?_append_of_notMem {w : Text} {c : UInt8} (hc : c ∉ w) (s : Text) :
    after? w (s ++ [c]) = (after? w s).map (· ++ [c]) := by
  induction w generalizing s with
  | nil => rfl
  | cons a w ih =>
      rw [List.mem_cons, not_or] at hc
      cases s with
      | nil => simp [after?, Ne.symm hc.1]
      | cons b s =>
          by_cases hab : a = b
          · simp [after?, hab, ih hc.2]
          · simp [after?, hab]

/-- A byte that ends no longer form does not change the first form of a text. -/
theorem afterForm?_append {forms : List Text} {c : UInt8}
    (hc : ∀ f ∈ forms, c ∉ f.tail) (b : UInt8) (s : Text) :
    afterForm? forms (b :: s ++ [c]) = (afterForm? forms (b :: s)).map
      (· ++ [c]) := by
  induction forms with
  | nil => rfl
  | cons f forms ih =>
      rw [List.forall_mem_cons] at hc
      have hrest := ih hc.2
      unfold afterForm? at hrest ⊢
      rw [List.findSome?_cons, List.findSome?_cons, hrest]
      cases f with
      | nil => rfl
      | cons a f =>
          have hafter : after? (a :: f) (b :: s ++ [c]) =
              (after? (a :: f) (b :: s)).map (· ++ [c]) := by
            by_cases hab : a = b
            · have htail := after?_append_of_notMem (w := f) hc.1 s
              simpa [after?, hab] using htail
            · simp [after?, hab]
          rw [hafter]
          cases after? (a :: f) (b :: s) <;> rfl

theorem trimStart_append_cr (s : Text) :
    trimStart (s ++ [cr]) = if trimStart s = [] then [] else
      trimStart s ++ [cr] := by
  have hcr : ∀ f ∈ whiteForms, cr ∉ f.tail := by decide
  unfold trimStart
  cases s with
  | nil =>
      have hnil : dropForms whiteForms [] = [] := dropForms_of_none rfl
      rw [hnil, if_pos rfl, List.nil_append, dropForms_of_some (r := []) rfl,
        hnil]
  | cons b s =>
      have hafter := afterForm?_append hcr b s
      cases h : afterForm? whiteForms (b :: s) with
      | none =>
          rw [h] at hafter
          rw [dropForms_of_none h, dropForms_of_none hafter,
            if_neg (List.cons_ne_nil b s)]
      | some r =>
          rw [h] at hafter
          rw [dropForms_of_some h, dropForms_of_some hafter]
          exact trimStart_append_cr r
termination_by s.length
decreasing_by exact length_lt_of_afterForm? h

theorem trimEnd_append_cr (s : Text) : trimEnd (s ++ [cr]) = trimEnd s := by
  have hcr : afterForm? (whiteForms.map List.reverse) (cr :: s.reverse) =
      some s.reverse := rfl
  rw [trimEnd, trimEnd, List.reverse_append, List.reverse_singleton,
    List.singleton_append, dropForms_of_some hcr]

/-- **Dropping a carriage return first makes no difference.** -/
theorem trim_dropCr (line : Text) : trim (dropCr line) = trim line := by
  rcases eq_or_eq_append_cr line with h | h
  · rw [← h]
  · generalize dropCr line = d at h
    subst h
    unfold trim
    rw [trimStart_append_cr]
    split
    · rename_i hnil
      rw [hnil]
    · rw [trimEnd_append_cr]

end Text

end ToolLint
