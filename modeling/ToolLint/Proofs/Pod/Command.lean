import ToolLint.Pod.Command
import ToolLint.Proofs.Text.Lines
import Mathlib.Data.List.TakeWhile

/-!
# Command lines

What a command line looks like, said of its bytes (`Command.read?_eq_some_iff`),
and the commands of a text as something that its lines have, each for itself:
only the number of a command depends on the lines before it. The long option
that a text begins with is said of its bytes in the same way
(`longOption?_eq_some_iff`).
-/

namespace ToolLint

namespace Pod

namespace Command

/-- A name that a command can have: a letter, then letters and digits. The name
`cut` is left out. -/
def IsName (name : Text) : Prop :=
  (∃ b s, name = b :: s ∧ isLetter b = true ∧ ∀ c ∈ s, isAlnum c = true) ∧
  name ≠ utf8 "cut"

theorem isAlnum_of_isSpaceOrTab {b : UInt8} (h : isSpaceOrTab b = true) :
    isAlnum b = false := by
  rw [isSpaceOrTab, Bool.or_eq_true, beq_iff_eq, beq_iff_eq] at h
  rcases h with rfl | rfl
  · decide
  · decide

/-- A command line is an equals sign and a name, and then nothing, or a blank
and the argument. -/
theorem read?_eq_some_iff {s name arg : Text} :
    read? s = some (name, arg) ↔ IsName name ∧
      (s = 0x3D :: name ∧ arg = [] ∨ ∃ b, isSpaceOrTab b = true ∧
        s = 0x3D :: (name ++ b :: arg)) := by
  constructor
  · intro h
    unfold read? at h
    split at h
    · rename_i b s
      split at h
      · rename_i hb
        simp only at h
        split at h
        · cases h
        · rename_i hcut
          have hname : IsName (b :: s.takeWhile isAlnum) :=
            ⟨⟨b, _, rfl, hb, fun c hc => List.mem_takeWhile_imp hc⟩, hcut⟩
          have hs := List.takeWhile_append_dropWhile (p := isAlnum) (l := s)
          split at h
          · rename_i hrest
            obtain ⟨rfl, rfl⟩ := Prod.mk.inj (Option.some.inj h)
            rw [hrest, List.append_nil] at hs
            exact ⟨hname, Or.inl ⟨by rw [hs], rfl⟩⟩
          · rename_i c rest hrest
            split at h
            · rename_i hc
              obtain ⟨rfl, rfl⟩ := Prod.mk.inj (Option.some.inj h)
              rw [hrest] at hs
              exact ⟨hname, Or.inr ⟨c, hc, by rw [List.cons_append, hs]⟩⟩
            · cases h
      · cases h
    · cases h
  · rintro ⟨⟨⟨b, t, rfl, hb, ht⟩, hcut⟩, ⟨rfl, rfl⟩ | ⟨c, hc, rfl⟩⟩
    · have htake : t.takeWhile isAlnum = t := List.takeWhile_eq_self_iff.mpr ht
      have hdrop : t.dropWhile isAlnum = [] := List.dropWhile_eq_nil_iff.mpr ht
      simp only [read?, hb, htake, hdrop, hcut, if_true, if_false]
    · have htake : (t ++ c :: arg).takeWhile isAlnum = t := by
        rw [List.takeWhile_append_of_pos ht,
          List.takeWhile_cons_of_neg (by simp [isAlnum_of_isSpaceOrTab hc]),
          List.append_nil]
      have hdrop : (t ++ c :: arg).dropWhile isAlnum = c :: arg := by
        rw [List.dropWhile_append_of_pos ht,
          List.dropWhile_cons_of_neg (by simp [isAlnum_of_isSpaceOrTab hc])]
      simp only [List.cons_append, read?, hb, htake, hdrop, hcut, hc, if_true,
        if_false]

end Command

/-- The commands depend on the lines without their carriage returns only. -/
theorem commands_eq (src : Text) :
    commands src =
      ((src.lines.map Text.dropCr).zipIdx 1).filterMap fun (line, n) =>
        (Command.read? line).map fun (name, arg) => ⟨name, arg, n⟩ := by
  rw [List.zipIdx_map, List.filterMap_map]
  rfl

/-- What is taken from the commands, except from their numbers, is taken from
the lines one by one. -/
theorem filterMap_commands {α : Type} (f : Text × Text → Option α) (src : Text) :
    ((commands src).filterMap fun c => f (c.name, c.arg)) =
      src.lines.filterMap fun line => (Command.read? line.dropCr).bind f := by
  have hlines : ∀ g : Text → Option α,
      src.lines.filterMap g = (src.lines.zipIdx 1).filterMap (g ∘ Prod.fst) := by
    intro g
    rw [← List.filterMap_map, List.zipIdx_map_fst]
  rw [commands, List.filterMap_filterMap, hlines]
  congr 1
  funext ⟨line, n⟩
  simp only [Command.ofLine?, Function.comp_apply]
  cases Command.read? line.dropCr <;> rfl

/-! ## Long options -/

/-- A name that an option can have: a letter or a digit, then also underscores
and hyphens. -/
def IsOptionName (name : Text) : Prop :=
  ∃ b s, name = b :: s ∧ isAlnum b = true ∧ ∀ c ∈ s, isOptionByte c = true

theorem isOptionByte_of_isAlnum {b : UInt8} (hb : isAlnum b = true) :
    isOptionByte b = true := by
  rw [isOptionByte, isWord, hb, Bool.true_or, Bool.true_or]

theorem IsOptionName.isOptionByte {name : Text} (h : IsOptionName name) :
    ∀ b ∈ name, isOptionByte b = true := by
  obtain ⟨b, s, rfl, hb, hs⟩ := h
  exact List.forall_mem_cons.mpr ⟨isOptionByte_of_isAlnum hb, hs⟩

def negation (negatable : Bool) : Text := if negatable then utf8 "[no]" else []

/-- No name begins like the mark. -/
theorem after?_negation {name : Text} (h : IsOptionName name) (negatable : Bool)
    (r : Text) :
    (Text.after? (utf8 "[no]") (negation negatable ++ (name ++ r))).getD
      (negation negatable ++ (name ++ r)) =
      name ++ r := by
  cases negatable with
  | true =>
      rw [negation, if_pos rfl, Text.after?_eq_some_iff.mpr rfl, Option.getD_some]
  | false =>
      obtain ⟨b, s, rfl, hb, -⟩ := h
      have hne : ascii '[' ≠ b := by
        rintro rfl
        exact absurd hb (by decide)
      have hnone : Text.after? (utf8 "[no]") (b :: (s ++ r)) = none := if_neg hne
      rw [negation, if_neg Bool.false_ne_true, List.nil_append, List.cons_append,
        hnone, Option.getD_none]

/-- A text begins with a long option if it begins with two hyphens, possibly the
mark, and the name, and the name does not go on after that. -/
theorem longOption?_eq_some_iff {s name r : Text} :
    longOption? s = some (name, r) ↔ IsOptionName name ∧
      (∀ b ∈ r.head?, isOptionByte b = false) ∧
      ∃ negatable, s = utf8 "--" ++ (negation negatable ++ (name ++ r)) := by
  constructor
  · intro h
    unfold longOption? at h
    split at h
    · cases h
    · rename_i t ht
      have hmark : ∃ negatable,
          t = negation negatable ++ (Text.after? (utf8 "[no]") t).getD t := by
        cases hafter : Text.after? (utf8 "[no]") t with
        | none => exact ⟨false, rfl⟩
        | some u => exact ⟨true, Text.after?_eq_some_iff.mp hafter⟩
      obtain ⟨negatable, hmark⟩ := hmark
      split at h
      · cases h
      · rename_i b u hu
        split at h
        · rename_i hb
          obtain ⟨rfl, rfl⟩ := Prod.mk.inj (Option.some.inj h)
          refine ⟨⟨b, _, rfl, hb, fun c hc => List.mem_takeWhile_imp hc⟩,
            Text.not_of_mem_head?_dropWhile isOptionByte u, negatable, ?_⟩
          rw [List.cons_append, List.takeWhile_append_dropWhile, ← hu, ← hmark]
          exact Text.after?_eq_some_iff.mp ht
        · cases h
  · rintro ⟨hname, hr, negatable, rfl⟩
    obtain ⟨b, t, rfl, hb, ht⟩ := id hname
    have hmark := after?_negation hname negatable r
    unfold longOption?
    rw [Text.after?_eq_some_iff.mpr rfl]
    simp only [hmark]
    rw [List.cons_append]
    simp only [hb, if_true]
    rw [Text.takeWhile_append_of_head ht hr, Text.dropWhile_append_of_head ht hr]

theorem isOptionName_of_optionName? {arg name : Text}
    (h : optionName? arg = some name) : IsOptionName name := by
  obtain ⟨⟨_, rest⟩, hlong, rfl⟩ := Option.map_eq_some_iff.mp h
  exact (longOption?_eq_some_iff.mp hlong).1

end Pod

end ToolLint
