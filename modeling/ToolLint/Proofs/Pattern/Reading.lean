import ToolLint.Pattern.Reader
import ToolLint.Proofs.Pattern.Matching
import ToolLint.Proofs.Text.Pieces
import Mathlib.Data.Bool.AllAny

/-!
# Patterns as they are written

The tokens of a written pattern come one after the other (`tokens_cons`).
Characters without a meaning of their own stand for themselves, so a name that
is written in a pattern is matched by itself (`reads_literal_append`).
-/

namespace ToolLint

namespace Pattern

/-! ## One token after the other -/

/-- Reading a class only ever moves on. -/
theorem length_classRanges_le {fuel : Nat} {first : Bool}
    {ranges rs : List (Char × Char)} {s rest : List Char}
    (h : classRanges fuel first ranges s = .ok (rs, rest)) :
    rest.length ≤ s.length := by
  induction fuel generalizing first ranges s with
  | zero => simp [classRanges] at h
  | succ fuel ih =>
      -- `classRanges` and `one` call each other, but only the first of them
      -- takes from the fuel.
      have hone : ∀ {lo : Char} {r : List Char},
          classRanges.one fuel ranges lo r = .ok (rs, rest) →
          rest.length ≤ r.length := by
        intro lo r h
        unfold classRanges.one at h
        split at h
        · exact ih h
        · split at h
          · have := ih h
            simp only [List.length_cons]
            omega
          · cases h
        · exact ih h
      unfold classRanges at h
      split at h
      · cases h
      · split at h
        · exact Nat.le_succ_of_le (hone h)
        · cases h
          exact Nat.le_succ _
      · rename_i r
        simp only at h
        split at h
        · rename_i t _ hdrop _
          have hle :=
            (List.dropWhile_sublist (p := Char.isAlpha) (l := r)).length_le
          rw [hdrop] at hle
          have := ih h
          simp only [List.length_cons] at hle ⊢
          omega
        · exact Nat.le_succ_of_le (hone h)
      · have := hone h
        simp only [List.length_cons]
        omega
      · exact Nat.le_succ_of_le (hone h)

theorem length_readClass_le {s rest : List Char} {k : CharClass}
    (h : readClass s = .ok (k, rest)) : rest.length ≤ s.length := by
  unfold readClass at h
  split at h
  rename_i negated body hbody
  have hle : body.length ≤ s.length := by
    split at hbody
    · obtain ⟨-, rfl⟩ := Prod.mk.inj hbody
      exact Nat.le_succ _
    · obtain ⟨-, rfl⟩ := Prod.mk.inj hbody
      exact Nat.le_refl _
  split at h
  · rename_i hranges
    cases h
    exact Nat.le_trans (length_classRanges_le hranges) hle
  · cases h
  · cases h

theorem length_nextToken_le (c : Char) (r : List Char) :
    (nextToken c r).2.length ≤ r.length := by
  unfold nextToken
  split
  case h_7 =>
      split
      · rename_i k rest hclass
        exact length_readClass_le hclass
      · exact Nat.zero_le _
  case h_8 =>
      split
      · exact Nat.le_refl _
      · split
        · exact Nat.zero_le _
        · exact Nat.le_succ _
  case h_9 =>
      split
      · exact Nat.le_succ _
      · exact Nat.le_refl _
      · exact Nat.le_refl _
  all_goals exact Nat.le_refl _

/-- A token takes at least one character, so there is no need for more fuel than
characters. -/
theorem tokensFrom_eq {m n : Nat} {s : List Char} (hm : s.length ≤ m)
    (hn : s.length ≤ n) : tokensFrom m s = tokensFrom n s := by
  induction m generalizing n s with
  | zero =>
      obtain rfl := List.length_eq_zero_iff.mp (Nat.le_zero.mp hm)
      cases n <;> rfl
  | succ m ih =>
      cases s with
      | nil => cases n <;> rfl
      | cons c r =>
          cases n with
          | zero => simp at hn
          | succ n =>
              have hle := length_nextToken_le c r
              rw [List.length_cons] at hm hn
              simp only [tokensFrom]
              rw [ih (n := n) (by omega) (by omega)]

/-- The tokens are the first one and those of what follows it. -/
theorem tokens_cons {c : Char} {r rest : List Char} {t : Token}
    (h : nextToken c r = (t, rest)) : tokens (c :: r) = t :: tokens rest := by
  have hle := length_nextToken_le c r
  rw [h] at hle
  show tokensFrom (r.length + 1) (c :: r) = _
  simp only [tokensFrom, h]
  rw [tokens, tokensFrom_eq hle (Nat.le_refl _)]

/-! ## Plain characters -/

/-- A character that stands for itself in a written pattern. -/
def IsPlain (c : Char) : Prop := c ∉ "()|^$.[\\*+?".toList

instance (c : Char) : Decidable (IsPlain c) := inferInstanceAs (Decidable (¬ _))

def literal (c : Char) : Pattern := char (.single c)

theorem nextToken_of_isPlain {c : Char} (hc : IsPlain c) (r : List Char) :
    nextToken c r = (.atom (literal c), r) := by
  have hrepeat : repeat? c = none := by
    unfold repeat?
    split <;> simp_all [IsPlain]
  unfold nextToken
  split
  case h_9 =>
      rw [hrepeat]
      rfl
  all_goals simp_all [IsPlain]

theorem tokens_plain_append {w : List Char} (hw : ∀ c ∈ w, IsPlain c)
    (s : List Char) :
    tokens (w ++ s) = (w.map literal).map .atom ++ tokens s := by
  induction w with
  | nil => rfl
  | cons c w ih =>
      rw [List.cons_append,
        tokens_cons (nextToken_of_isPlain (hw c List.mem_cons_self) _),
        ih fun d hd => hw d (List.mem_cons_of_mem c hd)]
      rfl

/-! ## Groups -/

/-- Atoms are added to the innermost group. -/
theorem foldlM_readToken_atoms (ps : List Pattern) (hps : ps ≠ [])
    (ts : List Token) (g : Group) (outer : List Group) :
    (ps.map Token.atom ++ ts).foldlM readToken (g, outer) =
      ts.foldlM readToken (⟨g.choices, ps.reverse ++ g.parts, []⟩, outer) := by
  induction ps generalizing g with
  | nil => exact absurd rfl hps
  | cons p ps ih =>
      rw [List.map_cons, List.cons_append, List.foldlM_cons]
      have hstep : readToken (g, outer) (.atom p) = .ok (g.push p, outer) := rfl
      rw [hstep]
      show (ps.map Token.atom ++ ts).foldlM readToken (g.push p, outer) = _
      -- Reading an atom clears the operator, so the group is only known after
      -- the last of them.
      by_cases hne : ps = []
      · subst hne
        rfl
      · rw [ih hne]
        simp [Group.push]

/-- The tokens make a pattern if no group is left open. -/
theorem ofTokens_of_foldlM {ts : List Token} {g : Group}
    (h : ts.foldlM readToken (Group.empty, []) = .ok (g, [])) :
    ofTokens ts = .ok g.close := by
  unfold ofTokens
  rw [h]
  rfl

/-! ## What a literal text matches -/

theorem has_single_iff {c d : Char} :
    (CharClass.single c).has d = true ↔ d = c := by
  simp only [CharClass.has, CharClass.single, List.any_cons, List.any_nil,
    Bool.or_false, Bool.bne_false, Bool.and_eq_true, decide_eq_true_eq]
  constructor
  · rintro ⟨h₁, h₂⟩
    exact Char.le_antisymm h₂ h₁
  · rintro rfl
    exact ⟨Char.le_refl _, Char.le_refl _⟩

theorem reads_all_cons_iff {p : Pattern} {ps : List Pattern} {i : Nat}
    {w r : List Char} :
    (all (p :: ps)).Reads i w r ↔
      ∃ u v, w = u ++ v ∧ p.Reads i u (v ++ r) ∧
        (all ps).Reads (i + u.length) v r := Iff.rfl

/-- A literal text matches itself, and then what follows it has to be matched. -/
theorem reads_literal_append {cs : List Char} {ps : List Pattern} {i : Nat}
    {w r : List Char} :
    (all (cs.map literal ++ ps)).Reads i w r ↔
      ∃ v, w = cs ++ v ∧ (all ps).Reads (i + cs.length) v r := by
  induction cs generalizing i w with
  | nil =>
      constructor
      · intro h
        exact ⟨w, rfl, h⟩
      · rintro ⟨v, rfl, h⟩
        exact h
  | cons c cs ih =>
      rw [List.map_cons, List.cons_append, reads_all_cons_iff]
      constructor
      · rintro ⟨u, v, rfl, ⟨d, rfl, hd⟩, h⟩
        obtain rfl := has_single_iff.mp hd
        obtain ⟨t, rfl, ht⟩ := ih.mp h
        exact ⟨t, rfl, by simpa [Nat.add_assoc, Nat.add_comm 1] using ht⟩
      · rintro ⟨v, rfl, h⟩
        refine ⟨[c], cs ++ v, rfl, ⟨c, rfl, has_single_iff.mpr rfl⟩,
          ih.mpr ⟨v, rfl, ?_⟩⟩
        simpa [Nat.add_assoc, Nat.add_comm 1] using h

/-- A repeated class matches any number of its characters. -/
theorem reads_many_char_iff {k : CharClass} {i : Nat} {w r : List Char} :
    (many (char k)).Reads i w r ↔ ∀ c ∈ w, k.has c = true := by
  constructor
  · intro h
    induction h with
    | done i r => simp
    | more hu first others ih =>
        obtain ⟨d, rfl, hd⟩ := first
        intro c hc
        rcases List.mem_cons.mp hc with rfl | hc
        · exact hd
        · exact ih c hc
  · intro h
    induction w generalizing i with
    | nil => exact .done i r
    | cons c w ih =>
        refine Repeats.more (u := [c]) (List.cons_ne_nil c []) ⟨c, rfl,
          h c List.mem_cons_self⟩ ?_
        exact ih fun d hd => h d (List.mem_cons_of_mem c hd)

/-! ## The written form of a text -/

/-- A text without special characters is its own written form. -/
theorem escape_eq_self {s : Text} (h : ∀ b ∈ s, b ∉ special) : escape s = s := by
  induction s with
  | nil => rfl
  | cons b s ih =>
      rw [escape, List.flatMap_cons,
        if_neg (by simpa using h b List.mem_cons_self)]
      rw [← escape, ih fun c hc => h c (List.mem_cons_of_mem b hc)]
      rfl

theorem escape_append (s t : Text) : escape (s ++ t) = escape s ++ escape t := by
  unfold escape
  rw [List.flatMap_append]

theorem isAscii_of_mem_special : ∀ b ∈ special, IsAscii b :=
  List.all_iff_forall_prop.mp (by decide)

/-- The written form of a text is again a text: a backslash never comes between
the bytes of a character. -/
theorem isEncoded_escape {s : Text} (hs : s.IsEncoded) :
    (escape s).IsEncoded := by
  obtain ⟨cs, rfl⟩ := hs
  induction cs with
  | nil => exact ⟨[], rfl⟩
  | cons c cs ih =>
      rw [List.flatMap_cons, escape_append]
      refine Text.IsEncoded.append ?_ ih
      by_cases hc : c.toNat < 0x80
      · apply Text.isEncoded_word
        rw [encodeChar, if_pos hc]
        intro b hb
        obtain ⟨a, ha, hb⟩ := List.mem_flatMap.mp hb
        obtain rfl := List.mem_singleton.mp ha
        have hascii : IsAscii c.toNat.toUInt8 := by
          rw [IsAscii, toNat_toUInt8 (by omega)]
          exact hc
        split at hb
        · simp only [List.mem_cons, List.not_mem_nil, or_false] at hb
          rcases hb with rfl | rfl
          · decide
          · exact hascii
        · obtain rfl := List.mem_singleton.mp hb
          exact hascii
      · have hplain : ∀ b ∈ encodeChar c, b ∉ special := fun b hb hmem =>
          Text.not_isAscii_of_mem_encodeChar (Nat.le_of_not_lt hc) b hb
            (isAscii_of_mem_special b hmem)
        rw [escape_eq_self hplain]
        exact ⟨[c], by simp⟩

/-- A pattern that is a text is not refused. -/
theorem rejection?_of_isEncoded {s : Text} (hs : s.IsEncoded) :
    rejection? s = none := by
  rw [rejection?, Text.fromStray?_eq_none hs]
  rfl

/-- A written pattern of ASCII bytes is a text. -/
theorem read_word {s : Text} (h : ∀ b ∈ s, IsAscii b) :
    read s = ofTokens (tokens (s.map byteChar)) := by
  unfold read
  rw [Text.fromStray?_eq_none (Text.isEncoded_word h), Text.chars_word h]

end Pattern

end ToolLint
