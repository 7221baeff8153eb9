import ToolLint.Text.Lines
import Mathlib.Data.List.Basic
import Mathlib.Data.List.TakeWhile

/-!
# Lines and their ends

A text is cut at its separators and nowhere else, so texts without a separator
in them are read back from the text that joins them (`split_join`), and a reader
gets all lines that were written with a line feed after each
(`terminated_unlines`). A part is what lies between two separators
(`getElem?_split_iff`), and a word without a separator in it is in the text if
and only if it is in one of the parts (`infix_iff_exists_mem_split`). One
carriage return before a line feed belongs to the end of the line: `crlf` puts
one there (`lines_crlf_eq`), and the lines are the same again once it is dropped
(`lines_crlf`).
-/

namespace ToolLint

theorem isSpaceOrTab_iff {b : UInt8} :
    isSpaceOrTab b = true ↔ b = space ∨ b = tab := by
  rw [isSpaceOrTab, Bool.or_eq_true, beq_iff_eq, beq_iff_eq]

namespace Text

/-! ## Runs of bytes -/

/-- A run of bytes ends where a byte of another kind comes. -/
theorem takeWhile_append_of_head {p : UInt8 → Bool} {u v : Text}
    (hu : ∀ b ∈ u, p b = true) (hv : ∀ b ∈ v.head?, p b = false) :
    (u ++ v).takeWhile p = u := by
  rw [List.takeWhile_append_of_pos hu]
  cases v with
  | nil => exact List.append_nil u
  | cons b v =>
      rw [List.takeWhile_cons_of_neg (by simp [hv b rfl]), List.append_nil]

theorem dropWhile_append_of_head {p : UInt8 → Bool} {u v : Text}
    (hu : ∀ b ∈ u, p b = true) (hv : ∀ b ∈ v.head?, p b = false) :
    (u ++ v).dropWhile p = v := by
  rw [List.dropWhile_append_of_pos hu]
  cases v with
  | nil => rfl
  | cons b v => rw [List.dropWhile_cons_of_neg (by simp [hv b rfl])]

/-- The run is as long as it can be. -/
theorem not_of_mem_head?_dropWhile (p : UInt8 → Bool) (s : Text) :
    ∀ b ∈ (s.dropWhile p).head?, p b = false := by
  intro b hb
  have hstop := List.head?_dropWhile_not p s
  rw [hb] at hstop
  exact hstop

theorem afterSome_iff {p : UInt8 → Bool} {k : Text → Bool} {s : Text} :
    afterSome p k s = true ↔
      ∃ gap r, gap ≠ [] ∧ (∀ b ∈ gap, p b = true) ∧ s = gap ++ r ∧
        k r = true := by
  induction s with
  | nil => simp [afterSome]
  | cons b s ih =>
      rw [afterSome, Bool.and_eq_true, Bool.or_eq_true, ih]
      constructor
      · rintro ⟨hb, hk | ⟨gap, r, -, hgap, rfl, hk⟩⟩
        · exact ⟨[b], s, List.cons_ne_nil b [], List.forall_mem_singleton.mpr hb,
            rfl, hk⟩
        · exact ⟨b :: gap, r, List.cons_ne_nil b gap,
            List.forall_mem_cons.mpr ⟨hb, hgap⟩, rfl, hk⟩
      · rintro ⟨gap, r, hne, hgap, heq, hk⟩
        obtain ⟨c, gap, rfl⟩ := List.exists_cons_of_ne_nil hne
        obtain ⟨rfl, rfl⟩ := List.cons.inj heq
        obtain ⟨hb, hgap⟩ := List.forall_mem_cons.mp hgap
        refine ⟨hb, ?_⟩
        by_cases hnil : gap = []
        · subst hnil
          exact Or.inl hk
        · exact Or.inr ⟨gap, r, hnil, hgap, rfl, hk⟩

theorem dropWhileEnd_append {p : UInt8 → Bool} {u w : Text}
    (hu : ∀ b ∈ u.getLast?, p b = false) (hw : ∀ b ∈ w, p b = true) :
    dropWhileEnd p (u ++ w) = u := by
  unfold dropWhileEnd
  rw [List.reverse_append, dropWhile_append_of_head, List.reverse_reverse]
  · exact fun b hb => hw b (List.mem_reverse.mp hb)
  · rwa [List.head?_reverse]

theorem afterLast_append {p : UInt8 → Bool} {b : UInt8} {w : Text}
    (hb : p b = true) (hw : ∀ c ∈ w, p c = false) (u : Text) :
    afterLast p (u ++ b :: w) = w := by
  have hrun : ∀ c ∈ w.reverse, (!p c) = true := by
    intro c hc
    rw [hw c (List.mem_reverse.mp hc)]
    rfl
  have hstop : ∀ c ∈ (b :: u.reverse).head?, (!p c) = false := by
    rintro _ ⟨rfl⟩
    rw [hb]
    rfl
  unfold afterLast
  rw [List.reverse_append, List.reverse_cons, List.append_assoc,
    List.singleton_append, takeWhile_append_of_head hrun hstop,
    List.reverse_reverse]

/-- What is after the last of the bytes in `p` ends the text, and has none of
them in it. -/
theorem afterLast_eq_iff {p : UInt8 → Bool} {s t : Text} : afterLast p s = t ↔
    ∃ u, s = u ++ t ∧ (∀ b ∈ u.getLast?, p b = true) ∧ ∀ b ∈ t, p b = false := by
  constructor
  · rintro rfl
    refine ⟨(s.reverse.dropWhile fun b => !p b).reverse, ?_, ?_, ?_⟩
    · rw [afterLast, ← List.reverse_append, List.takeWhile_append_dropWhile,
        List.reverse_reverse]
    · intro b hb
      rw [List.getLast?_reverse] at hb
      simpa using not_of_mem_head?_dropWhile (fun b => !p b) s.reverse b hb
    · intro b hb
      have hrun := List.mem_takeWhile_imp (List.mem_reverse.mp hb)
      simpa using hrun
  · rintro ⟨u, rfl, hu, ht⟩
    rcases List.eq_nil_or_concat u with rfl | ⟨u, b, rfl⟩
    · have hrun : ∀ b ∈ t.reverse, (!p b) = true := fun b hb => by
        rw [ht b (List.mem_reverse.mp hb)]; rfl
      rw [List.nil_append, afterLast, List.takeWhile_eq_self_iff.mpr hrun,
        List.reverse_reverse]
    · rw [List.concat_eq_append, List.append_assoc, List.singleton_append]
      exact afterLast_append (hu b (by simp)) ht u

/-! ## Parts between separators -/

theorem split_eq_splitOn (sep : UInt8) (s : Text) :
    split sep s = s.splitOn sep := by
  induction s with
  | nil => rfl
  | cons b s ih =>
      rw [List.splitOn, List.splitOnP_cons_eq_if_modifyHead, ← List.splitOn, ← ih]
      by_cases hb : b = sep
      · subst hb
        simp [split_cons_self]
      · obtain ⟨part, rest, h, h'⟩ := split_cons_of_ne hb s
        simp [h, h', hb]

theorem split_join {sep : UInt8} {parts : List Text} (hne : parts ≠ [])
    (h : ∀ part ∈ parts, sep ∉ part) : split sep (join [sep] parts) = parts := by
  rw [split_eq_splitOn]
  exact List.splitOn_intercalate sep h hne

theorem split_of_notMem {sep : UInt8} {s : Text} (h : sep ∉ s) :
    split sep s = [s] := by
  have hjoin : join [sep] [s] = s := List.append_nil s
  have hsplit :=
    split_join (List.cons_ne_nil s []) (List.forall_mem_singleton.mpr h)
  rwa [hjoin] at hsplit

/-- A part has no separator in it. -/
theorem notMem_of_mem_split {sep : UInt8} {s part : Text}
    (h : part ∈ split sep s) : sep ∉ part := by
  induction s generalizing part with
  | nil =>
      obtain rfl := List.mem_singleton.mp h
      exact List.not_mem_nil
  | cons b s ih =>
      by_cases hb : b = sep
      · subst hb
        rw [split_cons_self] at h
        rcases List.mem_cons.mp h with rfl | h
        · exact List.not_mem_nil
        · exact ih h
      · obtain ⟨first, rest, hs, hcons⟩ := split_cons_of_ne hb s
        rw [hcons] at h
        rcases List.mem_cons.mp h with rfl | h
        · rw [List.mem_cons, not_or]
          exact ⟨fun heq => hb heq.symm,
            ih (by rw [hs]; exact List.mem_cons_self)⟩
        · exact ih (by rw [hs]; exact List.mem_cons_of_mem _ h)

theorem infix_of_mem_split {sep : UInt8} {s part : Text}
    (h : part ∈ split sep s) : part <:+: s := by
  have hmem : ∀ parts : List Text, part ∈ parts →
      part ∈ parts.intersperse [sep] := by
    intro parts
    induction parts with
    | nil => simp
    | cons x parts ih =>
        cases parts with
        | nil => simp
        | cons y parts =>
            rw [List.intersperse_cons_cons]
            intro hmem
            rcases List.mem_cons.mp hmem with rfl | hmem
            · exact List.mem_cons_self
            · exact List.mem_cons_of_mem _ (List.mem_cons_of_mem _ (ih hmem))
  have hpart := List.infix_of_mem_flatten (hmem _ h)
  rwa [← join, join_split] at hpart

/-- Every byte of a part is a byte of the text. -/
theorem mem_of_mem_split {sep b : UInt8} {s part : Text}
    (h : part ∈ split sep s) (hb : b ∈ part) : b ∈ s :=
  (infix_of_mem_split h).subset hb

/-- There is one part more than separators. -/
theorem length_split (sep : UInt8) (s : Text) :
    (split sep s).length = s.count sep + 1 := by
  induction s with
  | nil => rfl
  | cons b s ih =>
      by_cases hb : b = sep
      · subst hb
        rw [split_cons_self, List.length_cons, ih, List.count_cons_self]
      · obtain ⟨part, rest, h, h'⟩ := split_cons_of_ne hb s
        rw [h', List.length_cons, ← List.length_cons, ← h, ih,
          List.count_cons_of_ne hb]

/-- Before and after a separator the text is cut on its own. -/
theorem split_append_cons_self (sep : UInt8) (s t : Text) :
    split sep (s ++ sep :: t) = split sep s ++ split sep t := by
  induction s with
  | nil => rw [List.nil_append, split_cons_self, split_nil, List.singleton_append]
  | cons b s ih =>
      by_cases hb : b = sep
      · subst hb
        rw [List.cons_append, split_cons_self, split_cons_self, ih,
          List.cons_append]
      · obtain ⟨part, rest, h, h'⟩ := split_cons_of_ne hb s
        obtain ⟨part₂, rest₂, h₂, h₂'⟩ := split_cons_of_ne hb (s ++ sep :: t)
        rw [ih, h, List.cons_append] at h₂
        obtain ⟨rfl, rfl⟩ := List.cons.inj h₂
        rw [List.cons_append, h₂', h', List.cons_append]

/-- A separator at the end adds an empty part. -/
theorem split_append_self (sep : UInt8) (s : Text) :
    split sep (s ++ [sep]) = split sep s ++ [[]] :=
  split_append_cons_self sep s []

theorem forall_getLast?_cons {sep b : UInt8} {u : Text} (h : b = sep ∨ u ≠ [])
    (hu : ∀ c ∈ u.getLast?, c = sep) : ∀ c ∈ List.getLast? (b :: u), c = sep := by
  cases u with
  | nil =>
      rintro c ⟨rfl⟩
      exact h.resolve_right fun hne => hne rfl
  | cons d u =>
      rw [List.getLast?_cons_cons]
      exact hu

/-- A part is what stands between two separators, and its number is that of the
separators before it. -/
theorem getElem?_split_iff {sep : UInt8} {s part : Text} {k : Nat} :
    (split sep s)[k]? = some part ↔
      sep ∉ part ∧ ∃ u v, s = u ++ part ++ v ∧ u.count sep = k ∧
      (∀ b ∈ u.getLast?, b = sep) ∧ ∀ b ∈ v.head?, b = sep := by
  constructor
  · intro h
    refine ⟨notMem_of_mem_split (List.mem_of_getElem? h), ?_⟩
    induction s generalizing k part with
    | nil =>
        obtain ⟨rfl, rfl⟩ : k = 0 ∧ part = [] := by
          rw [split_nil, List.getElem?_singleton] at h
          split at h
          · exact ⟨‹_›, (Option.some.inj h).symm⟩
          · cases h
        exact ⟨[], [], rfl, rfl, by simp, by simp⟩
    | cons b s ih =>
        by_cases hb : b = sep
        · subst hb
          rw [split_cons_self] at h
          cases k with
          | zero =>
              obtain rfl := Option.some.inj h
              exact ⟨[], b :: s, rfl, rfl, by simp, by simp⟩
          | succ k =>
              obtain ⟨u, v, rfl, rfl, hu, hv⟩ := ih h
              exact ⟨b :: u, v, rfl, List.count_cons_self,
                forall_getLast?_cons (Or.inl rfl) hu, hv⟩
        · obtain ⟨first, rest, hs, hcons⟩ := split_cons_of_ne hb s
          rw [hcons] at h
          rw [hs] at ih
          cases k with
          | zero =>
              obtain rfl := Option.some.inj h
              obtain ⟨u, v, rfl, hcount, hu, hv⟩ := ih (k := 0) rfl
              -- The text before it would end in a separator, and there is none.
              have hnil : u = [] := by
                by_contra hne
                have hlast := hu _ (List.getLast?_eq_some_getLast hne)
                exact List.count_eq_zero.mp hcount (hlast ▸ List.getLast_mem hne)
              subst hnil
              exact ⟨[], v, rfl, rfl, by simp, hv⟩
          | succ k =>
              obtain ⟨u, v, rfl, hcount, hu, hv⟩ := ih (k := k + 1) h
              have hne : u ≠ [] := by
                rintro rfl
                cases hcount
              exact ⟨b :: u, v, rfl, by rw [List.count_cons_of_ne hb, hcount],
                forall_getLast?_cons (Or.inr hne) hu, hv⟩
  · rintro ⟨hpart, u, v, rfl, rfl, hu, hv⟩
    have hfirst : (split sep (part ++ v))[0]? = some part := by
      cases v with
      | nil =>
          rw [List.append_nil, split_of_notMem hpart, List.getElem?_cons_zero]
      | cons b v =>
          obtain rfl := hv b rfl
          rw [split_append_cons_self, split_of_notMem hpart,
            List.singleton_append, List.getElem?_cons_zero]
    rcases List.eq_nil_or_concat u with rfl | ⟨u, b, rfl⟩
    · exact hfirst
    · obtain rfl := hu b (by simp)
      rw [List.concat_eq_append, List.append_assoc, List.append_assoc,
        List.singleton_append, split_append_cons_self, List.count_append,
        List.count_singleton_self, ← length_split,
        List.getElem?_append_right (Nat.le_refl _), Nat.sub_self]
      exact hfirst

/-- A word without a separator in it is found in one of the parts. -/
theorem infix_iff_exists_mem_split {sep : UInt8} {w : Text} (hw : sep ∉ w)
    (s : Text) : w <:+: s ↔ ∃ part ∈ split sep s, w <:+: part := by
  constructor
  · rintro ⟨u, v, rfl⟩
    rw [List.append_assoc]
    induction u with
    | nil =>
        -- The first part begins with the word.
        rw [List.nil_append]
        by_cases hv : sep ∈ v
        · obtain ⟨v₁, v₂, rfl, hnot⟩ := List.eq_append_cons_of_mem hv
          have hpart : sep ∉ w ++ v₁ := List.not_mem_append hw hnot
          rw [← List.append_assoc, split_append_cons_self, split_of_notMem hpart]
          exact ⟨w ++ v₁, List.mem_cons_self, [], v₁, rfl⟩
        · rw [split_of_notMem (List.not_mem_append hw hv)]
          exact ⟨w ++ v, List.mem_cons_self, [], v, rfl⟩
    | cons b u ih =>
        obtain ⟨part, hpart, hword⟩ := ih
        rw [List.cons_append]
        by_cases hb : b = sep
        · subst hb
          rw [split_cons_self]
          exact ⟨part, List.mem_cons_of_mem _ hpart, hword⟩
        · obtain ⟨first, rest, hs, hcons⟩ := split_cons_of_ne hb (u ++ (w ++ v))
          rw [hs] at hpart
          rw [hcons]
          rcases List.mem_cons.mp hpart with rfl | hpart
          · exact ⟨b :: part, List.mem_cons_self, List.infix_cons hword⟩
          · exact ⟨part, List.mem_cons_of_mem _ hpart, hword⟩
  · rintro ⟨part, hpart, hword⟩
    exact hword.trans (infix_of_mem_split hpart)

theorem length_dropLastIf_le (b : UInt8) (s : Text) :
    (dropLastIf b s).length ≤ s.length := by
  unfold dropLastIf
  split
  · rw [List.length_dropLast]
    exact Nat.sub_le _ _
  · exact Nat.le_refl _

/-! ## Lines with a line feed after each -/

theorem lines_flatMap_append {ls : List Text} (h : ∀ line ∈ ls, lf ∉ line)
    (rest : Text) :
    lines (ls.flatMap (· ++ [lf]) ++ rest) = ls ++ lines rest := by
  induction ls with
  | nil => rfl
  | cons line ls ih =>
      obtain ⟨hline, hls⟩ := List.forall_mem_cons.mp h
      rw [List.flatMap_cons, List.append_assoc, List.append_assoc,
        List.singleton_append, lines, split_append_cons_self,
        split_of_notMem hline, ← lines, ih hls, List.singleton_append,
        List.cons_append]

/-- What follows a line feed is read on its own. -/
theorem terminated_append_lf (s t : Text) :
    terminated (s ++ lf :: t) = s.lines ++ terminated t := by
  have hlines : (s ++ lf :: t).lines = s.lines ++ t.lines :=
    split_append_cons_self lf s t
  have hgetLast : (s.lines ++ t.lines).getLast? = t.lines.getLast? :=
    List.getLast?_append_of_ne_nil s.lines (split_ne_nil lf t)
  unfold terminated
  simp only [hlines, hgetLast]
  split
  · exact List.dropLast_append_of_ne_nil (split_ne_nil lf t)
  · rfl

theorem terminated_append_of_lf (s t : Text) :
    terminated (s ++ [lf] ++ t) = terminated (s ++ [lf]) ++ terminated t := by
  rw [List.append_assoc, List.singleton_append, terminated_append_lf,
    terminated_append_lf]
  exact congrArg (· ++ terminated t) (List.append_nil s.lines).symm

theorem terminated_line_append_lf {line : Text} (h : lf ∉ line) (t : Text) :
    terminated (line ++ lf :: t) = line :: terminated t := by
  rw [terminated_append_lf, lines, split_of_notMem h, List.singleton_append]

/-- Lines that are written with a line feed after each are read back. -/
theorem terminated_unlines {ls : List Text} (hne : ls ≠ [])
    (h : ∀ line ∈ ls, lf ∉ line) : terminated (unlines ls ++ [lf]) = ls := by
  rw [terminated_append_lf, lines, unlines, split_join hne h]
  exact List.append_nil ls

/-- Without a line feed at the end an empty last line is not seen. -/
theorem terminated_unlines_eq {ls : List Text} (hne : ls ≠ [])
    (h : ∀ line ∈ ls, lf ∉ line) :
    terminated (unlines ls) = if ls.getLast? = some [] then
      ls.dropLast else ls := by
  have hlines : (unlines ls).lines = ls := split_join hne h
  unfold terminated
  simp only [hlines]

theorem terminated_of_notMem {line : Text} (hne : line ≠ []) (h : lf ∉ line) :
    terminated line = [line] := by
  unfold terminated lines
  rw [split_of_notMem h, if_neg (by simpa using hne)]

/-- A line that is not empty may be ended by a line feed or not. -/
theorem terminated_append_ending {line ending : Text} (hne : line ≠ [])
    (h : lf ∉ line) (hending : ending = [] ∨ ending = [lf]) :
    terminated (line ++ ending) = [line] := by
  rcases hending with rfl | rfl
  · rw [List.append_nil, terminated_of_notMem hne h]
  · rw [terminated_line_append_lf h]
    rfl

/-- The last line may be left out if it is empty. -/
theorem forall_mem_terminated_iff {P : Text → Prop} (hP : P []) (s : Text) :
    (∀ line ∈ s.terminated, P line) ↔ ∀ line ∈ s.lines, P line := by
  unfold terminated
  simp only
  split
  · rename_i hlast
    obtain ⟨parts, hparts⟩ := List.getLast?_eq_some_iff.mp hlast
    rw [hparts, List.dropLast_concat, List.forall_mem_append,
      List.forall_mem_singleton]
    exact (and_iff_left hP).symm
  · exact Iff.rfl

/-! ## Lines that are too long -/

theorem fits_iff_lt {line : Text} : fits line = true ↔ line.length < lineLimit :=
  decide_eq_true_iff

theorem fits_iff {line : Text} : fits line = true ↔ line.length ≤ 65535 :=
  fits_iff_lt.trans Nat.lt_succ_iff

theorem exists_first_overlong {ls : List Text}
    (h : ¬ ∀ line ∈ ls, fits line = true) :
    ∃ before long after, ls = before ++ long :: after ∧
      (∀ line ∈ before, fits line = true) ∧
      fits long = false := by
  induction ls with
  | nil => exact absurd (List.forall_mem_nil _) h
  | cons line ls ih =>
      by_cases hline : fits line = true
      · have hrest : ¬ ∀ l ∈ ls, fits l = true :=
          fun hall => h (List.forall_mem_cons.mpr ⟨hline, hall⟩)
        obtain ⟨before, long, after, rfl, hbefore, hlong⟩ := ih hrest
        exact ⟨line :: before, long, after, rfl,
          List.forall_mem_cons.mpr ⟨hline, hbefore⟩, hlong⟩
      · exact ⟨[], line, ls, rfl, List.forall_mem_nil _,
          Bool.eq_false_iff.mpr hline⟩

/-- The lines before one that is too long are delivered, and no others. -/
theorem takeWhile_fits {before after : List Text} {long : Text}
    (hbefore : ∀ line ∈ before, fits line = true) (hlong : fits long = false) :
    (before ++ long :: after).takeWhile fits = before := by
  rw [List.takeWhile_append_of_pos hbefore,
    List.takeWhile_cons_of_neg (by simp [hlong]), List.append_nil]

/-! ## Carriage returns -/

theorem dropCr_of_notMem {line : Text} (h : cr ∉ line) : dropCr line = line := by
  unfold dropCr dropLastIf
  rw [if_neg]
  intro hlast
  exact h (List.mem_of_getLast? hlast)

theorem map_dropCr_lines {s : Text} (h : cr ∉ s) :
    s.lines.map dropCr = s.lines := by
  have hid : ∀ line ∈ s.lines, dropCr line = id line := by
    intro line hline
    exact dropCr_of_notMem fun hcr => h (mem_of_mem_split hline hcr)
  rw [List.map_congr_left hid, List.map_id]

/-- Without the carriage return at its end, a line is itself or has lost just
this one byte. -/
theorem eq_or_eq_append_cr (line : Text) :
    line = dropCr line ∨ line = dropCr line ++ [cr] := by
  unfold dropCr dropLastIf
  split
  · rename_i hlast
    obtain ⟨s, rfl⟩ := List.getLast?_eq_some_iff.mp hlast
    exact Or.inr (by simp)
  · exact Or.inl rfl

/-- Only the end of the line counts. -/
theorem dropCr_append_of_ne_nil {v : Text} (hv : v ≠ []) (u : Text) :
    dropCr (u ++ v) = u ++ dropCr v := by
  unfold dropCr dropLastIf
  rw [List.getLast?_append_of_ne_nil u hv]
  split
  · exact List.dropLast_append_of_ne_nil hv
  · rfl

theorem dropCr_append {u : Text} (hu : u.getLast? ≠ some cr) (v : Text) :
    dropCr (u ++ v) = u ++ dropCr v := by
  cases v with
  | nil =>
      rw [List.append_nil, dropCr, dropLastIf, if_neg hu, dropCr, dropLastIf,
        if_neg (by simp), List.append_nil]
  | cons b v => exact dropCr_append_of_ne_nil (List.cons_ne_nil b v) u

/-- A word that does not end in a carriage return does not need the one at the
end of a line. -/
theorem prefix_dropCr_iff {w line : Text} (hw : w.getLast? ≠ some cr) :
    w <+: dropCr line ↔ w <+: line := by
  rcases eq_or_eq_append_cr line with h | h
  · rw [← h]
  · generalize dropCr line = d at h
    subst h
    rw [List.prefix_concat_iff, or_iff_right]
    rintro rfl
    exact hw List.getLast?_concat

theorem infix_dropCr_iff {w line : Text} (hw : w.getLast? ≠ some cr) :
    w <:+: dropCr line ↔ w <:+: line := by
  rcases eq_or_eq_append_cr line with h | h
  · rw [← h]
  · generalize dropCr line = d at h
    subst h
    rw [List.infix_concat_iff, List.suffix_concat_iff]
    constructor
    · exact Or.inr
    · rintro ((rfl | ⟨t, rfl, -⟩) | h)
      · exact List.nil_infix
      · exact absurd List.getLast?_concat hw
      · exact h

/-- The text with a carriage return before every line feed. -/
def crlf (s : Text) : Text := s.flatMap fun b => if b = lf then [cr, lf] else [b]

theorem crlf_cons_lf (s : Text) : crlf (lf :: s) = cr :: lf :: crlf s := rfl

theorem crlf_cons_of_ne {b : UInt8} (hb : b ≠ lf) (s : Text) :
    crlf (b :: s) = b :: crlf s := by
  simp [crlf, hb]

theorem crlf_append (s t : Text) : crlf (s ++ t) = crlf s ++ crlf t :=
  List.flatMap_append

theorem crlf_of_notMem {s : Text} (h : lf ∉ s) : crlf s = s := by
  induction s with
  | nil => rfl
  | cons b s ih =>
      rw [List.mem_cons, not_or] at h
      rw [crlf_cons_of_ne (Ne.symm h.1), ih h.2]

theorem length_le_length_crlf (s : Text) : s.length ≤ (crlf s).length := by
  induction s with
  | nil => exact Nat.le_refl 0
  | cons b s ih =>
      by_cases hb : b = lf
      · rw [hb, crlf_cons_lf, List.length_cons, List.length_cons,
          List.length_cons]
        omega
      · rw [crlf_cons_of_ne hb, List.length_cons, List.length_cons]
        omega

/-- Every line but the last one gets a carriage return. -/
theorem lines_crlf_eq (s : Text) :
    (crlf s).lines = s.lines.dropLast.map (· ++ [cr]) ++
      s.lines.getLast?.toList := by
  induction s with
  | nil => rfl
  | cons b s ih =>
      unfold lines at ih ⊢
      by_cases hlf : b = lf
      · subst hlf
        obtain ⟨part, rest, hpart, hcons⟩ :=
          split_cons_of_ne (by decide : cr ≠ lf) (lf :: crlf s)
        rw [split_cons_self] at hpart
        obtain ⟨rfl, rfl⟩ := List.cons.inj hpart
        rw [crlf_cons_lf, hcons, ih, split_cons_self,
          List.dropLast_cons_of_ne_nil (split_ne_nil lf s),
          List.getLast?_cons_of_ne_nil (split_ne_nil lf s)]
        rfl
      · obtain ⟨part, rest, hpart, hcons⟩ := split_cons_of_ne hlf s
        obtain ⟨part', rest', hpart', hcons'⟩ := split_cons_of_ne hlf (crlf s)
        rw [hpart, hpart'] at ih
        rw [crlf_cons_of_ne hlf, hcons, hcons']
        -- The first line is the last one, too, or it has a carriage return
        -- already.
        cases rest with
        | nil =>
            obtain ⟨rfl, rfl⟩ := List.cons.inj ih
            rfl
        | cons line rest =>
            obtain ⟨rfl, rfl⟩ := List.cons.inj ih
            rfl

/-- The lines of a text without carriage returns are still the same, once a
carriage return at their ends is dropped. -/
theorem lines_crlf {s : Text} (h : cr ∉ s) :
    (crlf s).lines.map dropCr = s.lines := by
  have hne : s.lines ≠ [] := split_ne_nil lf s
  have hdrop : ∀ line ∈ s.lines, dropCr line = line :=
    fun line hline => dropCr_of_notMem fun hmem => h (mem_of_mem_split hline hmem)
  have hdropped : ∀ line ∈ s.lines.dropLast,
      (dropCr ∘ (· ++ [cr])) line = id line := by
    intro line _
    exact (dropCr_append_of_ne_nil (List.cons_ne_nil cr []) line).trans
      (List.append_nil line)
  rw [lines_crlf_eq, List.map_append, List.map_map, List.map_congr_left hdropped,
    List.map_id, List.getLast?_eq_some_getLast hne, Option.toList_some,
    List.map_singleton, hdrop _ (List.getLast_mem hne),
    List.dropLast_append_getLast hne]

/-- What is looked for on lines, and does not depend on a carriage return at
their ends, is found on the same lines. -/
theorem filter_lines_crlf {p : Text → Bool}
    (hp : ∀ line : Text, p (dropCr line) = p line) {s : Text} (h : cr ∉ s) :
    ((crlf s).lines.filter p).map dropCr = s.lines.filter p := by
  have hcomp : p ∘ dropCr = p := funext hp
  rw [← lines_crlf h, List.filter_map, hcomp]

/-! Words within a line are not affected. -/

theorem after?_crlf {w : Text} (hlf : lf ∉ w) (hcr : cr ∉ w) (s : Text) :
    after? w (crlf s) = (after? w s).map crlf := by
  induction w generalizing s with
  | nil => rfl
  | cons a w ih =>
      rw [List.mem_cons, not_or] at hlf hcr
      cases s with
      | nil => rfl
      | cons b s =>
          by_cases hb : b = lf
          · subst hb
            rw [crlf_cons_lf, after?, after?, if_neg (Ne.symm hcr.1),
              if_neg (Ne.symm hlf.1)]
            rfl
          · rw [crlf_cons_of_ne hb, after?, after?]
            by_cases hab : a = b
            · rw [if_pos hab, if_pos hab, ih hlf.2 hcr.2]
            · rw [if_neg hab, if_neg hab]
              rfl

theorem isPrefixOf_eq_isSome (w s : Text) :
    w.isPrefixOf s = (after? w s).isSome := by
  rw [Bool.eq_iff_iff, List.isPrefixOf_iff_prefix, Option.isSome_iff_exists]
  constructor
  · rintro ⟨r, hr⟩
    exact ⟨r, after?_eq_some_iff.mpr hr.symm⟩
  · rintro ⟨r, hr⟩
    exact ⟨r, (after?_eq_some_iff.mp hr).symm⟩

theorem hasInfix_crlf {w : Text} (hlf : lf ∉ w) (hcr : cr ∉ w) (s : Text) :
    hasInfix w (crlf s) = hasInfix w s := by
  have hprefix : ∀ s : Text, w.isPrefixOf (crlf s) = w.isPrefixOf s := by
    intro s
    rw [isPrefixOf_eq_isSome, isPrefixOf_eq_isSome, after?_crlf hlf hcr,
      Option.isSome_map]
  induction s with
  | nil => rfl
  | cons b s ih =>
      have hhere := hprefix (b :: s)
      by_cases hb : b = lf
      · subst hb
        rw [crlf_cons_lf] at hhere ⊢
        rw [hasInfix, hasInfix, hasInfix, hhere, ih]
        -- A word between the two bytes would begin with the line feed.
        cases w with
        | nil => rfl
        | cons a w =>
            have ha : (a == lf) = false :=
              beq_eq_false_iff_ne.mpr fun heq => hlf (heq ▸ List.mem_cons_self)
            rw [List.isPrefixOf_cons_cons, List.isPrefixOf_cons_cons, ha,
              Bool.false_and, Bool.false_and, Bool.false_or]
      · rw [crlf_cons_of_ne hb] at hhere ⊢
        rw [hasInfix, hasInfix, hhere, ih]

end Text

end ToolLint
