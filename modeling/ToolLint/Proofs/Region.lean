import ToolLint.Proofs.Package
import ToolLint.Proofs.Pattern.Reading
import ToolLint.Proofs.Tool

/-!
# Where the main package begins

`Package.Opens` says that a text begins with the line that opens a package, and
`Package.IsRest` that this line is somewhere in a larger text, at the start of
one of its lines. The region of the package is the longest rest of this kind
(`region?_eq_some_iff`), so it begins with the first such line, and there is no
region only if there is no such line at all.

The name of a tool is made of ASCII letters and hyphens, so its package can be
looked for among the bytes of a text.
-/

namespace ToolLint

/-! ## Names of tools -/

theorem isAscii_of_isLower {b : UInt8} (hb : isLower b = true) : IsAscii b := by
  rw [isLower, Bool.and_eq_true, decide_eq_true_eq, decide_eq_true_eq,
    UInt8.le_iff_toNat_le, UInt8.le_iff_toNat_le] at hb
  exact Nat.lt_of_le_of_lt hb.2 (by decide)

namespace Tool

theorem isAscii_of_mem_packageName {name : Text} (h : isName name = true) :
    ∀ b ∈ packageName name, IsAscii b := by
  intro b hb
  obtain ⟨c, hc, rfl⟩ := List.mem_map.mp hb
  by_cases hhyphen : c = ascii '-'
  · rw [if_pos hhyphen]
    decide
  · rw [if_neg hhyphen]
    exact isAscii_of_isLower (((isName_iff.mp h).mem c hc).resolve_right hhyphen)

end Tool

namespace Package

/-! ## The line that opens a package -/

/-- The text begins with the line that opens the package: `package`, a gap, the
name, and a semicolon, perhaps after blanks. -/
def Opens (name s : Text) : Prop :=
  ∃ gap blanks rest : Text, gap ≠ [] ∧ (∀ b ∈ gap, b = space ∨ b = tab) ∧
    (∀ b ∈ blanks, b = space ∨ b = tab) ∧
    s = utf8 "package" ++ gap ++ name ++ blanks ++ ascii ';' :: rest

theorem closesHere_iff {s : Text} : closesHere s = true ↔
    ∃ blanks rest : Text, (∀ b ∈ blanks, isSpaceOrTab b = true) ∧
      s = blanks ++ ascii ';' :: rest := by
  unfold closesHere
  constructor
  · intro h
    have hsplit := List.takeWhile_append_dropWhile (p := isSpaceOrTab) (l := s)
    split at h
    · cases h
    · rename_i b rest hdrop
      obtain rfl := beq_iff_eq.mp h
      rw [hdrop] at hsplit
      exact ⟨_, rest, List.all_eq_true.mp List.all_takeWhile, hsplit.symm⟩
  · rintro ⟨blanks, rest, hblanks, rfl⟩
    have hsemicolon : ∀ b ∈ (ascii ';' :: rest).head?,
        isSpaceOrTab b = false := by
      rintro _ ⟨rfl⟩
      decide
    rw [Text.dropWhile_append_of_head hblanks hsemicolon]
    exact beq_self_eq_true _

theorem opensHere_iff {name : Text} (hname : ∀ b ∈ name, IsAscii b) {s : Text} :
    opensHere name.chars s = true ↔ Opens name s := by
  have hafter : ∀ t : Text, t.afterChars? name.chars = Text.after? name t := by
    intro t
    rw [Text.chars_word hname]
    exact Text.afterChars?_word hname t
  simp only [opensHere_eq, hafter, Option.any_eq_true, Text.after?_eq_some_iff,
    Text.afterSome_iff, closesHere_iff]
  constructor
  · rintro ⟨_, rfl, gap, _, hne, hgap, rfl, _, rfl, blanks, rest, hblanks, rfl⟩
    exact ⟨gap, blanks, rest, hne, fun b hb => isSpaceOrTab_iff.mp (hgap b hb),
      fun b hb => isSpaceOrTab_iff.mp (hblanks b hb), by simp⟩
  · rintro ⟨gap, blanks, rest, hne, hgap, hblanks, rfl⟩
    exact ⟨gap ++ name ++ blanks ++ ascii ';' :: rest, by simp, gap,
      name ++ blanks ++ ascii ';' :: rest, hne,
      fun b hb => isSpaceOrTab_iff.mpr (hgap b hb),
        by simp, blanks ++ ascii ';' :: rest, by simp, blanks, rest,
      fun b hb => isSpaceOrTab_iff.mpr (hblanks b hb), rfl⟩

/-! ## The first line -/

/-- A line starts after this text. An empty text is followed by the start of a
line if `here` says so. -/
def AtLineStart (here : Bool) (u : Text) : Prop :=
  (u = [] ∧ here = true) ∨ u.getLast? = some lf

theorem atLineStart_cons {here : Bool} {b : UInt8} {u : Text} :
    AtLineStart here (b :: u) ↔ AtLineStart (b == lf) u := by
  cases u with
  | nil => simp [AtLineStart]
  | cons c u => simp [AtLineStart, List.getLast?_cons_cons]

/-- Either `p` holds at no start of a line, or the rest is found that begins
with the first one where it does. -/
theorem fromLine?_cases (p : Text → Bool) (here : Bool) (s : Text) :
    (fromLine? p here s = none ∧ ∀ u r, s = u ++ r → AtLineStart here u →
      ¬ p r = true) ∨
      ∃ u r, fromLine? p here s = some r ∧ s = u ++ r ∧ AtLineStart here u ∧
        p r = true ∧
        ∀ u' r', s = u' ++ r' → AtLineStart here u' → p r' = true →
          u.length ≤ u'.length := by
  induction s generalizing here with
  | nil =>
      by_cases hhere : (here && p []) = true
      · obtain ⟨rfl, hp⟩ := Bool.and_eq_true_iff.mp hhere
        exact Or.inr ⟨[], [], if_pos hhere, rfl, Or.inl ⟨rfl, rfl⟩, hp,
          fun _ _ _ _ _ => Nat.zero_le _⟩
      · refine Or.inl ⟨if_neg hhere, fun u r heq hu hp => hhere ?_⟩
        obtain ⟨rfl, rfl⟩ := List.append_eq_nil_iff.mp heq.symm
        rcases hu with ⟨-, rfl⟩ | hu
        · exact hp
        · cases hu
  | cons b s ih =>
      by_cases hhere : (here && p (b :: s)) = true
      · obtain ⟨rfl, hp⟩ := Bool.and_eq_true_iff.mp hhere
        exact Or.inr ⟨[], b :: s, if_pos hhere, rfl, Or.inl ⟨rfl, rfl⟩, hp,
          fun _ _ _ _ _ => Nat.zero_le _⟩
      · -- Every place that is left lies behind the first byte.
        have hbehind : ∀ u r, b :: s = u ++ r → AtLineStart here u → p r = true →
            ∃ u', u = b :: u' ∧ s = u' ++ r ∧ AtLineStart (b == lf) u' := by
          intro u r heq hu hp
          cases u with
          | nil =>
              rcases hu with ⟨-, rfl⟩ | hu
              · exact absurd (by rw [heq]; exact hp) hhere
              · cases hu
          | cons c u =>
              obtain ⟨rfl, rfl⟩ := List.cons.inj heq
              exact ⟨u, rfl, rfl, atLineStart_cons.mp hu⟩
        have hstep : fromLine? p here (b :: s) = fromLine? p (b == lf) s :=
          if_neg hhere
        rw [hstep]
        rcases ih (b == lf) with ⟨hnone, hall⟩
          | ⟨u, r, hsome, rfl, hu, hp, hfirst⟩
        · refine Or.inl ⟨hnone, fun u r heq hu hp => ?_⟩
          obtain ⟨u', -, heq', hu'⟩ := hbehind u r heq hu hp
          exact hall u' r heq' hu' hp
        · refine Or.inr ⟨b :: u, r, hsome, rfl, atLineStart_cons.mpr hu, hp,
            fun u' r' heq hu' hp' => ?_⟩
          obtain ⟨u'', rfl, heq'', hu''⟩ := hbehind u' r' heq hu' hp'
          exact Nat.succ_le_succ (hfirst u'' r' heq'' hu'' hp')

/-! ## The region -/

/-- `r` is the rest of the text from a line that opens the package. -/
def IsRest (name text r : Text) : Prop :=
  ∃ u, text = u ++ r ∧ (u = [] ∨ u.getLast? = some lf) ∧ Opens name r

/-- `r` begins with the first line that opens the package. -/
def IsRegion (name text r : Text) : Prop :=
  IsRest name text r ∧ ∀ r', IsRest name text r' → r'.length ≤ r.length

/-- No two rests of a text have the same length. -/
theorem IsRegion.unique {name text r r' : Text} (h : IsRegion name text r)
    (h' : IsRegion name text r') : r = r' := by
  have hlength : r.length = r'.length :=
    Nat.le_antisymm (h'.2 r h.1) (h.2 r' h'.1)
  obtain ⟨⟨u, hu, -⟩, -⟩ := h
  obtain ⟨⟨u', hu', -⟩, -⟩ := h'
  exact (List.append_inj' (hu.symm.trans hu') hlength).2

theorem region?_cases {name : Text} (hname : ∀ b ∈ name, IsAscii b)
    (text : Text) :
    (region? text name = none ∧ ∀ r, ¬ IsRest name text r) ∨
      ∃ r, region? text name = some r ∧ IsRegion name text r := by
  rcases fromLine?_cases (opensHere name.chars) true text with ⟨hnone, hall⟩
    | ⟨u, r, hsome, htext, hu, hp, hfirst⟩
  · refine Or.inl ⟨hnone, ?_⟩
    rintro r ⟨u, htext, hu, hr⟩
    exact hall u r htext (hu.imp_left fun h => ⟨h, rfl⟩)
      ((opensHere_iff hname).mpr hr)
  · refine Or.inr ⟨r, hsome,
      ⟨u, htext, hu.imp_left And.left, (opensHere_iff hname).mp hp⟩, ?_⟩
    rintro r' ⟨u', htext', hu', hr'⟩
    have hle := hfirst u' r' htext' (hu'.imp_left fun h => ⟨h, rfl⟩)
      ((opensHere_iff hname).mpr hr')
    have hlength := congrArg List.length (htext.symm.trans htext')
    rw [List.length_append, List.length_append] at hlength
    omega

/-- **The region begins with the first line that opens the package.** -/
theorem region?_eq_some_iff {name : Text} (hname : ∀ b ∈ name, IsAscii b)
    {text r : Text} : region? text name = some r ↔ IsRegion name text r := by
  rcases region?_cases hname text with ⟨hnone, hall⟩ | ⟨r', hsome, hr'⟩
  · rw [hnone]
    exact iff_of_false (Option.some_ne_none r).symm fun h => hall r h.1
  · rw [hsome, Option.some.injEq]
    exact ⟨fun h => h ▸ hr', fun h => hr'.unique h⟩

theorem region?_eq_none_iff {name : Text} (hname : ∀ b ∈ name, IsAscii b)
    {text : Text} : region? text name = none ↔ ¬ ∃ r, IsRest name text r := by
  rcases region?_cases hname text with ⟨hnone, hall⟩ | ⟨r, hsome, hr⟩
  · exact iff_of_true hnone (not_exists.mpr hall)
  · rw [hsome]
    exact iff_of_false (Option.some_ne_none r) (not_not_intro ⟨r, hr.1⟩)

/-! ## The search expression -/

/-- A package with a name in ASCII is never refused. -/
theorem rejection?_eq_none {name : Text} (hname : ∀ b ∈ name, IsAscii b) :
    rejection? name = none := by
  have hescape := Pattern.isEncoded_escape (Text.isEncoded_word hname)
  have hpattern : (openingPattern name).IsEncoded :=
    ((Text.isEncoded_utf8 _).append hescape).append (Text.isEncoded_utf8 _)
  rw [rejection?, Pattern.rejection?_of_isEncoded hpattern]

end Package

end ToolLint
