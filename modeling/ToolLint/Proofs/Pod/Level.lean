import ToolLint.Proofs.Pod.Grammar
import ToolLint.Proofs.Text.Decimal

/-!
# Levels of headings

A command is a heading if its name is `head` and a number. The number is read as
one with a sign that fits into 64 bits, so a plus sign is let through, zeros in
front do not count, and what is too large is no level at all, however many
digits there are (`headingLevel?_eq_some_iff`). The name of a command has
letters and digits only, so on a line of a text there is never a sign.
-/

namespace ToolLint

namespace Pod

/-- The digits spell a number that a heading can have. -/
def SpellsLevel (ds : Text) (n : Nat) : Prop :=
  Decimal.Spells ds n ∧ 1 ≤ n ∧ n ≤ 2 ^ 63 - 1

/-- A heading is named `head` and a number, perhaps with a plus sign. -/
theorem headingLevel?_eq_some_iff {name : Text} {n : Nat} :
    headingLevel? name = some n ↔
      ∃ sign ds, name = utf8 "head" ++ (sign ++ ds) ∧
        (sign = [] ∨ sign = utf8 "+") ∧ SpellsLevel ds n := by
  have hlimit : ∀ m : Nat, m < Decimal.halfModulus ↔ m ≤ 2 ^ 63 - 1 := by
    intro m
    rw [Decimal.halfModulus]
    omega
  constructor
  · intro h
    unfold headingLevel? at h
    split at h
    · cases h
    · rename_i digits hafter
      split at h
      · rename_i z hread
        split at h
        · rename_i hz
          obtain rfl := Option.some.inj h
          obtain ⟨sign, ds, rfl, hsign, m, rfl, hspells, hlt⟩ :=
            (Decimal.read_eq_ok_iff_of_pos hz).mp hread
          have hm : 1 ≤ m := by omega
          exact ⟨sign, ds, Text.after?_eq_some_iff.mp hafter, hsign, hspells, hm,
            (hlimit m).mp hlt⟩
        · cases h
      · cases h
  · rintro ⟨sign, ds, rfl, hsign, hspells, hpos, hle⟩
    have hz : 1 ≤ (n : Int) := by omega
    have hread := (Decimal.read_eq_ok_iff_of_pos hz).mpr ⟨sign, ds, rfl, hsign, n,
      rfl, hspells, (hlimit n).mpr hle⟩
    rw [headingLevel?, Text.after?_eq_some_iff.mpr rfl]
    simp only [hread, hz, if_true, Int.toNat_natCast]

/-- A plus sign is told from a digit, so digits are read as they are. -/
theorem sign_eq_nil {sign ds digits : Text}
    (hsign : sign = [] ∨ sign = utf8 "+") (h : sign ++ ds = digits)
    (hdigits : ascii '+' ∉ digits) : sign = [] := by
  rcases hsign with rfl | rfl
  · rfl
  · refine absurd ?_ hdigits
    rw [← h]
    exact List.mem_cons_self

theorem headingLevel?_of_notMem {ds : Text} (h : ascii '+' ∉ ds) (n : Nat) :
    headingLevel? (utf8 "head" ++ ds) = some n ↔ SpellsLevel ds n := by
  rw [headingLevel?_eq_some_iff]
  constructor
  · rintro ⟨sign, digits, hname, hsign, hlevel⟩
    have hds := List.append_cancel_left hname
    obtain rfl := sign_eq_nil hsign hds.symm h
    rw [hds]
    exact hlevel
  · intro hlevel
    exact ⟨[], ds, rfl, Or.inl rfl, hlevel⟩

theorem headingLevel?_of_spells {ds : Text} {n : Nat} (h : Decimal.Spells ds n) :
    headingLevel? (utf8 "head" ++ ds) = if 1 ≤ n ∧ n ≤ 2 ^ 63 - 1 then some n else
      none := by
  have hsign : ascii '+' ∉ ds := fun hmem => absurd (h.2.1 _ hmem) (by decide)
  split
  · rename_i hlevel
    exact (headingLevel?_of_notMem hsign n).mpr ⟨h, hlevel⟩
  · rename_i hlevel
    rw [Option.eq_none_iff_forall_ne_some]
    intro m hm
    obtain ⟨hspells, hlimits⟩ := (headingLevel?_of_notMem hsign m).mp hm
    obtain rfl : n = m := h.2.2.trans hspells.2.2.symm
    exact hlevel hlimits

/-- The name of a command has no sign in it. -/
theorem plus_notMem_name {src : Text} {c : Command} (h : c ∈ commands src) :
    ascii '+' ∉ c.name := by
  rw [commands_eq_numbered] at h
  obtain ⟨-, -, -, -, ⟨⟨b, s, hname, hb, hs⟩, -⟩, -⟩ := mem_numbered_iff.mp h
  rw [hname, List.mem_cons, not_or]
  constructor
  · rintro rfl
    exact absurd hb (by decide)
  · intro hmem
    exact absurd (hs _ hmem) (by decide)

/-- **The level of a heading is the number after `head`, up to the limit of 64
bits.**

* A name is that of a heading of level `n` exactly if it is `head`, perhaps a
  plus sign, and digits that spell `n`, which is at least 1 and less than 2^63.
  All other names are none of a heading.
* So digits of any length have the level that they spell, or none. The number of
  the digits does not matter, and no number turns into another one.
* The command on a line of a text has no sign in its name, so it is a heading
  exactly if digits follow `head` that spell a level. -/
theorem headingLevel_exact :
    (∀ name n, headingLevel? name = some n ↔
      ∃ sign ds, name = utf8 "head" ++ (sign ++ ds) ∧
        (sign = [] ∨ sign = utf8 "+") ∧ SpellsLevel ds n) ∧
    (∀ ds n, Decimal.Spells ds n →
      headingLevel? (utf8 "head" ++ ds) = if 1 ≤ n ∧ n ≤ 2 ^ 63 - 1 then
        some n else none) ∧
    ∀ src, ∀ c ∈ commands src, ascii '+' ∉ c.name ∧
      ∀ n, headingLevel? c.name = some n ↔ ∃ ds, c.name = utf8 "head" ++ ds ∧
        SpellsLevel ds n := by
  refine ⟨fun name n => headingLevel?_eq_some_iff,
    fun ds n => headingLevel?_of_spells, ?_⟩
  intro src c hc
  have hplus := plus_notMem_name hc
  refine ⟨hplus, fun n => ?_⟩
  rw [headingLevel?_eq_some_iff]
  constructor
  · rintro ⟨sign, ds, hname, hsign, hlevel⟩
    obtain rfl := sign_eq_nil hsign rfl fun hmem =>
      hplus (hname ▸ List.mem_append_right _ hmem)
    exact ⟨ds, hname, hlevel⟩
  · rintro ⟨ds, hname, hlevel⟩
    exact ⟨[], ds, hname, Or.inl rfl, hlevel⟩

/-- The greatest level, with zeros in front, and the number after it. -/
theorem headingLevel_exact_limit :
    headingLevel? (utf8 "head+00000000000000000000009223372036854775807") =
      some (2 ^ 63 - 1) ∧
      headingLevel? (utf8 "head9223372036854775808") = none ∧
      headingLevel? (utf8 "head18446744073709551617") = none := by
  obtain ⟨hname, hdigits, -⟩ := headingLevel_exact
  have hgreatest : SpellsLevel (utf8 "00000000000000000000009223372036854775807")
      (2 ^ 63 - 1) :=
    ⟨⟨by decide +kernel, List.all_eq_true.mp rfl, by decide +kernel⟩, by decide,
      by decide⟩
  have hnext : Decimal.Spells (utf8 "9223372036854775808") (2 ^ 63) :=
    ⟨by decide +kernel, List.all_eq_true.mp rfl, by decide +kernel⟩
  have hfurther : Decimal.Spells (utf8 "18446744073709551617") (2 ^ 64 + 1) :=
    ⟨by decide +kernel, List.all_eq_true.mp rfl, by decide +kernel⟩
  refine ⟨(hname _ _).mpr ⟨utf8 "+", _, rfl, Or.inr rfl, hgreatest⟩, ?_, ?_⟩
  · exact (hdigits _ _ hnext).trans (if_neg (by omega))
  · exact (hdigits _ _ hfurther).trans (if_neg (by omega))

end Pod

end ToolLint
