import ToolLint.Text.Decimal
import ToolLint.Proofs.Text.Blank
import ToolLint.Proofs.Text.Pieces
import Mathlib.Data.List.Induction
import Mathlib.Data.List.TakeWhile
import Mathlib.Data.Nat.Digits.Defs

/-!
# Numbers in a text

A number that is written out is read back (`Decimal.read_ofNat`), also when it
stands alone on a line (`Decimal.trim_ofNat_lf`), so a count survives the way
through the output of a program. The one exception are numbers that do not fit
into 64 bits with a sign.
-/

namespace ToolLint

namespace Decimal

/-! ## Digits -/

theorem ascii_toNat {c : Char} (hc : c.toNat < 256) : (ascii c).toNat = c.toNat :=
  toNat_toUInt8 hc

theorem toNat_of_isDigit {c : Char} (hc : c.isDigit = true) :
    0x30 ≤ c.toNat ∧ c.toNat ≤ 0x39 := by
  simpa [Char.isDigit, UInt32.le_iff_toNat_le] using hc

theorem isDigit_ascii {c : Char} (hc : c.isDigit = true) :
    isDigit (ascii c) = true := by
  obtain ⟨hlo, hhi⟩ := toNat_of_isDigit hc
  have hc' := ascii_toNat (c := c) (by omega)
  simp [isDigit, UInt8.le_iff_toNat_le, hc', hlo, hhi]

theorem isDigit_of_mem_ofNat {n : Nat} {b : UInt8} (hb : b ∈ ofNat n) :
    isDigit b = true := by
  obtain ⟨c, hc, rfl⟩ := List.mem_map.mp hb
  exact isDigit_ascii (Nat.isDigit_of_mem_toDigits (by decide) (by decide) hc)

theorem ofNat_ne_nil (n : Nat) : ofNat n ≠ [] := by
  unfold ofNat
  simp [Nat.toDigits_ne_nil]

/-! ## Reading what was written -/

theorem value_map_ascii {cs : List Char} (h : ∀ c ∈ cs, c.isDigit = true)
    (n : Nat) :
    (cs.map ascii).foldl (fun n b => 10 * n + digitValue b) n =
      Nat.ofDigitChars 10 cs n := by
  induction cs generalizing n with
  | nil => rfl
  | cons c cs ih =>
      obtain ⟨-, hhi⟩ := toNat_of_isDigit (h c List.mem_cons_self)
      have hc : (ascii c).toNat = c.toNat := ascii_toNat (by omega)
      rw [List.map_cons, List.foldl_cons,
        ih fun d hd => h d (List.mem_cons_of_mem c hd), Nat.ofDigitChars_cons,
        digitValue, hc]
      rfl

theorem value_ofNat (n : Nat) : value (ofNat n) = n := by
  rw [value, ofNat,
    value_map_ascii fun c hc => Nat.isDigit_of_mem_toDigits (by decide)
      (by decide) hc]
  exact Nat.ofDigitChars_ten_toDigits

/-! ## What can be read -/

/-- The digits spell the number: there is at least one, and the last one counts
units, the one before it tens, and so on. -/
def Spells (ds : Text) (n : Nat) : Prop :=
  ds ≠ [] ∧ (∀ b ∈ ds, isDigit b = true) ∧
  n = Nat.ofDigits 10 (ds.map fun b => b.toNat - 0x30).reverse

theorem value_eq_ofDigits (ds : Text) :
    value ds = Nat.ofDigits 10 (ds.map fun b => b.toNat - 0x30).reverse := by
  induction ds using List.reverseRecOn with
  | nil => rfl
  | append_singleton ds b ih =>
      have hvalue : value (ds ++ [b]) = 10 * value ds + digitValue b := by
        simp [value]
      rw [hvalue, ih, List.map_append, List.map_singleton, List.reverse_append,
        List.reverse_singleton, List.singleton_append, Nat.ofDigits_cons,
        digitValue, Nat.add_comm]

theorem spells_iff {ds : Text} {n : Nat} :
    Spells ds n ↔ ds ≠ [] ∧ (∀ b ∈ ds, isDigit b = true) ∧ value ds = n := by
  rw [Spells, value_eq_ofDigits, eq_comm]

theorem readMagnitude_eq_ok_iff {s : Text} {n : Nat} :
    readMagnitude s = .ok n ↔ Spells s n ∧ n < modulus := by
  rw [spells_iff]
  constructor
  · intro h
    unfold readMagnitude at h
    simp only at h
    split at h
    · cases h
    · rename_i hlt
      split at h
      · cases h
      · rename_i hall
        simp only [Bool.or_eq_true, List.isEmpty_iff, bne_iff_ne, not_or, not_not]
          at hall
        have htake : s.takeWhile isDigit = s :=
          (List.takeWhile_prefix isDigit).eq_of_length hall.2
        rw [htake] at h hlt hall
        obtain rfl := Except.ok.inj h
        exact ⟨⟨hall.1, List.takeWhile_eq_self_iff.mp htake, rfl⟩,
          Nat.not_le.mp hlt⟩
  · rintro ⟨⟨hne, hdigits, rfl⟩, hlt⟩
    have htake : s.takeWhile isDigit = s := List.takeWhile_eq_self_iff.mpr hdigits
    unfold readMagnitude
    simp only [htake]
    rw [if_neg (Nat.not_le.mpr hlt), if_neg (by simp [hne])]

/-- Without a minus sign the upper half of the numbers is refused. -/
theorem readUnsigned_eq_ok_iff {s : Text} {z : Int} :
    (readMagnitude s >>= fun n => if n < halfModulus then Except.ok (n : Int) else
      .error .outOfRange) = .ok z ↔
      ∃ n : Nat, z = n ∧ Spells s n ∧ n < halfModulus := by
  constructor
  · intro h
    cases hread : readMagnitude s with
    | error e =>
        rw [hread] at h
        cases h
    | ok n =>
        rw [hread] at h
        change (if n < halfModulus then _ else _) = _ at h
        split at h
        · rename_i hlt
          exact ⟨n, (Except.ok.inj h).symm, (readMagnitude_eq_ok_iff.mp hread).1,
            hlt⟩
        · cases h
  · rintro ⟨n, rfl, hspells, hlt⟩
    have hmodulus : n < modulus := Nat.lt_trans hlt (by decide)
    rw [readMagnitude_eq_ok_iff.mpr ⟨hspells, hmodulus⟩]
    exact if_pos hlt

theorem read_digits_eq_ok_iff {ds : Text} (h : ∀ b ∈ ds, isDigit b = true)
    {z : Int} :
    read ds = .ok z ↔ ∃ n : Nat, z = n ∧ Spells ds n ∧ n < halfModulus := by
  -- A sign is no digit, so the branches for a sign are not taken.
  unfold read
  split
  · rename_i r
    exact absurd (h 0x2D List.mem_cons_self) (by decide)
  · rename_i r
    exact absurd (h 0x2B List.mem_cons_self) (by decide)
  · exact readUnsigned_eq_ok_iff

/-- A positive number is read from digits that spell it, perhaps after a plus
sign. -/
theorem read_eq_ok_iff_of_pos {s : Text} {z : Int} (hz : 1 ≤ z) :
    read s = .ok z ↔ ∃ sign ds, s = sign ++ ds ∧ (sign = [] ∨ sign = utf8 "+") ∧
      ∃ n : Nat, z = n ∧ Spells ds n ∧ n < halfModulus := by
  constructor
  · intro h
    unfold read at h
    split at h
    · rename_i r
      -- After a minus sign no positive number is read.
      cases hread : readMagnitude r with
      | error e =>
          rw [hread] at h
          cases h
      | ok n =>
          rw [hread] at h
          change (if n ≤ halfModulus then _ else _) = _ at h
          split at h
          · have hneg : -(n : Int) = z := Except.ok.inj h
            omega
          · cases h
    · rename_i r
      exact ⟨utf8 "+", r, rfl, Or.inr rfl, readUnsigned_eq_ok_iff.mp h⟩
    · exact ⟨[], s, rfl, Or.inl rfl, readUnsigned_eq_ok_iff.mp h⟩
  · rintro ⟨sign, ds, rfl, rfl | rfl, n, rfl, hspells, hlt⟩
    · exact (read_digits_eq_ok_iff hspells.2.1).mpr ⟨n, rfl, hspells, hlt⟩
    · exact readUnsigned_eq_ok_iff.mpr ⟨n, rfl, hspells, hlt⟩

theorem spells_ofNat (n : Nat) : Spells (ofNat n) n :=
  spells_iff.mpr ⟨ofNat_ne_nil n, fun _ hb => isDigit_of_mem_ofNat hb,
    value_ofNat n⟩

/-- A number that is written out is read back. -/
theorem read_ofNat {n : Nat} (h : n < halfModulus) :
    read (ofNat n) = .ok (n : Int) :=
  (read_digits_eq_ok_iff fun _ hb => isDigit_of_mem_ofNat hb).mpr ⟨n, rfl,
    spells_ofNat n, h⟩

end Decimal

/-! ## Around a number -/

namespace Text

/-- No white space begins or ends with a digit. -/
theorem digit_notin_whiteForms {b : UInt8} (hb : isDigit b = true) :
    ∀ f ∈ whiteForms, f.head? ≠ some b ∧ f.reverse.head? ≠ some b := by
  have hforms : ∀ f ∈ whiteForms,
      (f.head?.all fun a => !isDigit a) = true ∧
      (f.reverse.head?.all fun a => !isDigit a) = true := by
    decide
  intro f hf
  obtain ⟨hfirst, hlast⟩ := hforms f hf
  constructor
  · intro h
    simp [h, hb] at hfirst
  · intro h
    simp only [h] at hlast
    simp [hb] at hlast

theorem trimStart_digit {b : UInt8} (hb : isDigit b = true) (s : Text) :
    trimStart (b :: s) = b :: s :=
  dropForms_cons (fun f hf => (digit_notin_whiteForms hb f hf).1) s

/-- A line feed at the end is dropped, and nothing of the digits before it. -/
theorem trimEnd_digit_lf {b : UInt8} (hb : isDigit b = true) (s : Text) :
    trimEnd (s ++ [b] ++ [lf]) = s ++ [b] := by
  have hlf : afterForm? (whiteForms.map List.reverse) (lf :: b :: s.reverse) =
      some (b :: s.reverse) := rfl
  have hrev : (s ++ [b] ++ [lf]).reverse = lf :: b :: s.reverse := by simp
  rw [trimEnd, hrev, dropForms_of_some hlf, dropForms_cons]
  · simp
  · intro f hf
    obtain ⟨g, hg, rfl⟩ := List.mem_map.mp hf
    exact (digit_notin_whiteForms hb g hg).2

end Text

/-- A number alone on a line is what remains without white space. -/
theorem Decimal.trim_ofNat_lf (n : Nat) :
    Text.trim (ofNat n ++ [lf]) = ofNat n := by
  have hdigit : ∀ b ∈ ofNat n, isDigit b = true :=
    fun b hb => isDigit_of_mem_ofNat hb
  have hne := ofNat_ne_nil n
  generalize ofNat n = ds at hdigit hne
  have hstart : Text.trimStart (ds ++ [lf]) = ds ++ [lf] := by
    obtain ⟨d, ds, rfl⟩ := List.exists_cons_of_ne_nil hne
    exact Text.trimStart_digit (hdigit d List.mem_cons_self) (ds ++ [lf])
  obtain ⟨s, b, rfl⟩ : ∃ s b, ds = s ++ [b] :=
    ⟨_, _, (List.dropLast_append_getLast hne).symm⟩
  rw [Text.trim, hstart, Text.trimEnd_digit_lf (hdigit b (by simp))]

end ToolLint
