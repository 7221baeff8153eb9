import ToolLint.Proofs.Text.Pieces
import ToolLint.Report

/-!
# Formats and their arguments

A format is filled character by character, and every slip of its author has a
text of its own. What a good format gives is said here byte by byte: every byte
but the per cent sign stands for itself, `%%` for a per cent sign, and each of
`%s` and `%q` takes one argument (`Fills`). A format gives such a sentence
exactly if its per cent signs are in order and there are as many arguments as
holes (`exists_fills_iff`).

Bytes and characters part ways where a character has several bytes. None of
these is a per cent sign, so a character that is none stands for itself as its
bytes do.
-/

namespace ToolLint

namespace Format

def percent : UInt8 := ascii '%'

/-- The number of arguments that a format takes, if each per cent sign in it
belongs to `%s`, `%q` or `%%`. -/
def holes? : Text → Option Nat
  | [] => some 0
  | b :: format =>
    if b = percent then
      match format with
      | [] => none
      | verb :: format =>
        if verb = percent then holes? format
        else if verb = ascii 's' ∨ verb = ascii 'q' then
          (holes? format).map (· + 1)
        else none
    else holes? format

/-- The format has as many holes as there are arguments. -/
def Fits (format : Text) (args : List Text) : Prop :=
  holes? format = some args.length

instance (format : Text) (args : List Text) : Decidable (Fits format args) :=
  inferInstanceAs (Decidable (_ = _))

/-- A format, its arguments, and the sentence that they give. -/
inductive Fills : Text → List Text → Text → Prop where
  | nil : Fills [] [] []
  | literal {b : UInt8} {format : Text} {args : List Text} {sentence : Text}
    (hb : b ≠ percent)
      (h : Fills format args sentence) : Fills (b :: format) args (b :: sentence)
  | sign {format : Text} {args : List Text} {sentence : Text}
    (h : Fills format args sentence) :
      Fills (percent :: percent :: format) args (percent :: sentence)
  | verbatim {format : Text} {args : List Text} {sentence : Text} (arg : Text)
    (h : Fills format args sentence) :
      Fills (percent :: ascii 's' :: format) (arg :: args) (arg ++ sentence)
  | quoted {format : Text} {args : List Text} {sentence : Text} (arg : Text)
    (h : Fills format args sentence) :
      Fills (percent :: ascii 'q' :: format) (arg :: args)
        (arg.quoted ++ sentence)

variable {format : Text} {args : List Text} {sentence : Text}

/-! ## Formats that give a sentence -/

theorem holes?_cons_of_ne {b : UInt8} (hb : b ≠ percent) (format : Text) :
    holes? (b :: format) = holes? format := by
  rw [holes?.eq_def]
  exact if_neg hb

theorem holes?_sign (format : Text) :
    holes? (percent :: percent :: format) = holes? format := by
  rw [holes?.eq_def]
  rfl

theorem holes?_verb {verb : UInt8} (hverb : verb = ascii 's' ∨ verb = ascii 'q')
    (format : Text) :
    holes? (percent :: verb :: format) = (holes? format).map (· + 1) := by
  rw [holes?.eq_def]
  rcases hverb with rfl | rfl
  · rfl
  · rfl

theorem Fills.fits (h : Fills format args sentence) : Fits format args := by
  unfold Fits
  induction h with
  | nil => rfl
  | literal hb _ ih => rw [holes?_cons_of_ne hb, ih]
  | sign _ ih => rw [holes?_sign, ih]
  | verbatim arg _ ih =>
      rw [holes?_verb (Or.inl rfl), ih]
      rfl
  | quoted arg _ ih =>
      rw [holes?_verb (Or.inr rfl), ih]
      rfl

/-- A word without per cent signs stands for itself. -/
theorem Fills.word {w : Text} (hw : percent ∉ w)
    (h : Fills format args sentence) :
    Fills (w ++ format) args (w ++ sentence) := by
  induction w with
  | nil => exact h
  | cons b w ih =>
      rw [List.mem_cons, not_or] at hw
      exact (ih hw.2).literal (Ne.symm hw.1)

theorem Fits.exists_fills (h : Fits format args) :
    ∃ sentence, Fills format args sentence := by
  unfold Fits at h
  fun_induction holes? format generalizing args with
  | case1 =>
      obtain rfl : args = [] :=
        List.length_eq_zero_iff.mp (Option.some.inj h).symm
      exact ⟨[], .nil⟩
  | case2 => cases h
  | case3 format ih =>
      obtain ⟨sentence, hfills⟩ := ih h
      exact ⟨_, hfills.sign⟩
  | case4 verb format _ hverb ih =>
      obtain ⟨n, hn, hlength⟩ := Option.map_eq_some_iff.mp h
      cases args with
      | nil => cases hlength
      | cons arg args =>
          have hfits : holes? format = some args.length :=
            hn.trans (congrArg some (Nat.succ.inj hlength))
          obtain ⟨sentence, hfills⟩ := ih hfits
          rcases hverb with rfl | rfl
          · exact ⟨_, hfills.verbatim arg⟩
          · exact ⟨_, hfills.quoted arg⟩
  | case5 => cases h
  | case6 b format hb ih =>
      obtain ⟨sentence, hfills⟩ := ih h
      exact ⟨_, hfills.literal hb⟩

/-- A sentence is given exactly if there is one argument for each hole. -/
theorem exists_fills_iff :
    (∃ sentence, Fills format args sentence) ↔ Fits format args := by
  constructor
  · rintro ⟨sentence, h⟩
    exact h.fits
  · exact Fits.exists_fills

/-! ## From bytes to characters -/

/-- A byte after the format comes after the sentence. -/
theorem Fills.concat (h : Fills format args sentence) {b : UInt8}
    (hb : b ≠ percent) : Fills (format ++ [b]) args (sentence ++ [b]) := by
  induction h with
  | nil => exact .literal hb .nil
  | literal hc _ ih => exact ih.literal hc
  | sign _ ih => exact ih.sign
  | verbatim arg _ ih =>
      rw [List.append_assoc]
      exact ih.verbatim arg
  | quoted arg _ ih =>
      rw [List.append_assoc]
      exact ih.quoted arg

theorem Fills.of_cons {b : UInt8} (hb : b ≠ percent)
    (h : Fills (b :: format) args sentence) :
    ∃ rest, sentence = b :: rest ∧ Fills format args rest := by
  cases h with
  | literal _ h => exact ⟨_, rfl, h⟩
  | sign _ => exact absurd rfl hb
  | verbatim _ _ => exact absurd rfl hb
  | quoted _ _ => exact absurd rfl hb

/-- A word without a per cent sign stands for itself. -/
theorem Fills.of_append {word : Text} (hword : percent ∉ word)
    (h : Fills (word ++ format) args sentence) :
    ∃ rest, sentence = word ++ rest ∧ Fills format args rest := by
  induction word generalizing sentence with
  | nil => exact ⟨sentence, rfl, h⟩
  | cons b word ih =>
      obtain ⟨hb, hword⟩ := List.ne_and_not_mem_of_not_mem_cons hword
      obtain ⟨tail, rfl, htail⟩ := h.of_cons hb.symm
      obtain ⟨rest, rfl, hrest⟩ := ih hword htail
      exact ⟨rest, rfl, hrest⟩

/-- A piece that begins with another byte has no per cent sign in it. -/
theorem percent_notMem_bytes {b : UInt8} {s r : Text} {p : Piece}
    (hb : b ≠ percent) (h : Text.next? (b :: s) = some (p, r)) :
    percent ∉ p.bytes := by
  have hsingle : percent ∉ [b] := mt List.mem_singleton.mp hb.symm
  rcases Text.next?_cases h with ⟨c, -, rfl, hs⟩ | ⟨c, rfl, hs⟩
  · obtain ⟨rfl, -⟩ := List.cons.inj hs
    exact hsingle
  · by_cases hc : c.toNat < 0x80
    · have hbytes : encodeChar c = [c.toNat.toUInt8] := if_pos hc
      rw [hbytes] at hs
      obtain ⟨rfl, -⟩ := List.cons.inj hs
      rw [Piece.bytes, hbytes]
      exact hsingle
    · intro hmem
      exact Text.not_isAscii_of_mem_encodeChar (Nat.le_of_not_lt hc) percent hmem
        (by decide)

/-! ## Filling -/

theorem fill_cons_of_ne {p : Piece} (hp : p ≠ .char '%') (done : List Text)
    (ps : List Piece) (args : List Text) :
    fill done (p :: ps) args = fill (p.bytes :: done) ps args := by
  cases p with
  | char c =>
      have hc : c ≠ '%' := fun hc => hp (congrArg Piece.char hc)
      rw [fill]
      · rfl
      all_goals simp [hc]
  | stray b => rfl

theorem pieces_percent (format : Text) :
    Text.pieces (percent :: format) = .char '%' :: format.pieces :=
  Text.pieces_cons_ascii (by decide) format

theorem fill_sign (done : List Text) (format : Text) (args : List Text) :
    fill done (Text.pieces (percent :: percent :: format)) args =
      fill ([percent] :: done) format.pieces args := by
  rw [pieces_percent, pieces_percent, fill]
  rfl

/-- The letter after a per cent sign says how the next argument is shown. -/
theorem fill_verb {verb : UInt8} (hascii : IsAscii verb)
    (hne : byteChar verb ≠ '%') (done : List Text) (format : Text) (arg : Text)
    (args : List Text) :
    fill done (Text.pieces (percent :: verb :: format)) (arg :: args) =
      fill (argument (byteChar verb) arg :: done) format.pieces args := by
  rw [pieces_percent, Text.pieces_cons_ascii hascii, fill]
  · rfl
  · simpa using hne

/-- A format that gives a sentence is filled with it. -/
theorem Fills.fill_eq (h : Fills format args sentence) (done : List Text) :
    fill done format.pieces args = done.reverse.flatten ++ sentence := by
  have hdone : ∀ (done : List Text) (text rest : Text),
      (text :: done).reverse.flatten ++ rest = done.reverse.flatten ++
        (text ++ rest) := by
    intro done text rest
    rw [List.reverse_cons, List.flatten_concat, List.append_assoc]
  have hshorter : ∀ (a b : UInt8) (format : Text),
      format.length < (a :: b :: format).length := by
    intro a b format
    rw [List.length_cons, List.length_cons]
    omega
  -- The induction is on the length: a byte may be the first of several that
  -- make up one character.
  induction hlength : format.length using Nat.strongRecOn
    generalizing format args sentence done with
  | ind n ih =>
      subst hlength
      cases h with
      | nil => rw [Text.pieces_nil, fill, extra]
      | @literal b format _ _ hb h =>
          obtain ⟨p, r, hnext⟩ := Text.exists_next? b format
          have hbytes : percent ∉ p.bytes := percent_notMem_bytes hb hnext
          have hp : p ≠ .char '%' := by
            rintro rfl
            exact hbytes (by decide)
          have hfills := h.literal hb
          rw [Text.eq_bytes_append_of_next? hnext] at hfills
          obtain ⟨rest, hsentence, hrest⟩ := hfills.of_append hbytes
          rw [Text.pieces_of_next? hnext, fill_cons_of_ne hp,
            ih _ (Text.length_lt_of_next? hnext) hrest _ rfl, hdone, hsentence]
      | sign h =>
          rw [fill_sign, ih _ (hshorter _ _ _) h _ rfl, hdone]
          rfl
      | verbatim arg h =>
          rw [fill_verb (by decide) (by decide), ih _ (hshorter _ _ _) h _ rfl,
            hdone]
          rfl
      | quoted arg h =>
          rw [fill_verb (by decide) (by decide), ih _ (hshorter _ _ _) h _ rfl,
            hdone]
          rfl

theorem Fills.apply_eq (h : Fills format args sentence) :
    apply format args = sentence :=
  h.fill_eq []

end Format

end ToolLint
