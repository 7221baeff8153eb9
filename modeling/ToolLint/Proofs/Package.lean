import ToolLint.Package
import ToolLint.Proofs.Text.Lines
import ToolLint.Proofs.Text.Pieces

/-!
# The main package and line ends

The line that opens a package lies between two line feeds, if there is none in
the name of the package. So it is the same line if carriage returns are added
before the line feeds, and the package begins at the same place
(`region?_crlf`).
-/

namespace ToolLint

namespace Text

/-- The first piece of a text, if it is no line feed, is not affected by
carriage returns further on. -/
theorem next?_crlf {b : UInt8} {s r : Text} {p : Piece} (hb : b ≠ lf)
    (h : next? (b :: s) = some (p, r)) :
    next? (crlf (b :: s)) = some (p, crlf r) := by
  have hsuffix : ∀ {t r : Text} {p : Piece}, next? t = some (p, r) → lf ∉ t →
      lf ∉ r := by
    intro t r p ht hlf hmem
    obtain ⟨w, -, rfl⟩ := exists_append_of_next? ht
    exact hlf (List.mem_append_right w hmem)
  by_cases hlf : lf ∈ b :: s
  · obtain ⟨u, v, hu, hnot⟩ := List.eq_append_cons_of_mem hlf
    -- The piece lies in front of the first line feed.
    obtain ⟨c, u, rfl⟩ : ∃ c u', u = c :: u' := by
      apply List.exists_cons_of_ne_nil
      rintro rfl
      exact hb (List.cons.inj hu).1
    obtain ⟨q, t, hq⟩ := exists_next? c u
    rw [hu, next?_append_ascii hq (by decide)] at h
    obtain ⟨rfl, rfl⟩ := Prod.mk.inj (Option.some.inj h)
    rw [hu, crlf_append, crlf_append, crlf_of_notMem hnot,
      crlf_of_notMem (hsuffix hq hnot), crlf_cons_lf]
    exact next?_append_ascii hq (by decide) _
  · rw [crlf_of_notMem hlf, crlf_of_notMem (hsuffix h hlf)]
    exact h

theorem byteChar_notMem_chars {b : UInt8} (hb : IsAscii b) {s : Text}
    (h : b ∉ s) : byteChar b ∉ s.chars := by
  intro hmem
  obtain ⟨cs, ds, hchars⟩ := List.append_of_mem hmem
  obtain ⟨u, v, rfl, -, -⟩ := eq_append_of_chars_eq_append hb hchars
  exact h (List.mem_append_right u List.mem_cons_self)

/-- Characters within a line are not affected by carriage returns at its end. -/
theorem afterChars?_crlf {cs : List Char} (hlf : byteChar lf ∉ cs)
    (hcr : byteChar cr ∉ cs) (s : Text) :
    afterChars? cs (crlf s) = (afterChars? cs s).map crlf := by
  induction cs generalizing s with
  | nil => rfl
  | cons c cs ih =>
      rw [List.mem_cons, not_or] at hlf hcr
      cases s with
      | nil => rfl
      | cons b s =>
          by_cases hb : b = lf
          · subst hb
            have hcr' : ¬ ((Piece.char (byteChar cr)).toChar == c) = true :=
              fun h => hcr.1 (beq_iff_eq.mp h)
            have hlf' : ¬ ((Piece.char (byteChar lf)).toChar == c) = true :=
              fun h => hlf.1 (beq_iff_eq.mp h)
            rw [crlf_cons_lf, afterChars?, afterChars?, next?_one (by decide),
              next?_one (by decide)]
            simp only [if_neg hcr', if_neg hlf', Option.map_none]
          · obtain ⟨p, r, hp⟩ := exists_next? b s
            rw [afterChars?, afterChars?, next?_crlf hb hp, hp]
            by_cases hc : (p.toChar == c) = true
            · simp only [if_pos hc, ih hlf.2 hcr.2]
            · simp only [if_neg hc, Option.map_none]

end Text

namespace Package

open Text (crlf crlf_cons_lf crlf_cons_of_ne)

/-- The line goes on with a semicolon, perhaps after blanks. -/
def closesHere (s : Text) : Bool :=
  match s.dropWhile isSpaceOrTab with
  | [] => false
  | b :: _ => b == ascii ';'

theorem closesHere_crlf (s : Text) : closesHere (crlf s) = closesHere s := by
  induction s with
  | nil => rfl
  | cons b s ih =>
      by_cases hlf : b = lf
      · subst hlf
        rfl
      · rw [crlf_cons_of_ne hlf]
        unfold closesHere at ih ⊢
        by_cases hb : isSpaceOrTab b = true
        · rw [List.dropWhile_cons_of_pos hb, List.dropWhile_cons_of_pos hb]
          exact ih
        · rw [List.dropWhile_cons_of_neg hb, List.dropWhile_cons_of_neg hb]

theorem afterChars?_crlf {cs : List Char} (hcs : byteChar lf ∉ cs) {s : Text} :
    (Text.afterChars? cs (crlf s)).any closesHere =
      (Text.afterChars? cs s).any closesHere := by
  have hstop : ∀ (cs : List Char) (s : Text), byteChar lf ∉ cs →
      (Text.afterChars? cs (lf :: s)).any closesHere = false := by
    intro cs s h
    cases cs with
    | nil => rfl
    | cons c cs =>
        rw [Text.afterChars?, Text.next?_one (by decide)]
        have hne : ¬ ((Piece.char (byteChar lf)).toChar == c) = true := by
          intro heq
          exact h (beq_iff_eq.mp heq ▸ List.mem_cons_self)
        simp only [if_neg hne]
        rfl
  induction cs generalizing s with
  | nil => exact closesHere_crlf s
  | cons c cs ih =>
      have hrest : byteChar lf ∉ cs := fun h => hcs (List.mem_cons_of_mem c h)
      cases s with
      | nil => rfl
      | cons b s =>
          by_cases hlf : b = lf
          · -- A name can eat the carriage return, but the line feed after it
            -- stops everything.
            subst hlf
            rw [hstop _ _ hcs, crlf_cons_lf, Text.afterChars?,
              Text.next?_one (by decide)]
            simp only
            split
            · exact hstop cs _ hrest
            · rfl
          · obtain ⟨p, r, hp⟩ := Text.exists_next? b s
            rw [Text.afterChars?, Text.afterChars?, Text.next?_crlf hlf hp, hp]
            simp only
            split
            · exact ih hrest
            · rfl

theorem afterSome_crlf {p : UInt8 → Bool} (hlf : p lf = false)
    (hcr : p cr = false) {k : Text → Bool} (hk : ∀ s, k (crlf s) = k s)
    (s : Text) : Text.afterSome p k (crlf s) = Text.afterSome p k s := by
  induction s with
  | nil => rfl
  | cons b s ih =>
      by_cases hb : b = lf
      · subst hb
        simp only [crlf_cons_lf, Text.afterSome, hlf, hcr, Bool.false_and]
      · rw [crlf_cons_of_ne hb, Text.afterSome, Text.afterSome, hk, ih]

theorem opensHere_eq (name : List Char) (s : Text) : opensHere name s =
    (Text.after? (utf8 "package") s).any
      (Text.afterSome isSpaceOrTab fun t =>
        (t.afterChars? name).any closesHere) := by
  unfold opensHere
  cases Text.after? (utf8 "package") s with
  | none => rfl
  | some r =>
      simp only [Option.any_some]
      congr 1
      funext t
      cases t.afterChars? name <;> rfl

theorem opensHere_crlf {name : List Char} (hname : byteChar lf ∉ name)
    (s : Text) : opensHere name (crlf s) = opensHere name s := by
  rw [opensHere_eq, opensHere_eq, Text.after?_crlf (by decide) (by decide),
    Option.any_map]
  congr 1
  funext r
  exact afterSome_crlf (by decide) (by decide) (fun t => afterChars?_crlf hname) r

theorem fromLine?_crlf {p : Text → Bool} (hp : ∀ s, p (crlf s) = p s)
    (here : Bool) (s : Text) :
    fromLine? p here (crlf s) = (fromLine? p here s).map crlf := by
  induction s generalizing here with
  | nil =>
      rw [show crlf [] = [] from rfl, fromLine?]
      split <;> rfl
  | cons b s ih =>
      have hhere := hp (b :: s)
      rw [fromLine?]
      by_cases hb : b = lf
      · subst hb
        rw [crlf_cons_lf] at hhere ⊢
        rw [fromLine?, hhere]
        split
        · rfl
        · -- No line starts at the line feed that now follows a carriage return.
          exact ih true
      · rw [crlf_cons_of_ne hb] at hhere ⊢
        rw [fromLine?, hhere]
        split
        · rw [Option.map_some, crlf_cons_of_ne hb]
        · exact ih _

/-- **The package begins at the same place.** -/
theorem region?_crlf {name : Text} (hname : lf ∉ name) (s : Text) :
    region? (crlf s) name = (region? s name).map crlf :=
  fromLine?_crlf (opensHere_crlf (Text.byteChar_notMem_chars (by decide) hname))
    true s

end Package

end ToolLint
