import ToolLint.Proofs.Help.Line
import Mathlib.Data.List.Induction
import Mathlib.Data.List.Nodup

/-!
# How a help listing is read

A listing is read line by line, and the first line that settles the matter
decides (`Decides`): one that is too long for the reader, or, below the heading,
one that claims to be that of an option and is not, or one that gives an option
again. Only if there is no such line does it matter whether the heading was
found. `Outcome` says what comes out in each case, from the lines alone, and it
is what `parse` gives.
-/

namespace ToolLint

namespace Help

/-! ## What lines say -/

/-- The lines of `body` are those below the first heading. -/
def Below (lines body : List Text) : Prop :=
  ∃ intro heading, lines = intro ++ heading :: body ∧
    (∀ line ∈ intro, isHeading line = false) ∧
    isHeading heading = true

/-- The options that lines give, in the order of the lines. -/
inductive Listing : List Text → List HelpOption → Prop
  | nil : Listing [] []
  | option {line : Text} {lines : List Text} {o : HelpOption}
    {options : List HelpOption} :
      Gives line.dropCr o → Listing lines options →
      Listing (line :: lines) (o :: options)
  | other {line : Text} {lines : List Text} {options : List HelpOption} :
      ¬ IsOptionLine line.dropCr → Listing lines options →
      Listing (line :: lines) options

/-- The line settles what the reading gives, after the lines `before`. -/
inductive Decides (before : List Text) (line : Text) :
    Except Error (List HelpOption) → Prop
  | overlong (hlong : Text.lineLimit ≤ line.length) : Decides before line
    (.error (.helpReading .overlongLine))
  | misfit {body : List Text} (hfits : line.length < Text.lineLimit)
    (hbelow : Below before body)
      (hcandidate : isCandidate line.dropCr = true)
        (hmisfit : ¬ IsOptionLine line.dropCr) :
      Decides before line (.error (.helpLine line.dropCr))
  | repeated {body : List Text} {options : List HelpOption} {o : HelpOption}
      (hfits : line.length < Text.lineLimit) (hbelow : Below before body)
        (hlisting : Listing body options)
      (hgives : Gives line.dropCr o)
        (hseen : o.long ∈ options.map HelpOption.long) :
      Decides before line (.ok options)

/-- None of the lines settles the matter. -/
def Undecided (lines : List Text) : Prop :=
  ∀ before line after r, lines = before ++ line :: after → ¬ Decides before line r

/-- What comes out of reading the lines. -/
inductive Outcome (lines : List Text) : Except Error (List HelpOption) → Prop
  | decided {before after : List Text} {line : Text}
    {r : Except Error (List HelpOption)}
      (hlines : lines = before ++ line :: after) (hbefore : Undecided before)
        (hline : Decides before line r) :
      Outcome lines r
  | noHeading (hlines : Undecided lines)
      (hnone : ∀ line ∈ lines, isHeading line = false) :
      Outcome lines (.error .noHelpHeading)
  | complete {body : List Text} {options : List HelpOption}
    (hlines : Undecided lines) (hbelow : Below lines body)
      (hlisting : Listing body options) : Outcome lines (.ok options)

/-! ## Lines below the heading -/

theorem Below.append {lines body : List Text} (h : Below lines body)
    (more : List Text) : Below (lines ++ more) (body ++ more) := by
  obtain ⟨intro, heading, rfl, hintro, hheading⟩ := h
  exact ⟨intro, heading, by rw [List.append_assoc, List.cons_append],
    hintro, hheading⟩

theorem noHeading_or_below (lines : List Text) :
    (∀ line ∈ lines, isHeading line = false) ∨ ∃ body, Below lines body := by
  induction lines with
  | nil => exact Or.inl (List.forall_mem_nil _)
  | cons line lines ih =>
      cases hline : isHeading line with
      | true => exact Or.inr ⟨lines, [], line, rfl, List.forall_mem_nil _, hline⟩
      | false =>
          rcases ih with hnone | ⟨body, intro, heading, rfl, hintro, hheading⟩
          · exact Or.inl (List.forall_mem_cons.mpr ⟨hline, hnone⟩)
          · exact Or.inr ⟨body, line :: intro, heading, rfl,
              List.forall_mem_cons.mpr ⟨hline, hintro⟩, hheading⟩

theorem Below.dropWhile_eq {lines body : List Text} (h : Below lines body) :
    ∃ heading, lines.dropWhile (fun line => !isHeading line) =
      heading :: body := by
  obtain ⟨intro, heading, rfl, hintro, hheading⟩ := h
  refine ⟨heading, ?_⟩
  rw [List.dropWhile_append_of_pos (fun line hline => by
      rw [hintro line hline, Bool.not_false]),
    List.dropWhile_cons_of_neg (by simp [hheading])]

theorem Below.unique {lines body body' : List Text} (h : Below lines body)
    (h' : Below lines body') : body = body' := by
  obtain ⟨heading, hdrop⟩ := h.dropWhile_eq
  obtain ⟨heading', hdrop'⟩ := h'.dropWhile_eq
  exact (List.cons.inj (hdrop.symm.trans hdrop')).2

theorem dropWhile_map_dropCr (lines : List Text) :
    (lines.map Text.dropCr).dropWhile (fun line => !isHeading line) =
      (lines.dropWhile fun line => !isHeading line).map Text.dropCr := by
  rw [List.dropWhile_map]
  congr 2
  funext line
  exact congrArg not (isHeading_dropCr line)

theorem listing_iff {lines : List Text} {options : List HelpOption} :
    Listing lines options ↔ (lines.map Text.dropCr).filterMap option? =
      options := by
  constructor
  · intro h
    induction h with
    | nil => rfl
    | option hgives _ ih =>
        rw [List.map_cons,
          List.filterMap_cons_some (option?_eq_some_iff.mpr hgives), ih]
    | other hother _ ih =>
        rw [List.map_cons,
          List.filterMap_cons_none (option?_eq_none_iff.mpr hother), ih]
  · rintro rfl
    induction lines with
    | nil => exact .nil
    | cons line lines ih =>
        cases hline : option? line.dropCr with
        | none =>
            rw [List.map_cons, List.filterMap_cons_none hline]
            exact .other (option?_eq_none_iff.mp hline) ih
        | some o =>
            rw [List.map_cons, List.filterMap_cons_some hline]
            exact .option (option?_eq_some_iff.mp hline) ih

theorem Listing.append {lines lines' : List Text}
    {options options' : List HelpOption} (h : Listing lines options)
    (h' : Listing lines' options') :
    Listing (lines ++ lines') (options ++ options') := by
  rw [listing_iff] at h h' ⊢
  rw [List.map_append, List.filterMap_append, h, h']

theorem Listing.unique {lines : List Text} {options options' : List HelpOption}
    (h : Listing lines options) (h' : Listing lines options') :
    options = options' :=
  (listing_iff.mp h).symm.trans (listing_iff.mp h')

/-! ## One line below the heading -/

namespace Progress

variable {line : Text} {o : HelpOption} {options : List HelpOption}

theorem step_of_gives (h : Gives line o)
    (hnew : o.long ∉ options.map HelpOption.long) :
    (reading options).step line = .reading (options ++ [o]) := by
  have hany : options.any (fun seen => seen.long == o.long) = false := by
    rw [List.any_eq_false]
    intro seen hseen heq
    exact hnew (List.mem_map.mpr ⟨seen, hseen, beq_iff_eq.mp heq⟩)
  simp [step, h.isCandidate, option?_eq_some_iff.mpr h, hany]

theorem step_of_seen (h : Gives line o)
    (hseen : o.long ∈ options.map HelpOption.long) :
    (reading options).step line = .finished options := by
  have hany : options.any (fun seen => seen.long == o.long) = true := by
    obtain ⟨seen, hmem, heq⟩ := List.mem_map.mp hseen
    exact List.any_eq_true.mpr ⟨seen, hmem, beq_iff_eq.mpr heq⟩
  simp only [step, h.isCandidate, option?_eq_some_iff.mpr h, hany, if_true]

theorem step_of_misfit (hcandidate : isCandidate line = true)
    (h : ¬ IsOptionLine line) : (reading options).step line = .stuck line := by
  simp only [step, hcandidate, option?_eq_none_iff.mpr h, if_true]

theorem step_of_other (h : isCandidate line = false) :
    (reading options).step line = .reading options := by
  simp [step, h]

theorem foldl_finished (lines : List Text) :
    lines.foldl step (finished options) = finished options := by
  induction lines with
  | nil => rfl
  | cons line lines ih => exact ih

theorem foldl_stuck (lines : List Text) :
    lines.foldl step (stuck line) = stuck line := by
  induction lines with
  | nil => rfl
  | cons line' lines ih => exact ih

end Progress

/-! ## Lines that leave the matter open -/

theorem Undecided.of_append {before after : List Text}
    (h : Undecided (before ++ after)) : Undecided before := by
  rintro first line rest r rfl
  exact h first line (rest ++ after) r
    (by rw [List.append_assoc, List.cons_append])

theorem Undecided.fits {lines : List Text} (h : Undecided lines) :
    ∀ line ∈ lines, Text.fits line = true := by
  intro line hline
  obtain ⟨before, after, rfl⟩ := List.append_of_mem hline
  rw [Text.fits_iff_lt]
  by_contra hlong
  exact h before line after _ rfl (.overlong (Nat.le_of_not_lt hlong))

/-- As long as nothing is decided, all options that were given are kept, and
they are different. -/
theorem Undecided.reading {lines body : List Text} (h : Undecided lines)
    (hbelow : Below lines body) :
    ∃ options, Listing body options ∧ (options.map HelpOption.long).Nodup ∧
      (body.map Text.dropCr).foldl Progress.step (.reading []) =
        .reading options := by
  obtain ⟨intro, heading, rfl, hintro, hheading⟩ := hbelow
  induction body using List.reverseRecOn with
  | nil => exact ⟨[], .nil, List.nodup_nil, rfl⟩
  | append_singleton body line ih =>
      have hsplit : intro ++ heading :: (body ++ [line]) =
          (intro ++ heading :: body) ++ [line] := by
        rw [List.append_assoc, List.cons_append]
      rw [hsplit] at h
      obtain ⟨options, hlisting, hnodup, hfold⟩ := ih h.of_append
      have hbelow : Below (intro ++ heading :: body) body :=
        ⟨intro, heading, rfl, hintro, hheading⟩
      have hline : ∀ r, ¬ Decides (intro ++ heading :: body) line r :=
        fun r => h _ line [] r rfl
      have hfits : line.length < Text.lineLimit :=
        Text.fits_iff_lt.mp
          (h.fits line (List.mem_append_right _ List.mem_cons_self))
      rw [List.map_append, List.foldl_append, hfold, List.map_singleton,
        List.foldl_cons, List.foldl_nil]
      by_cases hoption : IsOptionLine line.dropCr
      · obtain ⟨o, hgives⟩ := hoption.exists_gives
        have hnew : o.long ∉ options.map HelpOption.long := by
          intro hseen
          exact hline _ (.repeated hfits hbelow hlisting hgives hseen)
        refine ⟨options ++ [o], hlisting.append (.option hgives .nil), ?_,
          Progress.step_of_gives hgives hnew⟩
        rw [List.map_append, List.map_singleton, List.nodup_append_comm]
        exact List.nodup_cons.mpr ⟨hnew, hnodup⟩
      · have hother : isCandidate line.dropCr = false := by
          by_contra hcandidate
          rw [Bool.not_eq_false] at hcandidate
          exact hline _ (.misfit hfits hbelow hcandidate hoption)
        refine ⟨options, ?_, hnodup, Progress.step_of_other hother⟩
        rw [← List.append_nil options]
        exact hlisting.append (.other hoption .nil)

/-- Either nothing is decided, or some line is the first to decide. -/
theorem undecided_or_decided (lines : List Text) :
    Undecided lines ∨ ∃ before line after r, lines = before ++ line :: after ∧
    Undecided before ∧
      Decides before line r := by
  induction lines using List.reverseRecOn with
  | nil =>
      refine Or.inl ?_
      intro before line after r hnil
      simp at hnil
  | append_singleton lines line ih =>
      rcases ih with hlines | ⟨before, first, after, r, rfl, hbefore, hfirst⟩
      · by_cases hline : ∃ r, Decides lines line r
        · obtain ⟨r, hline⟩ := hline
          exact Or.inr ⟨lines, line, [], r, rfl, hlines, hline⟩
        · refine Or.inl ?_
          intro before first after r hsplit hfirst
          rcases List.eq_nil_or_concat after with rfl | ⟨after, last, rfl⟩
          · obtain ⟨rfl, hlast⟩ := List.append_inj' hsplit rfl
            obtain ⟨rfl, -⟩ := List.cons.inj hlast
            exact hline ⟨r, hfirst⟩
          · rw [List.concat_eq_append, ← List.cons_append, ← List.append_assoc]
              at hsplit
            exact hlines before first after r
              (List.append_inj_left' hsplit rfl) hfirst
      · exact Or.inr ⟨before, first, after ++ [line], r,
          by rw [List.append_assoc, List.cons_append], hbefore, hfirst⟩

/-! ## The whole text -/

/-- Below a heading that is reached, the lines up to the first one that is too
long are read. -/
theorem parse_of_below {output : Text} {body : List Text}
    (h : Below (output.terminated.takeWhile Text.fits) body) :
    parse output =
      match (body.map Text.dropCr).foldl Progress.step (.reading []) with
      | .stuck line => .error (.helpLine line)
      | .finished options => .ok options
      | .reading options =>
        if output.delivered.overlong then .error (.helpReading .overlongLine) else
          .ok options := by
  obtain ⟨heading, hdrop⟩ := h.dropWhile_eq
  have hafter : output.delivered.lines.dropWhile (fun line => !isHeading line) =
      heading.dropCr :: body.map Text.dropCr := by
    rw [Text.delivered, dropWhile_map_dropCr, hdrop, List.map_cons]
  unfold parse
  simp only [hafter, List.drop_one, List.tail_cons]
  cases (body.map Text.dropCr).foldl Progress.step (.reading []) <;> rfl

theorem parse_of_noHeading {output : Text}
    (h : ∀ line ∈ output.terminated.takeWhile Text.fits, isHeading line = false) :
    parse output = if output.delivered.overlong then
      .error (.helpReading .overlongLine)
      else .error .noHelpHeading := by
  have hafter : output.delivered.lines.dropWhile (fun line => !isHeading line) =
      [] := by
    rw [Text.delivered, dropWhile_map_dropCr, List.map_eq_nil_iff,
      List.dropWhile_eq_nil_iff]
    intro line hline
    rw [h line hline, Bool.not_false]
  unfold parse
  simp only [hafter, List.drop_nil, List.foldl_nil, List.isEmpty_nil, if_true]

/-- A line that fits is read after all lines before it, if they fit too. -/
theorem takeWhile_fits_of_fits {before after : List Text} {line : Text}
    (hbefore : ∀ l ∈ before, Text.fits l = true) (hline : Text.fits line = true) :
    (before ++ line :: after).takeWhile Text.fits = before ++ line ::
      after.takeWhile Text.fits := by
  rw [List.takeWhile_append_of_pos hbefore, List.takeWhile_cons_of_pos hline]

theorem delivered_of_fits {output : Text}
    (h : ∀ line ∈ output.terminated, Text.fits line = true) :
    output.terminated.takeWhile Text.fits = output.terminated ∧
    output.delivered.overlong = false := by
  refine ⟨List.takeWhile_eq_self_iff.mpr h, ?_⟩
  rw [Text.delivered, List.any_eq_false]
  intro line hline
  simp [h line hline]

/-- What a line decides comes out, if nothing was decided before. -/
theorem parse_of_decides {output : Text} {before after : List Text}
    {line : Text} {r : Except Error (List HelpOption)}
    (hlines : output.terminated = before ++ line :: after)
    (hbefore : Undecided before) (h : Decides before line r) :
    parse output = r := by
  have hreached : ∀ body, Text.fits line = true → Below before body →
      Below (output.terminated.takeWhile Text.fits)
        (body ++ line :: after.takeWhile Text.fits) := by
    intro body hline hbelow
    rw [hlines, takeWhile_fits_of_fits hbefore.fits hline]
    exact hbelow.append _
  cases h with
  | overlong hlong =>
      have hfits : Text.fits line = false := by
        rw [← Bool.not_eq_true, Text.fits_iff_lt]
        exact Nat.not_lt.mpr hlong
      have htake : output.terminated.takeWhile Text.fits = before := by
        rw [hlines, Text.takeWhile_fits hbefore.fits hfits]
      have hoverlong : output.delivered.overlong = true := by
        rw [Text.delivered, List.any_eq_true, hlines]
        exact ⟨line, List.mem_append_right _ List.mem_cons_self,
          by rw [hfits, Bool.not_false]⟩
      rcases noHeading_or_below before with hnone | ⟨body, hbelow⟩
      · rw [parse_of_noHeading (by rw [htake]; exact hnone), hoverlong,
          if_pos rfl]
      · obtain ⟨options, -, -, hfold⟩ := hbefore.reading hbelow
        rw [parse_of_below (by rw [htake]; exact hbelow), hfold, hoverlong]
        rfl
  | misfit hfits hbelow hcandidate hmisfit =>
      obtain ⟨options, -, -, hfold⟩ := hbefore.reading hbelow
      rw [parse_of_below (hreached _ (Text.fits_iff_lt.mpr hfits) hbelow),
        List.map_append, List.foldl_append, hfold, List.map_cons, List.foldl_cons,
        Progress.step_of_misfit hcandidate hmisfit, Progress.foldl_stuck]
  | repeated hfits hbelow hlisting hgives hseen =>
      obtain ⟨options, hlisting', -, hfold⟩ := hbefore.reading hbelow
      obtain rfl := hlisting.unique hlisting'
      rw [parse_of_below (hreached _ (Text.fits_iff_lt.mpr hfits) hbelow),
        List.map_append, List.foldl_append, hfold, List.map_cons, List.foldl_cons,
        Progress.step_of_seen hgives hseen, Progress.foldl_finished]

theorem parse_of_outcome {output : Text} {r : Except Error (List HelpOption)}
    (h : Outcome output.terminated r) : parse output = r := by
  cases h with
  | decided hlines hbefore hline => exact parse_of_decides hlines hbefore hline
  | noHeading hlines hnone =>
      obtain ⟨htake, hoverlong⟩ := delivered_of_fits hlines.fits
      rw [parse_of_noHeading (by rw [htake]; exact hnone), hoverlong]
      rfl
  | complete hlines hbelow hlisting =>
      obtain ⟨htake, hoverlong⟩ := delivered_of_fits hlines.fits
      obtain ⟨options, hlisting', -, hfold⟩ := hlines.reading hbelow
      obtain rfl := hlisting.unique hlisting'
      rw [parse_of_below (by rw [htake]; exact hbelow), hfold, hoverlong]
      rfl

theorem exists_outcome (lines : List Text) : ∃ r, Outcome lines r := by
  rcases undecided_or_decided lines with hlines
    | ⟨before, line, after, r, hsplit, hbefore, hline⟩
  · rcases noHeading_or_below lines with hnone | ⟨body, hbelow⟩
    · exact ⟨_, .noHeading hlines hnone⟩
    · obtain ⟨options, hlisting, -, -⟩ := hlines.reading hbelow
      exact ⟨_, .complete hlines hbelow hlisting⟩
  · exact ⟨r, .decided hsplit hbefore hline⟩

/-- **The lines say what comes out.** -/
theorem parse_eq_iff {output : Text} {r : Except Error (List HelpOption)} :
    parse output = r ↔ Outcome output.terminated r := by
  constructor
  · rintro rfl
    obtain ⟨r, hr⟩ := exists_outcome output.terminated
    rw [parse_of_outcome hr]
    exact hr
  · exact parse_of_outcome

theorem Outcome.nodup {lines : List Text} {options : List HelpOption}
    (h : Outcome lines (.ok options)) : (options.map HelpOption.long).Nodup := by
  cases h with
  | decided _ hbefore hline =>
      cases hline with
      | repeated _ hbelow hlisting _ _ =>
          obtain ⟨options', hlisting', hnodup, -⟩ := hbefore.reading hbelow
          rw [hlisting.unique hlisting']
          exact hnodup
  | complete hlines hbelow hlisting =>
      obtain ⟨options', hlisting', hnodup, -⟩ := hlines.reading hbelow
      rw [hlisting.unique hlisting']
      exact hnodup

/-- Lines that come after the decision do not count. -/
theorem Outcome.append {lines : List Text} {r : Except Error (List HelpOption)}
    (h : Outcome lines r) (hdecided : ¬ Undecided lines) (more : List Text) :
    Outcome (lines ++ more) r := by
  cases h with
  | decided hlines hbefore hline =>
      exact .decided (by rw [hlines, List.append_assoc, List.cons_append])
        hbefore hline
  | noHeading hlines _ => exact absurd hlines hdecided
  | complete hlines _ _ => exact absurd hlines hdecided

/-- **The first line that settles the matter decides what a help listing
gives**, and nothing that follows this line makes a difference. Without such a
line all options below the heading are listed, and it is an error if there is no
heading. No option is listed twice. -/
theorem parse_decided_by_first (output : Text) :
    (∀ r, parse output = r ↔ Outcome output.terminated r) ∧
    (∀ options, parse output = .ok options →
      (options.map HelpOption.long).Nodup) ∧
    (output.getLast? = some lf → ¬ Undecided output.terminated → ∀ s,
      parse (output ++ s) = parse output) ∧
    Error.message (.helpReading .overlongLine) =
      utf8 "read --help output: bufio.Scanner: token too long" ∧
    (∀ line, Error.message (.helpLine line) = utf8 "cannot parse --help line " ++
      Text.quoted line) ∧
    Error.message .noHelpHeading =
      utf8 "no Options: heading in --help output" := by
  refine ⟨fun r => parse_eq_iff, ?_, ?_, rfl, fun line => rfl, rfl⟩
  · intro options hparse
    exact (parse_eq_iff.mp hparse).nodup
  · intro hlast hdecided s
    obtain ⟨p, rfl⟩ := List.getLast?_eq_some_iff.mp hlast
    rw [parse_eq_iff, Text.terminated_append_of_lf]
    exact (parse_eq_iff.mp rfl).append hdecided (Text.terminated s)

/-- A listing that goes on after its last option with the value of one. -/
def withValues : Text :=
  utf8 "Usage: ask\r\n Options:\r\n --wait\n  --[no]ask -a  Ask\n--ask=y\n"

theorem parse_decided_by_first_values :
    (withValues.getLast? = some lf ∧ ¬ Undecided withValues.terminated) ∧
      ∀ s, parse (withValues ++ s) =
        .ok [⟨utf8 "wait", [], []⟩, ⟨utf8 "ask", [], utf8 "a"⟩] := by
  have hlast : withValues.getLast? = some lf := by decide +kernel
  have hlines : withValues.terminated = [utf8 "Usage: ask\r", utf8 " Options:\r",
      utf8 " --wait",
      utf8 "  --[no]ask -a  Ask"] ++ [utf8 "--ask=y"] := by decide +kernel
  have hbelow : Below [utf8 "Usage: ask\r", utf8 " Options:\r", utf8 " --wait",
      utf8 "  --[no]ask -a  Ask"]
      [utf8 " --wait", utf8 "  --[no]ask -a  Ask"] :=
    ⟨[utf8 "Usage: ask\r"], utf8 " Options:\r", rfl, by decide +kernel,
      by decide +kernel⟩
  have hlisting : Listing [utf8 " --wait", utf8 "  --[no]ask -a  Ask"]
      [⟨utf8 "wait", [], []⟩, ⟨utf8 "ask", [], utf8 "a"⟩] :=
        listing_iff.mpr (by decide +kernel)
  have hgives : Gives (Text.dropCr (utf8 "--ask=y")) ⟨utf8 "ask", utf8 "y", []⟩ :=
    option?_eq_some_iff.mp (by decide +kernel)
  have hdecided : ¬ Undecided withValues.terminated := fun h =>
    h _ _ [] _ hlines (.repeated (by decide +kernel) hbelow hlisting hgives
      (by decide +kernel))
  refine ⟨⟨hlast, hdecided⟩, fun s => ?_⟩
  rw [(parse_decided_by_first withValues).2.2.1 hlast hdecided s]
  decide +kernel

end Help

end ToolLint
