import ToolLint.CommandLine
import ToolLint.Proofs.Text.Lines
import Mathlib.Data.List.Induction

/-!
# What a command line asks for

A grammar of command lines, and what a run does with each of them. A word before
the double hyphen is a path, a flag word (`Sets`) or wrong (`IsWrong`); after it
every word is a path. A line without a wrong word gives values to the flags and
has its paths in order (`Reads`). The grammar is not the reader: it says which
words there are and not how to find out. The reader accepts exactly the lines of
the grammar (`Reads.read_eq`, `reads_or_refused`).

The run then depends on three things: the last value of each of the two flags,
and the paths (`run_dispatch`). Wherever the flag words stand, what is inspected
are the paths.
-/

namespace ToolLint

namespace CommandLine

/-! ## Words -/

/-- The word after which all words are paths. -/
def terminator : Text := utf8 "--"

/-- A path begins with no hyphen, or is just a hyphen. -/
def isPath (word : Text) : Bool :=
  word.head? != some (ascii '-') || word == utf8 "-"

/-- The value is a word for this truth value. -/
def Means (value : Text) (b : Bool) : Prop :=
  value ∈ if b then trueWords else falseWords

/-- The letters after a single hyphen set these flags to these values, in this
order. Each letter is a flag that is set to true, but the last one can have a
value. What is left to test programs ends the letters. -/
inductive ClusterSets : Text → List (Flag × Bool) → Prop
  | nil : ClusterSets [] []
  | reserved (rest : Text) : ClusterSets (utf8 "test." ++ rest) []
  | value (flag : Flag) {value : Text} {b : Bool} (h : Means value b) :
      ClusterSets (flag.letter :: ascii '=' :: value) [(flag, b)]
  | letter (flag : Flag) {s : Text} {vs : List (Flag × Bool)}
    (h : ClusterSets s vs) :
      ClusterSets (flag.letter :: s) ((flag, true) :: vs)

/-- The name after a double hyphen sets the flag to true, or to the value that
it has. -/
inductive LongSets : Text → List (Flag × Bool) → Prop
  | name (flag : Flag) : LongSets flag.longName [(flag, true)]
  | value (flag : Flag) {value : Text} {b : Bool} (h : Means value b) :
      LongSets (flag.longName ++ ascii '=' :: value) [(flag, b)]

/-- The word is a flag word, and sets these flags to these values, in this
order. -/
inductive Sets : Text → List (Flag × Bool) → Prop
  | long {s : Text} {vs : List (Flag × Bool)} (h : LongSets s vs) :
    Sets (utf8 "--" ++ s) vs
  | cluster {s : Text} {vs : List (Flag × Bool)} (hne : s ≠ [])
    (h : ClusterSets s vs) : Sets (utf8 "-" ++ s) vs

/-- The word is none that can stand before the double hyphen. -/
def IsWrong (word : Text) : Prop :=
  word ≠ terminator ∧ isPath word = false ∧ ∀ vs, ¬ Sets word vs

/-! ## Lines -/

/-- The words give these values to flags, in this order, and have these paths. -/
inductive Reads : List Text → List (Flag × Bool) → List Text → Prop
  | nil : Reads [] [] []
  | terminator (rest : List Text) : Reads (terminator :: rest) [] rest
  | path {word : Text} {words : List Text} {vs : List (Flag × Bool)}
    {ps : List Text} (hword : isPath word = true)
      (h : Reads words vs ps) : Reads (word :: words) vs (word :: ps)
  | flag {word : Text} {words : List Text} {new vs : List (Flag × Bool)}
    {ps : List Text} (hword : Sets word new)
      (h : Reads words vs ps) : Reads (word :: words) (new ++ vs) ps

/-- The words before the double hyphen, all of them if there is none. -/
def beforeTerminator (words : List Text) : List Text :=
  words.takeWhile (· != terminator)

/-- The paths of a line: before the double hyphen the words that are paths, and
after it all words. -/
def pathsOf (words : List Text) : List Text :=
  (beforeTerminator words).filter isPath ++
    (words.dropWhile (· != terminator)).drop 1

/-- The value of a flag: the last one that it is given, and false if there is
none. -/
def lastValue (flag : Flag) (vs : List (Flag × Bool)) : Bool :=
  ((vs.filter fun v => v.1 == flag).getLast?.map Prod.snd).getD false

variable {s word value : Text} {words ps : List Text} {b : Bool}
  {vs : List (Flag × Bool)}

/-! ## The parts of a word -/

theorem notMem_falseWords (h : value ∈ trueWords) : value ∉ falseWords := by
  have hdisjoint : trueWords.all (fun v => !falseWords.contains v) = true := rfl
  intro hmem
  have := List.all_eq_true.mp hdisjoint value h
  rw [List.contains_iff_mem.mpr hmem] at this
  cases this

theorem boolean?_eq_some_iff : boolean? value = some b ↔ Means value b := by
  unfold boolean? Means
  by_cases htrue : value ∈ trueWords
  · have hfalse := notMem_falseWords htrue
    rw [if_pos (List.contains_iff_mem.mpr htrue)]
    cases b <;> simp [htrue, hfalse]
  · rw [if_neg (by rwa [List.contains_iff_mem])]
    cases b <;> simp [htrue]

namespace Flag

theorem ofName?_longName (flag : Flag) : ofName? flag.longName = some flag := by
  cases flag <;> rfl

theorem ofLetter?_letter (flag : Flag) : ofLetter? flag.letter = some flag := by
  cases flag <;> rfl

theorem longName_of_ofName? {name : Text} {flag : Flag}
    (h : ofName? name = some flag) : flag.longName = name := by
  unfold ofName? at h
  exact beq_iff_eq.mp
    (List.find?_some (p := fun f : Flag => f.longName == name) h)

theorem letter_of_ofLetter? {b : UInt8} {flag : Flag}
    (h : ofLetter? b = some flag) : flag.letter = b := by
  unfold ofLetter? at h
  exact beq_iff_eq.mp (List.find?_some (p := fun f : Flag => f.letter == b) h)

/-- The letters are told from an equals sign and from a hyphen. -/
theorem letter_ne (flag : Flag) :
    flag.letter ≠ ascii '=' ∧ flag.letter ≠ ascii '-' := by
  cases flag <;> decide

/-- A name has no equals sign in it. -/
theorem bne_of_mem_longName (flag : Flag) :
    ∀ b ∈ flag.longName, (b != ascii '=') = true := by
  cases flag <;> exact List.all_eq_true.mp rfl

end Flag

theorem Means.ne_nil (h : Means value b) : value ≠ [] := by
  rintro rfl
  have hnone : boolean? [] = none := rfl
  rw [boolean?_eq_some_iff.mpr h] at hnone
  cases hnone

/-- The letters begin with neither an equals sign nor a hyphen. -/
theorem ClusterSets.head?_ne (h : ClusterSets s vs) :
    s.head? ≠ some (ascii '=') ∧ s.head? ≠ some (ascii '-') := by
  cases h with
  | nil => simp
  | reserved rest =>
      have hhead : (utf8 "test." ++ rest).head? = some (ascii 't') := rfl
      rw [hhead]
      decide
  | value flag _ => simpa using flag.letter_ne
  | letter flag _ => simpa using flag.letter_ne

theorem LongSets.ne_nil (h : LongSets s vs) : s ≠ [] := by
  cases h with
  | name flag => cases flag <;> exact List.cons_ne_nil _ _
  | value flag _ => cases flag <;> exact List.cons_ne_nil _ _

/-- What is no path has something after a hyphen. -/
theorem exists_of_not_isPath (h : isPath word = false) :
    ∃ s, s ≠ [] ∧ word = utf8 "-" ++ s := by
  rw [isPath, Bool.or_eq_false_iff, bne_eq_false_iff_eq, beq_eq_false_iff_ne] at h
  obtain ⟨s, rfl⟩ := List.head?_eq_some_iff.mp h.1
  refine ⟨s, ?_, rfl⟩
  rintro rfl
  exact h.2 rfl

namespace Request

def setAll (r : Request) (vs : List (Flag × Bool)) : Request :=
  vs.foldl (fun r v => r.set v.1 v.2) r

theorem setAll_append (r : Request) (vs ws : List (Flag × Bool)) :
    r.setAll (vs ++ ws) = (r.setAll vs).setAll ws :=
  List.foldl_append

theorem assign_of_means (h : Means value b) (r : Request) (flag : Flag) :
    r.assign flag value = .ok (r.set flag b) := by
  rw [assign, boolean?_eq_some_iff.mpr h]

/-- A word that stands for no truth value is refused. -/
theorem means_or_assign (value : Text) :
    (∃ b, Means value b) ∨ ∀ (r : Request) flag,
      r.assign flag value = .error (.notBoolean flag value) := by
  cases h : boolean? value with
  | some b => exact Or.inl ⟨b, boolean?_eq_some_iff.mp h⟩
  | none =>
      refine Or.inr fun r flag => ?_
      rw [assign, h]

/-! ## Names after a double hyphen -/

/-- The name ends at the first equals sign. -/
theorem readLong_longName (r : Request) (flag : Flag) {v : Text}
    (hv : ∀ b ∈ v.head?, (b != ascii '=') = false) :
    r.readLong (flag.longName ++ v) = if v = [] then .ok (r.set flag true) else
      r.assign flag v.tail := by
  have htake := Text.takeWhile_append_of_head flag.bne_of_mem_longName hv
  have hdrop := Text.dropWhile_append_of_head flag.bne_of_mem_longName hv
  have hguard :
      ((flag.longName ++ v).isEmpty || (flag.longName ++ v).head? =
        some (ascii '-') ||
      flag.longName.isEmpty) = false := by
    cases flag <;> rfl
  unfold readLong
  simp only [htake, hdrop, hguard, Flag.ofName?_longName]
  cases v <;> rfl

theorem readLong_of_longSets (h : LongSets s vs) (r : Request) :
    r.readLong s = .ok (r.setAll vs) := by
  cases h with
  | name flag =>
      have hread := r.readLong_longName flag (v := []) (by simp)
      rwa [List.append_nil] at hread
  | value flag hvalue =>
      rw [r.readLong_longName flag (by rintro _ ⟨⟩; rfl)]
      exact assign_of_means hvalue r flag

theorem longSets_or_readLong (s : Text) :
    (∃ vs, LongSets s vs) ∨ ∃ f, f ≠ Fault.checksFailed ∧ ∀ r : Request,
      r.readLong s = .error f := by
  by_cases hguard : (s.isEmpty || s.head? = some (ascii '-') ||
    (s.takeWhile (· != ascii '=')).isEmpty) = true
  · refine Or.inr ⟨.malformedFlag (utf8 "--" ++ s), by simp, fun r => ?_⟩
    simp only [readLong, hguard, if_true]
  · cases hname : Flag.ofName? (s.takeWhile (· != ascii '=')) with
    | none =>
        refine Or.inr ⟨.unknownFlag (s.takeWhile (· != ascii '=')), by simp,
          fun r => ?_⟩
        simp only [readLong, hguard, hname]
        rfl
    | some flag =>
        have hsplit : flag.longName ++ s.dropWhile (· != ascii '=') = s := by
          rw [Flag.longName_of_ofName? hname, List.takeWhile_append_dropWhile]
        have hstop := Text.not_of_mem_head?_dropWhile (· != ascii '=') s
        have hread := fun r : Request => r.readLong_longName flag hstop
        generalize s.dropWhile (· != ascii '=') = v at hsplit hstop hread
        subst hsplit
        cases v with
        | nil =>
            exact Or.inl ⟨_, List.append_nil flag.longName ▸ LongSets.name flag⟩
        | cons c value =>
            obtain rfl : c = ascii '=' := bne_eq_false_iff_eq.mp (hstop c rfl)
            rcases means_or_assign value with ⟨b, hb⟩ | hwrong
            · exact Or.inl ⟨_, LongSets.value flag hb⟩
            · exact Or.inr ⟨.notBoolean flag value, by simp,
                fun r => (hread r).trans (hwrong r flag)⟩

/-! ## Letters after a hyphen -/

theorem readCluster_reserved (r : Request) (rest : Text) :
    r.readCluster (utf8 "test." ++ rest) = .ok r :=
  rfl

theorem not_reserved_letter (flag : Flag) (s : Text) :
    reservedCluster.isPrefixOf (flag.letter :: s) = false := by
  cases flag <;> rfl

/-- A value ends the letters. -/
theorem readCluster_value (r : Request) (flag : Flag) (hne : value ≠ []) :
    r.readCluster (flag.letter :: ascii '=' :: value) = r.assign flag value := by
  obtain ⟨b, value, rfl⟩ := List.exists_cons_of_ne_nil hne
  rw [readCluster, not_reserved_letter, Flag.ofLetter?_letter]
  rfl

/-- A letter without a value is a flag that is set. -/
theorem readCluster_letter (r : Request) (flag : Flag)
    (h : ∀ value, value ≠ [] → s ≠ ascii '=' :: value) :
    r.readCluster (flag.letter :: s) = (r.set flag true).readCluster s := by
  rw [readCluster, not_reserved_letter, Flag.ofLetter?_letter]
  simp only [Bool.false_eq_true, if_false]
  split
  · rename_i b value
    exact absurd rfl (h (b :: value) (List.cons_ne_nil b value))
  · rfl

theorem readCluster_of_clusterSets (h : ClusterSets s vs) (r : Request) :
    r.readCluster s = .ok (r.setAll vs) := by
  induction h generalizing r with
  | nil => rfl
  | reserved rest => exact readCluster_reserved r rest
  | value flag hvalue =>
      rw [readCluster_value r flag hvalue.ne_nil]
      exact assign_of_means hvalue r flag
  | letter flag h ih =>
      rw [readCluster_letter r flag]
      · exact ih (r.set flag true)
      · rintro value - rfl
        exact h.head?_ne.1 rfl

theorem clusterSets_or_readCluster (s : Text) :
    (∃ vs, ClusterSets s vs) ∨ ∃ f, f ≠ Fault.checksFailed ∧ ∀ r : Request,
      r.readCluster s = .error f := by
  induction s with
  | nil => exact Or.inl ⟨_, ClusterSets.nil⟩
  | cons b s ih =>
      by_cases hreserved : reservedCluster.isPrefixOf (b :: s) = true
      · obtain ⟨rest, hrest⟩ := List.isPrefixOf_iff_prefix.mp hreserved
        exact Or.inl ⟨_, hrest ▸ ClusterSets.reserved rest⟩
      · cases hletter : Flag.ofLetter? b with
        | none =>
            refine Or.inr ⟨.unknownLetter (b :: s), by simp, fun r => ?_⟩
            simp only [readCluster, hreserved, hletter]
            rfl
        | some flag =>
            obtain rfl := Flag.letter_of_ofLetter? hletter
            by_cases hvalue : ∃ value, value ≠ [] ∧ s = ascii '=' :: value
            · obtain ⟨value, hne, rfl⟩ := hvalue
              rcases means_or_assign value with ⟨b, hb⟩ | hwrong
              · exact Or.inl ⟨_, ClusterSets.value flag hb⟩
              · refine Or.inr ⟨.notBoolean flag value, by simp, fun r => ?_⟩
                rw [readCluster_value r flag hne, hwrong]
            · have hread := fun r : Request => r.readCluster_letter flag
                fun value hne hs => hvalue ⟨value, hne, hs⟩
              rcases ih with ⟨vs, hvs⟩ | ⟨f, hf, herror⟩
              · exact Or.inl ⟨_, ClusterSets.letter flag hvs⟩
              · exact Or.inr ⟨f, hf, fun r => (hread r).trans (herror _)⟩

/-! ## One word -/

theorem read_terminator (r : Request) (words : List Text) :
    r.read (terminator :: words) = .ok { r with paths := r.paths ++ words } := rfl

theorem read_path (h : isPath word = true) (r : Request) (words : List Text) :
    r.read (word :: words) = Request.read { r with paths := r.paths ++ [word] }
      words := by
  rw [read]
  · rintro body rfl
    cases h
  · rintro b s rfl
    cases h

/-- A word after a double hyphen is read as a name. -/
theorem read_long (h : s ≠ []) (r : Request) (words : List Text) :
    r.read ((utf8 "--" ++ s) :: words) = (r.readLong s).bind (·.read words) := by
  have hs : s.isEmpty = false := List.isEmpty_eq_false_iff.mpr h
  have hword : utf8 "--" ++ s = 0x2D :: 0x2D :: s := rfl
  rw [hword, read, hs]
  cases r.readLong s <;> rfl

/-- A word after a single hyphen is read letter by letter. -/
theorem read_cluster (h : s ≠ []) (hs : s.head? ≠ some (ascii '-'))
    (r : Request) (words : List Text) :
    r.read ((utf8 "-" ++ s) :: words) = (r.readCluster s).bind
      (·.read words) := by
  obtain ⟨b, s, rfl⟩ := List.exists_cons_of_ne_nil h
  have hword : utf8 "-" ++ (b :: s) = 0x2D :: b :: s := rfl
  rw [hword, read]
  · cases r.readCluster (b :: s) <;> rfl
  · rintro rfl
    exact hs rfl

theorem read_of_sets (h : Sets word vs) (r : Request) (words : List Text) :
    r.read (word :: words) = (r.setAll vs).read words := by
  cases h with
  | long h =>
      rw [read_long h.ne_nil, readLong_of_longSets h]
      rfl
  | cluster hne h =>
      rw [read_cluster hne h.head?_ne.2, readCluster_of_clusterSets h]
      rfl

theorem read_of_isWrong (h : IsWrong word) :
    ∃ f, f ≠ Fault.checksFailed ∧ ∀ (r : Request) (words : List Text),
      r.read (word :: words) = .error f := by
  obtain ⟨hterminator, hpath, hsets⟩ := h
  obtain ⟨s, hne, rfl⟩ := exists_of_not_isPath hpath
  by_cases hs : s.head? = some (ascii '-')
  · obtain ⟨t, rfl⟩ := List.head?_eq_some_iff.mp hs
    have ht : t ≠ [] := by
      rintro rfl
      exact hterminator rfl
    rcases longSets_or_readLong t with ⟨vs, hvs⟩ | ⟨f, hf, herror⟩
    · exact absurd (Sets.long hvs) (hsets vs)
    · refine ⟨f, hf, fun r words => ?_⟩
      have hread := r.read_long ht words
      rwa [herror] at hread
  · rcases clusterSets_or_readCluster s with ⟨vs, hvs⟩ | ⟨f, hf, herror⟩
    · exact absurd (Sets.cluster hne hvs) (hsets vs)
    · refine ⟨f, hf, fun r words => ?_⟩
      have hread := r.read_cluster hne hs words
      rwa [herror] at hread

/-! ## Values -/

def valueOf (r : Request) : Flag → Bool
  | .help => r.help
  | .version => r.version

theorem valueOf_set (r : Request) (f g : Flag) (b : Bool) :
    (r.set f b).valueOf g = if f = g then b else r.valueOf g := by
  cases f <;> cases g <;> rfl

theorem paths_set (r : Request) (f : Flag) (b : Bool) :
    (r.set f b).paths = r.paths := by
  cases f <;> rfl

theorem paths_setAll (r : Request) (vs : List (Flag × Bool)) :
    (r.setAll vs).paths = r.paths := by
  induction vs generalizing r with
  | nil => rfl
  | cons v vs ih => exact (ih (r.set v.1 v.2)).trans (paths_set r v.1 v.2)

theorem setAll_with_paths (r : Request) (ps : List Text)
    (vs : List (Flag × Bool)) :
    setAll { r with paths := ps } vs = { r.setAll vs with paths := ps } := by
  induction vs generalizing r with
  | nil => rfl
  | cons v vs ih =>
      have hset : Request.set { r with paths := ps } v.1 v.2 =
          { r.set v.1 v.2 with paths := ps } := by
        cases v.1 <;> rfl
      exact (congrArg (fun r => setAll r vs) hset).trans (ih (r.set v.1 v.2))

/-- The last value counts. -/
theorem valueOf_setAll (vs : List (Flag × Bool)) (flag : Flag) :
    (empty.setAll vs).valueOf flag = lastValue flag vs := by
  induction vs using List.reverseRecOn with
  | nil => cases flag <;> rfl
  | append_singleton vs v ih =>
      have hlast : empty.setAll (vs ++ [v]) = (empty.setAll vs).set v.1 v.2 :=
        setAll_append empty vs [v]
      rw [hlast, valueOf_set, ih, lastValue, lastValue, List.filter_append]
      by_cases hv : v.1 = flag
      · simp [hv]
      · simp [hv]

end Request

/-! ## A whole line -/

theorem ne_terminator_of_isPath (h : isPath word = true) : word ≠ terminator := by
  rintro rfl
  cases h

theorem word_cases (word : Text) :
    word = terminator ∨ isPath word = true ∨ (∃ vs, Sets word vs) ∨
    IsWrong word := by
  by_contra! h
  obtain ⟨hterminator, hpath, hsets, hwrong⟩ := h
  exact hwrong ⟨hterminator, Bool.not_eq_true _ ▸ hpath, hsets⟩

theorem beforeTerminator_cons (h : word ≠ terminator) (words : List Text) :
    beforeTerminator (word :: words) = word :: beforeTerminator words :=
  List.takeWhile_cons_of_pos (bne_iff_ne.mpr h)

theorem pathsOf_cons (h : word ≠ terminator) (words : List Text) :
    pathsOf (word :: words) = if isPath word then word :: pathsOf words else
      pathsOf words := by
  have hdrop : (word :: words).dropWhile (· != terminator) = words.dropWhile
      (· != terminator) :=
    List.dropWhile_cons_of_pos (bne_iff_ne.mpr h)
  rw [pathsOf, beforeTerminator_cons h, hdrop, List.filter_cons]
  split <;> rfl

theorem Sets.not_isPath (h : Sets word vs) : isPath word = false := by
  cases h with
  | long h => rfl
  | cluster hne h =>
      obtain ⟨b, s, rfl⟩ := List.exists_cons_of_ne_nil hne
      rfl

theorem Sets.ne_terminator (h : Sets word vs) : word ≠ terminator := by
  cases h with
  | long h => exact fun hword => h.ne_nil (List.append_cancel_left hword)
  | cluster hne h =>
      rename_i s
      intro hword
      have hs : s = utf8 "-" :=
        List.append_cancel_left (show utf8 "-" ++ s = utf8 "-" ++ utf8 "-"
          from hword)
      exact h.head?_ne.2 (hs ▸ rfl)

theorem Reads.pathsOf_eq (h : Reads words vs ps) :
    pathsOf words = ps := by
  induction h with
  | nil => rfl
  | terminator rest => rfl
  | path hword h ih =>
      rw [pathsOf_cons (ne_terminator_of_isPath hword), if_pos hword, ih]
  | flag hword h ih =>
      rw [pathsOf_cons hword.ne_terminator, hword.not_isPath, ih]
      rfl

/-- A line of the grammar is read as the grammar says. -/
theorem Reads.read_eq (h : Reads words vs ps) (r : Request) :
    r.read words = .ok { r.setAll vs with paths := r.paths ++ ps } := by
  induction h generalizing r with
  | nil => rw [List.append_nil]; rfl
  | terminator rest => exact r.read_terminator rest
  | path hword h ih =>
      rw [r.read_path hword, ih, Request.setAll_with_paths, List.append_assoc]
      rfl
  | flag hword h ih =>
      rw [r.read_of_sets hword, ih, Request.setAll_append, Request.paths_setAll]

/-- A line is one of the grammar, or a word of it is wrong and it is refused. -/
theorem reads_or_refused (words : List Text) :
    (∃ vs ps, Reads words vs ps) ∨ (∃ word ∈ beforeTerminator words,
      IsWrong word) ∧
      ∃ f, f ≠ Fault.checksFailed ∧ ∀ r : Request, r.read words = .error f := by
  induction words with
  | nil => exact Or.inl ⟨_, _, Reads.nil⟩
  | cons word words ih =>
      -- A wrong word further on is one of the longer line too.
      have hlater : word ≠ terminator →
          (∃ w ∈ beforeTerminator words, IsWrong w) →
          ∃ w ∈ beforeTerminator (word :: words), IsWrong w := by
        rintro hne ⟨w, hmem, hw⟩
        rw [beforeTerminator_cons hne]
        exact ⟨w, List.mem_cons_of_mem word hmem, hw⟩
      rcases word_cases word with rfl | hpath | ⟨new, hsets⟩ | hwrong
      · exact Or.inl ⟨_, _, Reads.terminator words⟩
      · rcases ih with ⟨vs, ps, h⟩ | ⟨h, f, hf, herror⟩
        · exact Or.inl ⟨_, _, Reads.path hpath h⟩
        · refine Or.inr ⟨hlater (ne_terminator_of_isPath hpath) h, f, hf,
            fun r => ?_⟩
          rw [r.read_path hpath, herror]
      · rcases ih with ⟨vs, ps, h⟩ | ⟨h, f, hf, herror⟩
        · exact Or.inl ⟨_, _, Reads.flag hsets h⟩
        · refine Or.inr ⟨hlater hsets.ne_terminator h, f, hf, fun r => ?_⟩
          rw [r.read_of_sets hsets, herror]
      · obtain ⟨f, hf, herror⟩ := Request.read_of_isWrong hwrong
        refine Or.inr ⟨⟨word, ?_, hwrong⟩, f, hf, fun r => herror r words⟩
        rw [beforeTerminator_cons hwrong.1]
        exact List.mem_cons_self

/-- No word of the grammar is wrong. -/
theorem Reads.not_isWrong (h : Reads words vs ps) :
    ∀ word ∈ beforeTerminator words, ¬ IsWrong word := by
  induction h with
  | nil => exact List.forall_mem_nil _
  | terminator rest => exact List.forall_mem_nil _
  | path hword h ih =>
      rw [beforeTerminator_cons (ne_terminator_of_isPath hword),
        List.forall_mem_cons]
      refine ⟨fun hwrong => ?_, ih⟩
      rw [hwrong.2.1] at hword
      cases hword
  | flag hword h ih =>
      rw [beforeTerminator_cons hword.ne_terminator, List.forall_mem_cons]
      exact ⟨fun hwrong => hwrong.2.2 _ hword, ih⟩

/-! ## Runs -/

theorem run_of_reads (h : Reads words vs ps)
    (checks : List Check) (files : Files) :
    run checks files words =
      if lastValue .help vs then
        ⟨[.print (description ++ utf8 "\n\n" ++ usage)], none⟩
      else if lastValue .version vs then ⟨[.print versionText], none⟩
      else if ps = [] then ⟨[.message usage], some .noTools⟩
      else inspect checks files ps := by
  have hhelp : (Request.empty.setAll vs).help = lastValue .help vs :=
    Request.valueOf_setAll vs .help
  have hversion : (Request.empty.setAll vs).version = lastValue .version vs :=
    Request.valueOf_setAll vs .version
  have hpaths : Request.empty.paths ++ ps = ps := rfl
  rw [run, h.read_eq Request.empty]
  simp only [hhelp, hversion, hpaths, List.isEmpty_iff]

/-- Whatever the checks and the files are, the run writes these texts to the two
streams and ends like this. No part of its output comes from a check: none is
begun, and no program is called. -/
def Idle (words : List Text) (out err : Text) (fault : Option Fault) : Prop :=
  ∃ os, (∀ checks files, run checks files words = ⟨os, fault⟩) ∧
    Output.events os = [] ∧ Output.calls os = [] ∧
    Output.stdout os = out ∧ Output.stderr os = err

/-- **A run does what the command line asks for.**

* A line belongs to the grammar exactly if none of its words before the double
  hyphen is wrong, and its paths are then the words that are paths, in their
  order, with all words after the double hyphen.
* With a wrong word the run writes nothing, and it fails with a fault of its
  own.
* If the last value of the flag for help is true, help is printed; if not, but
  that of the flag for the version is, the version is printed. Without paths the
  usage is told on the standard error output, and the run fails. In none of
  these cases a file or a check makes a difference.
* In all other cases the run is the inspection of the paths. -/
theorem run_dispatch (words : List Text) :
    usage = Text.unlines
      [utf8 "Usage:", utf8 "  check-tool TOOL_FILE... [flags]", [], utf8 "Flags:",
        utf8 "  -h, --help      help for check-tool",
        utf8 "  -v, --version   version for check-tool", []] ∧
    ((∃ vs ps, Reads words vs ps) ↔ ∀ word ∈ beforeTerminator words,
      ¬ IsWrong word) ∧
    ((∃ word ∈ beforeTerminator words, IsWrong word) → ∃ f, f ≠ .checksFailed ∧
      Idle words [] [] (some f)) ∧
    ∀ vs ps, Reads words vs ps →
      ps = (words.takeWhile (· != utf8 "--")).filter isPath ++
        (words.dropWhile (· != utf8 "--")).drop 1 ∧
      (lastValue .help vs = true →
        Idle words (description ++ utf8 "\n\n" ++ usage) [] none) ∧
      (lastValue .help vs = false → lastValue .version vs = true →
        Idle words (utf8 "check-tool version dev\n") [] none) ∧
      (lastValue .help vs = false → lastValue .version vs = false → ps = [] →
        Idle words [] usage (some .noTools)) ∧
      (lastValue .help vs = false → lastValue .version vs = false → ps ≠ [] →
        ∀ checks files, run checks files words = inspect checks files ps) := by
  refine ⟨by decide +kernel, ?_, ?_, ?_⟩
  · constructor
    · rintro ⟨vs, ps, h⟩
      exact h.not_isWrong
    · intro h
      refine (reads_or_refused words).resolve_right ?_
      rintro ⟨⟨word, hmem, hwrong⟩, -⟩
      exact h word hmem hwrong
  · rintro ⟨word, hmem, hwrong⟩
    obtain ⟨vs, ps, h⟩ | ⟨-, f, hf, herror⟩ := reads_or_refused words
    · exact absurd hwrong (h.not_isWrong word hmem)
    refine ⟨f, hf, [], ?_, rfl, rfl, rfl, rfl⟩
    intro checks files
    rw [run, herror]
  · intro vs ps h
    have hrun := run_of_reads h
    refine ⟨h.pathsOf_eq.symm, ?_, ?_, ?_, ?_⟩
    · intro hhelp
      refine ⟨[.print (description ++ utf8 "\n\n" ++ usage)], ?_, rfl, rfl,
        List.append_nil _, rfl⟩
      intro checks files
      rw [hrun, if_pos hhelp]
    · intro hhelp hversion
      refine ⟨[.print versionText], ?_, rfl, rfl, List.append_nil _, rfl⟩
      intro checks files
      rw [hrun, hhelp, if_neg Bool.false_ne_true, if_pos hversion]
    · intro hhelp hversion hps
      refine ⟨[.message usage], ?_, rfl, rfl, rfl, List.append_nil _⟩
      intro checks files
      rw [hrun, hhelp, if_neg Bool.false_ne_true, hversion,
        if_neg Bool.false_ne_true, if_pos hps]
    · intro hhelp hversion hps checks files
      rw [hrun, hhelp, if_neg Bool.false_ne_true, hversion,
        if_neg Bool.false_ne_true, if_neg hps]

/-- Flags are set and set back between the paths, a single hyphen is a path, and
after the double hyphen everything is. -/
theorem run_dispatch_mixed :
    let words := [utf8 "-hv", utf8 "a", utf8 "--help=false", utf8 "-",
      utf8 "-v=F", utf8 "--", utf8 "--help"]
    let files := Files.ofPaths (utf8 "/home") [(utf8 "a", [])] []
    run [] files words = inspect [] files [utf8 "a", utf8 "-", utf8 "--help"] ∧
      Output.stderr (run [] files words).output = utf8
        "cannot parse tool name from -\ncannot parse tool name from --help\n" ∧
      (run [] files words).fault = some .checksFailed := by
  intro words files
  have hfalse : Means (utf8 "false") false := boolean?_eq_some_iff.mp rfl
  have hF : Means (utf8 "F") false := boolean?_eq_some_iff.mp rfl
  have hreads : Reads words [(.help, true), (.version, true), (.help, false),
      (.version, false)]
      [utf8 "a", utf8 "-", utf8 "--help"] :=
    .flag
      (.cluster (List.cons_ne_nil _ _) (.letter .help (.letter .version .nil)))
      (.path rfl (.flag (.long (.value .help hfalse))
        (.path rfl (.flag (.cluster (List.cons_ne_nil _ _) (.value .version hF))
          (.terminator [utf8 "--help"])))))
  obtain ⟨-, -, -, hrun⟩ := run_dispatch words
  obtain ⟨-, -, -, -, hinspect⟩ := hrun _ _ hreads
  have hwords := hinspect rfl rfl (List.cons_ne_nil _ _) [] files
  rw [hwords]
  exact ⟨rfl, rfl, rfl⟩

end CommandLine

end ToolLint
