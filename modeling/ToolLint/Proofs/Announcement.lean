import ToolLint.Proofs.Pod.Documented
import ToolLint.Proofs.References
import ToolLint.Proofs.Text.Lines

/-!
# Announcements of modules

`Module.Announces` is the form of the lines that announce a module, and
`AnnouncedAt` says where one stands in a text. The scan goes through the text byte
by byte and takes an announcement off wherever a line begins with one. It finds the
lines of this form, each of them and nothing else (`announcementsFrom_eq`), because
no announcement has a line feed in it. So a text declares the modules of its
announcements in their order, each at its first one, and what stands before a line
feed and what stands after it are read on their own (`declared_linewise`).
-/

namespace ToolLint

namespace Module

/-! ## The form of a line -/

/-- A word that does not start with a digit, and then any number of words with
double colons before them. -/
def SpellsName (name : Text) : Prop :=
  ∃ (b : UInt8) (w : Text) (ws : List Text),
    name = b :: (w ++ ws.flatMap fun x => utf8 "::" ++ x) ∧
    (isLetter b = true ∨ b = ascii '_') ∧ (∀ c ∈ w, isWord c = true) ∧ ∀ x ∈ ws,
      x ≠ [] ∧ ∀ c ∈ x, isWord c = true

/-- The line is `# NAME package`, possibly with blanks at its end. -/
def Announces (line name : Text) : Prop :=
  ∃ blanks, line = utf8 "# " ++ name ++ utf8 " package" ++ blanks ∧
    SpellsName name ∧
    ∀ b ∈ blanks, b = space ∨ b = tab

/-- An announcement of the module begins after that many line feeds and at the
beginning of a line, and it goes on to the end of a line. -/
def AnnouncedAt (text : Text) (k : Nat) (name : Text) : Prop :=
  ∃ u announcement v, text = u ++ announcement ++ v ∧
    Announces announcement name ∧ u.count lf = k ∧
    (∀ b ∈ u.getLast?, b = lf) ∧ ∀ b ∈ v.head?, b = lf

/-! ## Names -/

theorem isNameRest_cons_of_isWord {b : UInt8} (hb : isWord b = true) (s : Text) :
    isNameRest (b :: s) = isNameRest s := by
  have hcolon : b ≠ 0x3A := by
    rintro rfl
    cases hb
  rw [isNameRest, hb, Bool.true_and]
  rintro _ _ ⟨rfl⟩
  exact absurd rfl hcolon

theorem isNameRest_append {w : Text} (hw : ∀ b ∈ w, isWord b = true) (s : Text) :
    isNameRest (w ++ s) = isNameRest s := by
  induction w with
  | nil => rfl
  | cons b w ih =>
      rw [List.cons_append, isNameRest_cons_of_isWord (hw b List.mem_cons_self)]
      exact ih fun c hc => hw c (List.mem_cons_of_mem b hc)

theorem isNameRest_iff {s : Text} : isNameRest s = true ↔
    ∃ (w : Text) (ws : List Text), s = w ++ (ws.flatMap fun x => utf8 "::" ++ x) ∧
      (∀ c ∈ w, isWord c = true) ∧
      ∀ x ∈ ws, x ≠ [] ∧ ∀ c ∈ x, isWord c = true := by
  constructor
  · intro h
    fun_induction isNameRest s with
    | case1 => exact ⟨[], [], rfl, by simp, by simp⟩
    | case2 b s ih =>
        -- The word that the rest begins with is the one after the colons.
        rw [Bool.and_eq_true] at h
        obtain ⟨w, ws, rfl, hw, hws⟩ := ih h.2
        refine ⟨[], (b :: w) :: ws, rfl, by simp, ?_⟩
        rw [List.forall_mem_cons, List.forall_mem_cons]
        exact ⟨⟨List.cons_ne_nil b w, h.1, hw⟩, hws⟩
    | case3 b s _ ih =>
        rw [Bool.and_eq_true] at h
        obtain ⟨w, ws, rfl, hw, hws⟩ := ih h.2
        refine ⟨b :: w, ws, rfl, ?_, hws⟩
        rw [List.forall_mem_cons]
        exact ⟨h.1, hw⟩
  · rintro ⟨w, ws, rfl, hw, hws⟩
    rw [isNameRest_append hw]
    induction ws with
    | nil => rfl
    | cons x ws ih =>
        obtain ⟨⟨hne, hx⟩, hrest⟩ := List.forall_mem_cons.mp hws
        obtain ⟨b, x, rfl⟩ := List.exists_cons_of_ne_nil hne
        obtain ⟨hb, hx⟩ := List.forall_mem_cons.mp hx
        show (isWord b && isNameRest (x ++ ws.flatMap fun x => utf8 "::" ++ x)) =
            true
        rw [hb, isNameRest_append hx, ih hrest]
        rfl

theorem isName_iff {name : Text} : isName name = true ↔ SpellsName name := by
  unfold SpellsName
  cases name with
  | nil => simp [isName]
  | cons b s =>
      rw [isName, Bool.and_eq_true, Bool.or_eq_true, beq_iff_eq, isNameRest_iff]
      constructor
      · rintro ⟨hb, w, ws, rfl, hw, hws⟩
        exact ⟨b, w, ws, rfl, hb, hw, hws⟩
      · rintro ⟨_, w, ws, ⟨rfl, rfl⟩, hb, hw, hws⟩
        exact ⟨hb, w, ws, rfl, hw, hws⟩

/-! ## Announcements -/

/-- What is read at the beginning of a text is an announcement that ends where a
line ends. -/
theorem announcement?_eq_some_iff {s name : Text} {n : Nat} :
    announcement? s = some (name, n) ↔
      ∃ line rest, s = line ++ rest ∧ Announces line name ∧ line.length = n ∧
        ∀ b ∈ rest.head?, b = lf := by
  unfold announcement? Announces
  constructor
  · intro h
    split at h
    · cases h
    · rename_i r hr
      simp only at h
      split at h
      · cases h
      · rename_i q hq
        split at h
        · rename_i hcond
          obtain ⟨hname, hend⟩ := Bool.and_eq_true_iff.mp hcond
          obtain ⟨rfl, rfl⟩ := Prod.mk.inj (Option.some.inj h)
          have hs : s = utf8 "# " ++ r.takeWhile isNameByte ++ utf8 " package" ++
              q.takeWhile isSpaceOrTab ++ q.dropWhile isSpaceOrTab := by
            rw [List.append_assoc _ (q.takeWhile isSpaceOrTab),
              List.takeWhile_append_dropWhile, List.append_assoc,
                List.append_assoc,
              ← Text.after?_eq_some_iff.mp hq, List.takeWhile_append_dropWhile]
            exact Text.after?_eq_some_iff.mp hr
          refine ⟨_, _, hs, ⟨_, rfl, isName_iff.mp hname, ?_⟩, ?_, ?_⟩
          · intro b hb
            exact isSpaceOrTab_iff.mp (List.mem_takeWhile_imp hb)
          · conv_rhs => rw [hs, List.length_append, Nat.add_sub_cancel]
          · intro b hb
            rw [Option.mem_def.mp hb] at hend
            exact beq_iff_eq.mp hend
        · cases h
  · rintro ⟨_, rest, rfl, ⟨blanks, rfl, hspells, hblanks⟩, rfl, hrest⟩
    have hname := isName_iff.mpr hspells
    have hbytes := isNameByte_of_isName hname
    have hstop : ∀ b ∈ (utf8 " package" ++ (blanks ++ rest)).head?,
        isNameByte b = false := by
      rintro b ⟨rfl⟩
      rfl
    have hspaces : ∀ b ∈ blanks, isSpaceOrTab b = true := fun b hb =>
      isSpaceOrTab_iff.mpr (hblanks b hb)
    have hline : ∀ b ∈ rest.head?, isSpaceOrTab b = false := by
      intro b hb
      rw [hrest b hb]
      rfl
    have hafter : Text.after? (utf8 "# ")
        (utf8 "# " ++ name ++ utf8 " package" ++ blanks ++ rest) =
          some (name ++ (utf8 " package" ++ (blanks ++ rest))) := by
      rw [Text.after?_eq_some_iff]
      simp only [List.append_assoc]
    have hend : rest.head?.all (· == lf) = true := by
      cases rest with
      | nil => rfl
      | cons b rest => exact beq_iff_eq.mpr (hrest b rfl)
    simp only [hafter, Text.takeWhile_append_of_head hbytes hstop,
      Text.dropWhile_append_of_head hbytes hstop, Text.after?_eq_some_iff.mpr rfl,
      Text.dropWhile_append_of_head hspaces hline, hname, hend,
        Bool.and_self, if_true]
    rw [List.length_append, Nat.add_sub_cancel]

def announced? (line : Text) : Option Text :=
  match announcement? line with
  | some (name, n) => if n = line.length then some name else none
  | none => none

theorem announced?_eq_some_iff {line name : Text} :
    announced? line = some name ↔ Announces line name := by
  unfold announced?
  constructor
  · intro h
    split at h
    · rename_i m n hm
      split at h
      · rename_i hn
        obtain rfl := Option.some.inj h
        obtain ⟨line', rest, rfl, hline, rfl, -⟩ :=
          announcement?_eq_some_iff.mp hm
        -- Nothing follows an announcement as long as the line.
        have hrest : rest = [] := by
          rw [List.length_append] at hn
          exact List.length_eq_zero_iff.mp (by omega)
        rwa [hrest, List.append_nil]
      · cases h
    · cases h
  · intro h
    have hread : announcement? line = some (name, line.length) :=
      announcement?_eq_some_iff.mpr ⟨line, [], (List.append_nil line).symm, h,
        rfl, by simp⟩
    rw [hread]
    exact if_pos rfl

theorem notMem_of_announces {b : UInt8} (hb : b = lf ∨ b = cr)
    {line name : Text} (h : Announces line name) : b ∉ line := by
  obtain ⟨blanks, rfl, hspells, hblanks⟩ := h
  have hname : b ∉ name := by
    apply notMem_of_isNameByte _ (isNameByte_of_isName (isName_iff.mpr hspells))
    rcases hb with rfl | rfl
    all_goals rfl
  have hend : b ∉ blanks := fun hmem => by
    have hblank := hblanks b hmem
    revert hblank
    rcases hb with rfl | rfl
    all_goals decide
  have hwords : b ∉ utf8 "# " ∧ b ∉ utf8 " package" := by
    rcases hb with rfl | rfl
    all_goals decide
  simp only [List.mem_append, not_or]
  exact ⟨⟨⟨hwords.1, hname⟩, hwords.2⟩, hend⟩

/-! ## The scan -/

/-- At the beginning of a line only that line can be read. -/
theorem announcement?_append {line v : Text} (hline : lf ∉ line)
    (hv : ∀ b ∈ v.head?, b = lf) :
    announcement? (line ++ v) = (announced? line).map fun name =>
      (name, line.length) := by
  have hfirst : ∀ {u w : Text}, lf ∉ u → (∀ b ∈ w.head?, b = lf) →
      (u ++ w).takeWhile (· != lf) = u := by
    intro u w hu hw
    apply Text.takeWhile_append_of_head
    · intro b hb
      exact bne_iff_ne.mpr fun h => hu (h ▸ hb)
    · intro b hb
      rw [hw b hb]
      rfl
  apply Option.ext
  rintro ⟨name, n⟩
  rw [announcement?_eq_some_iff, Option.map_eq_some_iff]
  constructor
  · rintro ⟨line', rest, heq, h, rfl, hrest⟩
    have hsame : line = line' := by
      rw [← hfirst hline hv, heq,
        hfirst (notMem_of_announces (Or.inl rfl) h) hrest]
    subst hsame
    exact ⟨name, announced?_eq_some_iff.mpr h, rfl⟩
  · rintro ⟨name', h, heq⟩
    obtain ⟨rfl, rfl⟩ := Prod.mk.inj heq
    exact ⟨line, v, rfl, announced?_eq_some_iff.mp h, rfl, hv⟩

/-- Within a line nothing is found, whether the bytes are taken already or not. -/
theorem announcementsFrom_within {w : Text} (hw : lf ∉ w) {k : Nat}
    (hk : k ≤ w.length) (v : Text) :
    announcementsFrom false k (w ++ v) = announcementsFrom false 0 v := by
  induction w generalizing k with
  | nil =>
      obtain rfl : k = 0 := Nat.le_zero.mp hk
      rfl
  | cons b w ih =>
      obtain ⟨hb, hw⟩ := List.ne_and_not_mem_of_not_mem_cons hw
      have hlf : (b == lf) = false := beq_false_of_ne (Ne.symm hb)
      cases k with
      | zero =>
          rw [List.cons_append, announcementsFrom, hlf]
          exact ih hw (Nat.zero_le _)
      | succ k =>
          rw [List.cons_append, announcementsFrom, hlf]
          exact ih hw (Nat.le_of_succ_le_succ hk)

/-- One line is scanned: its announcement is found if it is one, and the scan goes
on at its end. -/
theorem announcementsFrom_line {line v : Text} (hline : lf ∉ line)
    (hv : ∀ b ∈ v.head?, b = lf) :
    announcementsFrom true 0 (line ++ v) =
      (announced? line).toList ++ announcementsFrom false 0 v := by
  have hread := announcement?_append hline hv
  cases line with
  | nil =>
      have hnone : announced? [] = none := rfl
      rw [hnone] at hread ⊢
      cases v with
      | nil => rfl
      | cons b v =>
          rw [List.nil_append, Option.map_none] at hread
          rw [List.nil_append, announcementsFrom, announcementsFrom, if_pos rfl,
            hread]
          rfl
  | cons b w =>
      obtain ⟨hb, hw⟩ := List.ne_and_not_mem_of_not_mem_cons hline
      have hlf : (b == lf) = false := beq_false_of_ne (Ne.symm hb)
      rw [List.cons_append] at hread
      rw [List.cons_append, announcementsFrom, if_pos rfl, hread, hlf]
      cases announced? (b :: w) with
      | none => exact announcementsFrom_within hw (Nat.zero_le _) v
      | some name =>
          exact congrArg (name :: ·) (announcementsFrom_within hw (Nat.le_refl _) v)

/-- The scan finds what the lines announce, each line on its own. -/
theorem announcementsFrom_eq (text : Text) :
    announcementsFrom true 0 text = text.lines.filterMap announced? := by
  have hone : ∀ line, [line].filterMap announced? = (announced? line).toList := by
    intro line
    rw [List.filterMap_cons]
    cases announced? line <;> rfl
  induction hlength : text.length using Nat.strong_induction_on
    generalizing text with
  | _ n ih =>
      subst hlength
      by_cases h : lf ∈ text
      · obtain ⟨line, rest, rfl, hline⟩ := List.eq_append_cons_of_mem h
        have hshorter : rest.length < (line ++ lf :: rest).length := by
          simp only [List.length_append, List.length_cons]
          omega
        have hnext : announcementsFrom false 0 (lf :: rest) =
            announcementsFrom true 0 rest := rfl
        have hlines :
            Text.lines (line ++ lf :: rest) = [line] ++ Text.lines rest := by
          rw [Text.lines, Text.split_append_cons_self, Text.split_of_notMem hline]
          rfl
        rw [announcementsFrom_line hline (by simp), hnext, ih _ hshorter rest rfl,
          hlines, List.filterMap_append, hone]
      · have hscan := announcementsFrom_line (v := []) h (by simp)
        rw [List.append_nil, announcementsFrom, List.append_nil] at hscan
        rw [hscan, Text.lines, Text.split_of_notMem h, hone]

/-- An announcement is a line of the text. -/
theorem announcedAt_iff {text name : Text} {k : Nat} :
    AnnouncedAt text k name ↔ ∃ line, (text.splitOn lf)[k]? = some line ∧
      Announces line name := by
  simp only [← Text.split_eq_splitOn, Text.getElem?_split_iff]
  constructor
  · rintro ⟨u, line, v, htext, hline, hcount, hu, hv⟩
    exact ⟨line, ⟨notMem_of_announces (Or.inl rfl) hline, u, v, htext, hcount, hu,
      hv⟩, hline⟩
  · rintro ⟨line, ⟨-, u, v, htext, hcount, hu, hv⟩, hline⟩
    exact ⟨u, line, v, htext, hline, hcount, hu, hv⟩

/-! ## Modules that are declared -/

theorem declared_eq (text : Text) :
    declared text = (text.lines.filterMap announced?).eraseDups := by
  rw [declared, announcementsFrom_eq]

/-- Only names are announced. -/
theorem isName_of_mem_declared {text m : Text} (h : m ∈ declared text) :
    isName m = true := by
  rw [declared_eq, List.mem_eraseDups, List.mem_filterMap] at h
  obtain ⟨line, -, hline⟩ := h
  obtain ⟨-, -, hname, -⟩ := announced?_eq_some_iff.mp hline
  exact isName_iff.mpr hname

theorem eraseDups_filter (p : Text → Bool) (ms : List Text) :
    (ms.filter p).eraseDups = ms.eraseDups.filter p := by
  induction ms using List.reverseRecOn with
  | nil => rfl
  | append_singleton ms m ih =>
      rw [List.filter_append, List.eraseDups_append, List.eraseDups_append,
        List.filter_append, ih]
      congr 1
      by_cases hp : p m = true
      · by_cases hm : m ∈ ms
        · simp [List.removeAll, hp, hm]
        · simp [List.removeAll, hp, hm, List.eraseDups_cons]
      · by_cases hm : m ∈ ms
        · simp [List.removeAll, hp, hm]
        · simp [List.removeAll, hp, hm, List.eraseDups_cons]

/-- After a line feed only modules that were not declared before it are added. -/
theorem declared_append_lf (text rest : Text) : declared (text ++ lf :: rest) =
    declared text ++ (declared rest).filter fun m =>
      !(declared text).contains m := by
  have hlines : (text ++ lf :: rest).lines = text.lines ++ rest.lines :=
    Text.split_append_cons_self lf text rest
  simp only [declared_eq]
  rw [hlines, List.filterMap_append, List.eraseDups_append, List.removeAll,
    eraseDups_filter]
  congr 1
  apply List.filter_congr
  intro m _
  rw [Bool.not_inj_iff, Bool.eq_iff_iff, List.elem_iff, List.contains_iff_mem,
    List.mem_eraseDups]

/-- **A text declares the modules that its lines announce.**

* Of each line the name is taken if the line has the form of an announcement,
  and nothing else is.
* The modules are the first occurrences of these names, in the order of the
  lines, so none is declared twice.
* An announcement anywhere in the text is one of the lines, and each line of
  this form is an announcement.
* What is declared after a line feed comes after what is declared before it,
  without the modules that are there. -/
theorem declared_linewise (text : Text) :
    (∀ line name : Text, announced? line = some name ↔ Announces line name) ∧
    (declared text).Nodup ∧
    declared text = Pod.firsts ((text.splitOn lf).filterMap announced?) ∧
    (∀ k name, AnnouncedAt text k name ↔ ∃ line,
      (text.splitOn lf)[k]? = some line ∧ Announces line name) ∧
    ∀ rest : Text, declared (text ++ lf :: rest) =
      declared text ++ (declared rest).filter fun m =>
        !(declared text).contains m := by
  refine ⟨fun _ _ => announced?_eq_some_iff, Pod.nodup_eraseDups _, ?_,
    fun _ _ => announcedAt_iff,
    declared_append_lf text⟩
  rw [declared_eq, Text.lines, Text.split_eq_splitOn, Pod.eraseDups_eq_firsts]

example :
    declared
      (utf8 "# B::c package\n# A package \t\n# B::c package\n# D:: package\n# E packages\n #F package") =
      [utf8 "B::c", utf8 "A"] := by
  decide +kernel

end Module

end ToolLint
