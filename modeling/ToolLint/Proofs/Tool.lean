import ToolLint.Tool
import ToolLint.Proofs.Text.Lines

/-!
# Names of tools

A tool is named by the last part of its path (`IsLastPart`), if this part is a
name at all (`IsToolName`). Directories do not matter, whichever slashes they
are written with. A name has no underscore in it, so it can be told again from
the name of the main package, where its hyphens have become underscores
(`ofPackage_packageName`).
-/

namespace ToolLint

namespace Tool

/-! ## The last part of a path -/

/-- The part of the path after its last slash, or all of it if it has none. -/
def IsLastPart (path part : Text) : Prop :=
  ∃ dir, path = dir ++ part ∧ (∀ b ∈ dir.getLast?, isSlash b = true) ∧ ∀ b ∈ part,
    isSlash b = false

theorem isLastPart_iff {path part : Text} :
    IsLastPart path part ↔ Text.afterLast isSlash path = part :=
  Text.afterLast_eq_iff.symm

/-! ## Names -/

/-- A lower-case letter, then also hyphens. -/
def IsToolName (name : Text) : Prop :=
  ∃ b s, name = b :: s ∧ isLower b = true ∧ ∀ c ∈ s, isLower c = true ∨
    c = ascii '-'

theorem isName_iff {name : Text} : isName name = true ↔ IsToolName name := by
  cases name with
  | nil => simp [isName, IsToolName]
  | cons b s => simp [isName, IsToolName]

theorem IsToolName.mem {name : Text} (h : IsToolName name) :
    ∀ b ∈ name, isLower b = true ∨ b = ascii '-' := by
  obtain ⟨b, s, rfl, hb, hs⟩ := h
  exact List.forall_mem_cons.mpr ⟨Or.inl hb, hs⟩

/-- A byte that is neither a lower-case letter nor a hyphen is in no name. -/
theorem IsToolName.notMem {name : Text} (h : IsToolName name) {b : UInt8}
    (hlower : isLower b = false) (hhyphen : b ≠ ascii '-') : b ∉ name := by
  intro hb
  rcases h.mem b hb with hb | hb
  · rw [hlower] at hb
    cases hb
  · exact hhyphen hb

theorem IsToolName.isSlash {name : Text} (h : IsToolName name) :
    ∀ b ∈ name, isSlash b = false := by
  intro b hb
  rw [← Bool.not_eq_true, Tool.isSlash, Bool.or_eq_true, beq_iff_eq, beq_iff_eq]
  rintro (rfl | rfl)
  · exact h.notMem rfl (by decide) hb
  · exact h.notMem rfl (by decide) hb

theorem nameOf_of_isLastPart {path part : Text} (h : IsLastPart path part) :
    nameOf path = if isName part then .ok part else .error (.toolName path) := by
  rw [isLastPart_iff] at h
  rw [nameOf, h]

theorem nameOf_eq_ok_iff {path name : Text} :
    nameOf path = .ok name ↔ IsLastPart path name ∧ IsToolName name := by
  constructor
  · intro h
    have hpart : IsLastPart path (Text.afterLast isSlash path) :=
      isLastPart_iff.mpr rfl
    rw [nameOf_of_isLastPart hpart] at h
    split at h
    · rename_i hname
      obtain rfl := Except.ok.inj h
      exact ⟨hpart, isName_iff.mp hname⟩
    · cases h
  · rintro ⟨hpart, hname⟩
    rw [nameOf_of_isLastPart hpart, if_pos (isName_iff.mpr hname)]

theorem isName_of_nameOf {path name : Text} (h : nameOf path = .ok name) :
    isName name = true :=
  isName_iff.mpr (nameOf_eq_ok_iff.mp h).2

/-! ## Packages -/

theorem hyphen_notMem_packageName (name : Text) :
    ascii '-' ∉ packageName name := by
  intro h
  obtain ⟨b, -, hb⟩ := List.mem_map.mp h
  split at hb
  · exact absurd hb (by decide)
  · rename_i hne
    exact hne hb

/-- The tool with this main package. -/
def ofPackage (package : Text) : Text :=
  package.map fun b => if b = ascii '_' then ascii '-' else b

/-- The name of a tool can be told from its package. -/
theorem ofPackage_packageName {name : Text} (h : IsToolName name) :
    ofPackage (packageName name) = name := by
  have hunderscore : ascii '_' ∉ name := h.notMem rfl (by decide)
  rw [ofPackage, packageName, List.map_map]
  refine (List.map_congr_left fun b hb => ?_).trans (List.map_id name)
  have hb : b ≠ ascii '_' := fun hne => hunderscore (hne ▸ hb)
  by_cases hhyphen : b = ascii '-'
  · simp [hhyphen]
  · simp [hhyphen, hb]

/-- **Names of tools and of their packages are unambiguous.**

* A path has one last part. If this is a name, it is the name of the tool at the
  path, and otherwise there is none.
* The name itself, and the name after any directories, are paths of the same
  tool.
* No package has a hyphen in its name, and tools with the same package have the
  same name. -/
theorem toolNames_unambiguous :
    (∀ path, ∃! part, IsLastPart path part) ∧
    (∀ path part, IsLastPart path part →
      ((∃ name, nameOf path = .ok name) ↔ IsToolName part) ∧
        (IsToolName part → nameOf path = .ok part) ∧
      (¬ IsToolName part → nameOf path = .error (.toolName path))) ∧
    (∀ path name, nameOf path = .ok name → nameOf name = .ok name ∧
      ∀ dir slash, isSlash slash = true → nameOf (dir ++ [slash] ++ name) =
        .ok name) ∧
    (∀ name, ascii '-' ∉ packageName name) ∧
    ∀ path path' name name', nameOf path = .ok name → nameOf path' = .ok name' →
      packageName name = packageName name' → name = name' := by
  refine ⟨?_, ?_, ?_, hyphen_notMem_packageName, ?_⟩
  · intro path
    simp only [isLastPart_iff]
    exact existsUnique_eq'
  · intro path part hpart
    have hok : IsToolName part → nameOf path = .ok part :=
      fun h => nameOf_eq_ok_iff.mpr ⟨hpart, h⟩
    refine ⟨⟨?_, fun h => ⟨part, hok h⟩⟩, hok, ?_⟩
    · rintro ⟨name, h⟩
      obtain ⟨hlast, hname⟩ := nameOf_eq_ok_iff.mp h
      obtain rfl := (isLastPart_iff.mp hlast).symm.trans (isLastPart_iff.mp hpart)
      exact hname
    · intro h
      rw [nameOf_of_isLastPart hpart, if_neg (by rwa [isName_iff])]
  · intro path name h
    obtain ⟨-, hname⟩ := nameOf_eq_ok_iff.mp h
    constructor
    · exact nameOf_eq_ok_iff.mpr ⟨⟨[], rfl, by simp, hname.isSlash⟩, hname⟩
    · intro dir slash hslash
      exact nameOf_eq_ok_iff.mpr ⟨⟨dir ++ [slash], rfl, by simpa using hslash,
        hname.isSlash⟩, hname⟩
  · intro path path' name name' h h' hpackage
    rw [← ofPackage_packageName (nameOf_eq_ok_iff.mp h).2,
      ← ofPackage_packageName (nameOf_eq_ok_iff.mp h').2, hpackage]

/-- Slashes of both kinds, several in a row, and bytes of all kinds before them.
-/
theorem toolNames_unambiguous_slashes :
    nameOf (utf8 "/opt\\pt-kill") = .ok (utf8 "pt-kill") ∧
    nameOf (utf8 "pt-kill") = .ok (utf8 "pt-kill") ∧
      nameOf ([0xFF, lf, ascii '\\', ascii '/'] ++ utf8 "pt-kill") =
        .ok (utf8 "pt-kill") ∧
      nameOf (utf8 "pt-kill/") = .error (.toolName (utf8 "pt-kill/")) := by
  obtain ⟨-, hpart, hname, -, -⟩ := toolNames_unambiguous
  have hread : nameOf (utf8 "/opt\\pt-kill") = .ok (utf8 "pt-kill") := by
    decide +kernel
  obtain ⟨hself, hdir⟩ := hname _ _ hread
  have hempty : IsLastPart (utf8 "pt-kill/") [] := by
    refine ⟨utf8 "pt-kill/", rfl, ?_, List.forall_mem_nil _⟩
    rintro b ⟨rfl⟩
    rfl
  refine ⟨hread, hself, hdir [0xFF, lf, ascii '\\'] (ascii '/') rfl,
    (hpart _ _ hempty).2.2 ?_⟩
  rintro ⟨b, s, hnil, -⟩
  cases hnil

/-- Without the condition on names packages can be the same. -/
example :
    packageName (utf8 "pt-kill") = packageName (utf8 "pt_kill") := by
      decide +kernel

end Tool

end ToolLint
