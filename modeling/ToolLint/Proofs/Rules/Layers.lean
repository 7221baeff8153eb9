import ToolLint.Proofs.Rules.Encoding

/-!
# Rules in two layers

A rule file lists the options that all tools share, and the exceptions of single
tools. It is accepted exactly if it has headers and all its specifications are
valid. Its tables are maps that are written down in some order, which matters
neither for this nor for look-ups: an option of a tool has the exception of the
tool if there is one, and else what all tools share (`option?_of_excepts`,
`option?_of_not_excepts`). So an exception more changes the answer in one place
(`option?_addException`).
-/

namespace ToolLint

/-! ## Tables -/

namespace Table

variable {α : Type} {t : Table α} {key : Text} {a : α}

theorem mem_of_get? (h : t.get? key = some a) : (key, a) ∈ t := by
  obtain ⟨before, after, rfl, -⟩ := List.lookup_eq_some_iff.mp h
  exact List.mem_append_right before List.mem_cons_self

theorem get?_eq_none_iff : t.get? key = none ↔ ∀ a, (key, a) ∉ t := by
  unfold get?
  rw [List.lookup_eq_none_iff]
  constructor
  · intro h a hmem
    simpa using h _ hmem
  · rintro h ⟨name, a⟩ hmem
    rw [bne_iff_ne]
    rintro rfl
    exact h a hmem

def Distinct (t : Table α) : Prop := (t.map Prod.fst).Nodup

theorem distinct_nil : Distinct ([] : Table α) := List.nodup_nil

/-- In a table without repetitions an entry is found wherever it stands. -/
theorem get?_eq_some_iff (ht : t.Distinct) :
    t.get? key = some a ↔ (key, a) ∈ t := by
  refine ⟨mem_of_get?, fun hmem => ?_⟩
  obtain ⟨before, after, rfl⟩ := List.append_of_mem hmem
  unfold Distinct at ht
  rw [List.map_append, List.map_cons, List.nodup_append] at ht
  refine List.lookup_eq_some_iff.mpr ⟨before, after, rfl, fun e he => ?_⟩
  rw [bne_iff_ne]
  exact fun heq =>
    ht.2.2 e.1 (List.mem_map_of_mem he) key List.mem_cons_self heq.symm

theorem lookup_replace (t : Table α) (key : Text) (a : α) (name : Text) :
    List.lookup name (t.map fun e => if e.1 = key then (key, a) else e) =
      if name = key then (List.lookup name t).map fun _ => a else
        List.lookup name t := by
  induction t with
  | nil => simp
  | cons e t ih =>
      rw [List.map_cons, List.lookup_cons, List.lookup_cons, ih]
      by_cases hname : name = key
      · subst hname
        by_cases he : e.1 = name
        · simp [he]
        · have hne : (name == e.1) = false :=
            beq_eq_false_iff_ne.mpr fun heq => he heq.symm
          simp [he, hne]
      · by_cases he : e.1 = key
        · have hne : (name == key) = false := beq_eq_false_iff_ne.mpr hname
          simp [he, hname, hne]
        · simp [he, hname]

/-- A value is found under its name, and nothing else changes. -/
theorem get?_put (t : Table α) (key : Text) (a : α) (name : Text) :
    (t.put key a).get? name = if name = key then some a else t.get? name := by
  unfold put
  by_cases hhas : t.has key = true
  · obtain ⟨b, hb⟩ := Option.isSome_iff_exists.mp hhas
    rw [if_pos hhas, get?, lookup_replace]
    by_cases hname : name = key
    · rw [if_pos hname, if_pos hname, hname,
        show List.lookup key t = some b from hb, Option.map_some]
    · rw [if_neg hname, if_neg hname]
      rfl
  · have hnone : List.lookup key t = none := Option.not_isSome_iff_eq_none.mp hhas
    rw [if_neg hhas, get?, List.lookup_append, List.lookup_cons, List.lookup_nil]
    by_cases hname : name = key
    · subst hname
      simp [hnone]
    · simp [hname, beq_eq_false_iff_ne.mpr hname, get?]

theorem Distinct.put (ht : t.Distinct) (key : Text) (a : α) :
    (t.put key a).Distinct := by
  unfold Table.put Distinct
  by_cases hhas : t.has key = true
  · have hkeys : (t.map fun e => if e.1 = key then (key, a) else e).map Prod.fst =
        t.map Prod.fst := by
      rw [List.map_map]
      apply List.map_congr_left
      intro e _
      by_cases he : e.1 = key
      · simp [he]
      · simp [he]
    rw [if_pos hhas, hkeys]
    exact ht
  · have hnone : t.get? key = none := Option.not_isSome_iff_eq_none.mp hhas
    have hfresh : key ∉ t.map Prod.fst := by simpa using get?_eq_none_iff.mp hnone
    rw [if_neg hhas, List.map_append, List.map_singleton, List.nodup_append]
    refine ⟨ht, List.nodup_cons.mpr ⟨List.not_mem_nil, List.nodup_nil⟩,
      fun name hname other hother => ?_⟩
    obtain rfl := List.mem_singleton.mp hother
    exact fun heq => hfresh (heq ▸ hname)

end Table

/-! ## Rule files -/

namespace RuleFile

variable {f g : RuleFile} {tool option : Text} {spec : OptionSpec}

/-- The rule file makes an exception for an option of a tool. -/
def Excepts (f : RuleFile) (tool option : Text) (spec : OptionSpec) : Prop :=
  ∃ specs, (tool, specs) ∈ f.optionExceptions ∧ (option, spec) ∈ specs

def SpecsDistinct (f : RuleFile) : Prop :=
  f.options.Distinct ∧ f.optionExceptions.Distinct ∧ ∀ e ∈ f.optionExceptions,
    e.2.Distinct

/-- The two rule files have the same headers and the same specifications, in
whatever order. -/
structure SameSpecs (f g : RuleFile) : Prop where
  headers : f.headers = g.headers
  options : ∀ option spec, (option, spec) ∈ f.options ↔ (option, spec) ∈ g.options
  exceptions : ∀ tool option spec, f.Excepts tool option spec ↔
    g.Excepts tool option spec

theorem valid_iff :
    f.Valid ↔ f.headers ≠ [] ∧
      (∀ option spec, (option, spec) ∈ f.options → spec.Valid) ∧
    ∀ tool option spec, f.Excepts tool option spec → spec.Valid := by
  unfold Valid Excepts
  constructor
  · rintro ⟨hheaders, hoptions, hexceptions⟩
    refine ⟨hheaders, fun option spec hmem => hoptions _ hmem, ?_⟩
    rintro tool option spec ⟨specs, hspecs, hmem⟩
    exact hexceptions _ hspecs _ hmem
  · rintro ⟨hheaders, hoptions, hexceptions⟩
    exact ⟨hheaders, fun e he => hoptions e.1 e.2 he,
      fun t ht e he => hexceptions t.1 e.1 e.2 ⟨t.2, ht, he⟩⟩

theorem SameSpecs.valid_iff (h : f.SameSpecs g) : f.Valid ↔ g.Valid := by
  rw [RuleFile.valid_iff, RuleFile.valid_iff, h.headers]
  simp only [h.options, h.exceptions]

/-- The specification that is an exception of the tool. -/
theorem excepts_iff (hf : f.SpecsDistinct) : f.Excepts tool option spec ↔
    (f.optionExceptions.get? tool).bind (Table.get? · option) = some spec := by
  obtain ⟨-, htools, hspecs⟩ := hf
  rw [Option.bind_eq_some_iff]
  constructor
  · rintro ⟨specs, htool, hmem⟩
    exact ⟨specs, (Table.get?_eq_some_iff htools).mpr htool,
      (Table.get?_eq_some_iff (hspecs _ htool)).mpr hmem⟩
  · rintro ⟨specs, htool, hmem⟩
    exact ⟨specs, Table.mem_of_get? htool, Table.mem_of_get? hmem⟩

/-! ### One exception more -/

/-- The rule file with one exception more. One that is there already is
replaced. -/
def addException (f : RuleFile) (tool option : Text) (spec : OptionSpec) :
    RuleFile :=
  { f with
    optionExceptions := f.optionExceptions.put tool
      (((f.optionExceptions.get? tool).getD []).put option spec) }

theorem SpecsDistinct.addException (hf : f.SpecsDistinct) (tool option : Text)
    (spec : OptionSpec) : (f.addException tool option spec).SpecsDistinct := by
  obtain ⟨hoptions, htools, hspecs⟩ := hf
  have hold : ((f.optionExceptions.get? tool).getD []).Distinct := by
    cases hget : f.optionExceptions.get? tool with
    | none => exact Table.distinct_nil
    | some specs => exact hspecs _ (Table.mem_of_get? hget)
  refine ⟨hoptions, htools.put _ _, fun e he => ?_⟩
  rcases Rules.mem_put he with he | he
  · exact hspecs e he
  · rw [he]
    exact hold.put option spec

theorem get?_addException (f : RuleFile) (tool option : Text)
    (spec : OptionSpec) (tool' option' : Text) :
    ((f.addException tool option spec).optionExceptions.get? tool').bind
      (Table.get? · option') =
      if tool' = tool ∧ option' = option then some spec
      else (f.optionExceptions.get? tool').bind (Table.get? · option') := by
  unfold addException
  rw [Table.get?_put]
  by_cases htool : tool' = tool
  · subst htool
    rw [if_pos rfl, Option.bind_some, Table.get?_put]
    by_cases hoption : option' = option
    · simp [hoption]
    · cases f.optionExceptions.get? tool' with
      | none => simp [hoption, Table.get?]
      | some specs => simp [hoption]
  · simp [htool]

theorem excepts_addException_iff (hf : f.SpecsDistinct) {tool' option' : Text}
    {spec' : OptionSpec} :
    (f.addException tool option spec).Excepts tool' option' spec' ↔
      if tool' = tool ∧ option' = option then spec' = spec else
        f.Excepts tool' option' spec' := by
  rw [excepts_iff (hf.addException tool option spec), get?_addException,
    excepts_iff hf]
  split
  · rw [Option.some.injEq, eq_comm]
  · exact Iff.rfl

/-- An exception more is accepted if it is valid itself. -/
theorem valid_addException_iff (hf : f.SpecsDistinct) (hvalid : f.Valid) :
    (f.addException tool option spec).Valid ↔ spec.Valid := by
  obtain ⟨hheaders, hoptions, hexceptions⟩ := RuleFile.valid_iff.mp hvalid
  rw [RuleFile.valid_iff]
  simp only [excepts_addException_iff hf]
  constructor
  · intro h
    exact h.2.2 tool option spec (by rw [if_pos ⟨rfl, rfl⟩])
  · intro hspec
    refine ⟨hheaders, hoptions, fun tool' option' spec' h => ?_⟩
    split at h
    · exact h ▸ hspec
    · exact hexceptions _ _ _ h

end RuleFile

/-! ## Look-ups -/

namespace Rules

variable {f g : RuleFile} {r r' : Rules} {tool option : Text} {spec : OptionSpec}

theorem exists_ofFile_iff : (∃ r, ofFile f = .ok r) ↔ f.Valid := by
  rw [← RuleFile.fault?_eq_none_iff]
  unfold ofFile
  constructor
  · rintro ⟨r, h⟩
    split at h
    · cases h
    · assumption
  · intro h
    split
    · rename_i fault hfault
      rw [h] at hfault
      cases hfault
    · exact ⟨_, rfl⟩

theorem file_of_ofFile (h : ofFile f = .ok r) : r.file = f := by
  unfold ofFile at h
  split at h
  · cases h
  · cases h
    rfl

theorem option?_of_excepts (hf : r.file.SpecsDistinct)
    (h : r.file.Excepts tool option spec) :
    r.option? tool option = some spec := by
  unfold option?
  rw [(RuleFile.excepts_iff hf).mp h]

theorem option?_of_not_excepts (hf : r.file.SpecsDistinct)
    (h : ∀ spec, ¬ r.file.Excepts tool option spec) :
    r.option? tool option = r.file.options.get? option := by
  have hnone : (r.file.optionExceptions.get? tool).bind (Table.get? · option) =
      none := by
    rw [Option.eq_none_iff_forall_not_mem]
    exact fun spec hspec => h spec ((RuleFile.excepts_iff hf).mpr hspec)
  unfold option?
  rw [hnone]

/-- An option has a valid specification, whether it is that of all tools or an
exception. -/
theorem valid_of_option? (h : r.option? tool option = some spec) :
    spec.Valid := by
  unfold option? at h
  split at h
  · rename_i exception hexception
    obtain rfl := Option.some.inj h
    obtain ⟨table, htable, hget⟩ := Option.bind_eq_some_iff.mp hexception
    exact r.valid.2.2 _ (Table.mem_of_get? htable) _ (Table.mem_of_get? hget)
  · exact r.valid.2.1 _ (Table.mem_of_get? h)

theorem option?_addException
    (h : r'.file = r.file.addException tool option spec) (tool' option' : Text) :
    r'.option? tool' option' =
      if tool' = tool ∧ option' = option then some spec else
        r.option? tool' option' := by
  have hoptions : r'.file.options = r.file.options := by
    rw [h]
    rfl
  unfold option?
  rw [hoptions, h, RuleFile.get?_addException]
  by_cases heq : tool' = tool ∧ option' = option
  · rw [if_pos heq, if_pos heq]
  · rw [if_neg heq, if_neg heq]

/-- The order of the tables does not matter. -/
theorem option?_of_sameSpecs (hr : r.file.SpecsDistinct)
    (hr' : r'.file.SpecsDistinct) (h : r.file.SameSpecs r'.file)
    (tool option : Text) : r'.option? tool option = r.option? tool option := by
  by_cases hexcepts : ∃ spec, r.file.Excepts tool option spec
  · obtain ⟨spec, hspec⟩ := hexcepts
    rw [option?_of_excepts hr hspec,
      option?_of_excepts hr' ((h.exceptions _ _ _).mp hspec)]
  · have hnot : ∀ spec, ¬ r.file.Excepts tool option spec :=
      not_exists.mp hexcepts
    have hnot' : ∀ spec, ¬ r'.file.Excepts tool option spec :=
      fun spec hspec => hnot spec ((h.exceptions _ _ _).mpr hspec)
    rw [option?_of_not_excepts hr hnot, option?_of_not_excepts hr' hnot']
    apply Option.ext
    intro spec
    rw [Table.get?_eq_some_iff hr'.1, Table.get?_eq_some_iff hr.1, h.options]

/-! ## Documents -/

open Yaml (Node)

theorem table_distinct {α : Type} {wanted : Text} {zero : α}
    {value : Node → Decoded α} {n : Node} {t : Table α}
    (h : (table wanted zero value n).value = some t) : t.Distinct :=
  table_induction Table.distinct_nil (fun _ name ht => ht.put name zero)
    (fun _ name _ a ht _ _ => ht.put name a) h

theorem specsDistinct_empty : RuleFile.empty.SpecsDistinct :=
  ⟨Table.distinct_nil, Table.distinct_nil, by simp [RuleFile.empty]⟩

theorem specsDistinct_ruleFile {n : Node} (h : (ruleFile n).value = some f) :
    f.SpecsDistinct := by
  refine record_keeps specsDistinct_empty ?_ h
  intro name v f hv hf
  repeat' apply kept_ite
  -- Every field but two leaves the specifications as they are.
  all_goals try exact kept_set hf fun _ _ => hf
  · exact kept_set hf fun t ht => ⟨table_distinct ht, hf.2⟩
  · refine kept_set hf fun t ht => ⟨hf.1, table_distinct ht, ?_⟩
    exact table_values Table.distinct_nil (fun _ _ _ _ h => table_distinct h) ht
  · exact fun _ _ hnone => by cases hnone

/-- What is written in a document has no name twice in a table. -/
theorem specsDistinct_of_decode {source : Text} (h : decode source = .ok f) :
    f.SpecsDistinct :=
  of_decode specsDistinct_empty
    (fun _ _ _ hvalue => specsDistinct_ruleFile hvalue) h

theorem parse_of_decode {source : Text} (h : decode source = .ok f) :
    parse source = .ok r ↔ ofFile f = .ok r := by
  simp only [parse, h]
  cases ofFile f with
  | error fault => simp
  | ok r => simp

/-- **Rules are accepted exactly if they are valid, and every look-up has a
valid answer in two layers.** Let no name come twice in a table of
specifications, as it is with every document (`specsDistinct_of_decode`).

* A document with this rule file gives rules if and only if the rule file does,
  and these are the same.
* The rule file is accepted if and only if it has headers, and every
  specification that all tools share and every exception is valid. The order of
  the tables does not matter.
* An exception of the tool is the answer for its option, also one that is empty.
  Without one the answer is what all tools share, and without that there is
  none. Every answer is valid, and the order of the tables does not matter.
* One exception more is accepted if and only if it is valid. It changes the
  answer for its tool and option alone. -/
theorem layers_exact (f : RuleFile) (hf : f.SpecsDistinct) :
    (∀ source, decode source = .ok f → ∀ r, parse source = .ok r ↔
      ofFile f = .ok r) ∧
    ((∃ r, ofFile f = .ok r) ↔ f.headers ≠ [] ∧
      (∀ option spec, (option, spec) ∈ f.options → spec.Valid) ∧
      ∀ tool option spec, f.Excepts tool option spec → spec.Valid) ∧
    (∀ g, f.SameSpecs g → ((∃ r, ofFile g = .ok r) ↔ ∃ r, ofFile f = .ok r)) ∧
    ∀ r, ofFile f = .ok r →
      (∀ tool option,
        (∀ spec, f.Excepts tool option spec → r.option? tool option = some spec) ∧
        ((∀ spec, ¬ f.Excepts tool option spec) →
          (∀ spec, (option, spec) ∈ f.options →
            r.option? tool option = some spec) ∧
          ((∀ spec, (option, spec) ∉ f.options) →
            r.option? tool option = none))) ∧
      (∀ tool option spec, r.option? tool option = some spec → spec.Valid) ∧
      (∀ g, f.SameSpecs g → g.SpecsDistinct → ∀ r', ofFile g = .ok r' →
        r'.option? = r.option?) ∧
      ∀ tool option spec,
        ((∃ r', ofFile (f.addException tool option spec) = .ok r') ↔ spec.Valid) ∧
        ∀ r', ofFile (f.addException tool option spec) = .ok r' → ∀ tool' option',
          r'.option? tool' option' =
          if tool' = tool ∧ option' = option then some spec else
            r.option? tool' option' := by
  refine ⟨fun source hdecode r => parse_of_decode hdecode, ?_, ?_, ?_⟩
  · rw [exists_ofFile_iff, RuleFile.valid_iff]
  · intro g hsame
    rw [exists_ofFile_iff, exists_ofFile_iff, hsame.valid_iff]
  intro r hr
  have hvalid : f.Valid := exists_ofFile_iff.mp ⟨r, hr⟩
  obtain rfl : r.file = f := file_of_ofFile hr
  refine ⟨fun tool option => ⟨fun spec => option?_of_excepts hf, fun hnot => ?_⟩,
    fun _ _ _ => valid_of_option?, ?_, ?_⟩
  · rw [option?_of_not_excepts hf hnot]
    exact ⟨fun spec => (Table.get?_eq_some_iff hf.1).mpr,
      Table.get?_eq_none_iff.mpr⟩
  · intro g hsame hg r' hr'
    obtain rfl : r'.file = g := file_of_ofFile hr'
    funext tool option
    exact option?_of_sameSpecs hf hg hsame tool option
  · intro tool option spec
    rw [exists_ofFile_iff, RuleFile.valid_addException_iff hf hvalid]
    exact ⟨Iff.rfl, fun r' hr' => option?_addException (file_of_ofFile hr')⟩

/-! An exception that is empty, one for another tool, and one that is added. -/

def layeredSource : Text :=
  utf8 "headers: [NAME]\noptions:\n  host: {type: s, short: h}\n  port: {type: i}\noption_exceptions:\n  pt-x: {host: {}}\n"

def layeredFile : RuleFile := { RuleFile.empty with
  headers := [utf8 "NAME"]
  options := [(utf8 "host", ⟨utf8 "s", utf8 "h"⟩), (utf8 "port", ⟨utf8 "i", []⟩)]
  optionExceptions := [(utf8 "pt-x", [(utf8 "host", .empty)])] }

theorem layers_exact_empty :
    decode layeredSource = .ok layeredFile ∧ layeredFile.SpecsDistinct ∧ ∃ r r',
      parse layeredSource = .ok r ∧
      r.option? (utf8 "pt-x") (utf8 "host") = some .empty ∧
      r.option? (utf8 "pt-y") (utf8 "host") = some ⟨utf8 "s", utf8 "h"⟩ ∧
      r.option? (utf8 "pt-y") (utf8 "help") = none ∧
      ofFile (layeredFile.addException (utf8 "pt-x") (utf8 "port")
        ⟨utf8 "i", utf8 "P"⟩) = .ok r' ∧
      r'.option? (utf8 "pt-x") (utf8 "port") = some ⟨utf8 "i", utf8 "P"⟩ ∧
      r'.option? (utf8 "pt-x") (utf8 "host") = some .empty ∧
      r'.option? (utf8 "pt-y") (utf8 "port") =
        r.option? (utf8 "pt-y") (utf8 "port") := by
  have hdecode : decode layeredSource = .ok layeredFile := by decide +kernel
  have hdistinct : layeredFile.SpecsDistinct := specsDistinct_of_decode hdecode
  obtain ⟨hparse, -, -, hlookup⟩ := layers_exact layeredFile hdistinct
  obtain ⟨r, hr⟩ :=
    exists_ofFile_iff.mpr
      (RuleFile.fault?_eq_none_iff.mp (show layeredFile.fault? = none by decide))
  obtain ⟨hlayers, -, -, hadd⟩ := hlookup r hr
  obtain ⟨hvalid, hchange⟩ :=
    hadd (utf8 "pt-x") (utf8 "port") ⟨utf8 "i", utf8 "P"⟩
  obtain ⟨r', hr'⟩ := hvalid.mpr (by decide)
  have hempty : r.option? (utf8 "pt-x") (utf8 "host") = some .empty :=
    (hlayers _ _).1 _ ⟨_, List.mem_cons_self, List.mem_cons_self⟩
  have hnone : ∀ option spec,
      ¬ layeredFile.Excepts (utf8 "pt-y") option spec := by
    rintro option spec ⟨specs, hmem, -⟩
    exact absurd (congrArg Prod.fst (List.mem_singleton.mp hmem))
      (show utf8 "pt-y" ≠ utf8 "pt-x" by decide)
  refine ⟨hdecode, hdistinct, r, r', (hparse _ hdecode r).mpr hr, hempty, ?_, ?_,
    hr', ?_, ?_, ?_⟩
  · exact ((hlayers _ _).2 (hnone _)).1 _ List.mem_cons_self
  · refine ((hlayers _ _).2 (hnone _)).2 fun spec hmem => ?_
    have hmem : utf8 "help" ∈ layeredFile.options.map Prod.fst :=
      List.mem_map_of_mem hmem
    revert hmem
    decide
  · rw [hchange r' hr', if_pos ⟨rfl, rfl⟩]
  · rw [hchange r' hr', if_neg (by decide), hempty]
  · rw [hchange r' hr', if_neg (by decide)]

end Rules

end ToolLint
