import ToolLint.Text.Quoted

/-!
# Rules

The conventions that tools are held to, and the exceptions of single tools. A
rule file is what is written down; rules are a rule file that was found valid.
Every look-up asks the tool's own exceptions first.
-/

namespace ToolLint

/-! ## Tables -/

abbrev Table (α : Type) : Type := List (Text × α)

namespace Table

variable {α : Type}

def get? (t : Table α) (key : Text) : Option α := List.lookup key t

def has (t : Table α) (key : Text) : Bool := (t.get? key).isSome

def put (t : Table α) (key : Text) (a : α) : Table α :=
  if t.has key then t.map fun e => if e.1 = key then (key, a) else e else
    t ++ [(key, a)]

end Table

/-! ## Option specifications -/

/-- What an option should look like in a help listing: the type of its value and
its short form. An empty text means that there should be none. -/
structure OptionSpec where
  type : Text
  short : Text
deriving DecidableEq, Repr

namespace OptionSpec

def empty : OptionSpec := ⟨[], []⟩

def knownTypes : List Text :=
  [utf8 "", utf8 "s", utf8 "i", utf8 "h", utf8 "a", utf8 "H", utf8 "A",
    utf8 "m", utf8 "F"]

/-- A specification that a rule file may have: the type is known, and the short
form is at most one byte. -/
def Valid (s : OptionSpec) : Prop := s.type ∈ knownTypes ∧ s.short.length ≤ 1

instance (s : OptionSpec) : Decidable s.Valid :=
  inferInstanceAs (Decidable (_ ∧ _))

end OptionSpec

/-! ## Rule files -/

structure RuleFile where
  /-- The specifications of the options that all tools share. -/
  options : Table OptionSpec
  /-- The specifications of single tools. -/
  optionExceptions : Table (Table OptionSpec)
  /-- The headers of a tool's documentation, in order. -/
  headers : List Text
  headerExceptions : Table (List Text)
  /-- Modules that are never checked. -/
  ignoredModules : List Text
  /-- Modules that are used without being constructed. -/
  nonObjectModules : List Text
  /-- Modules that a tool constructs by a computed name. -/
  dynamicModules : Table (List Text)
  /-- Modules that are used through others, which are listed. -/
  baseClassModules : Table (List Text)
  /-- Options that need not be read. -/
  ignoredOptions : List Text
  /-- Tools that do not connect to a database. -/
  noDsnTools : List Text
deriving DecidableEq, Repr

def RuleFile.empty : RuleFile := ⟨[], [], [], [], [], [], [], [], [], []⟩

inductive SpecFault where
  | unknownType (type : Text)
  | longShort (short : Text)
deriving DecidableEq, Repr

inductive RuleFault where
  | noHeaders
  | option (name : Text) (fault : SpecFault)
  | exception (tool name : Text) (fault : SpecFault)
deriving DecidableEq, Repr

def SpecFault.message : SpecFault → Text
  | .unknownType type => utf8 "unknown type code " ++ type.quoted
  | .longShort short =>
    utf8 "short form " ++ short.quoted ++ utf8 " is longer than one letter"

def RuleFault.message : RuleFault → Text
  | .noHeaders => utf8 "rules define no headers"
  | .option name fault => utf8 "option " ++ name ++ utf8 ": " ++ fault.message
  | .exception tool name fault =>
    tool ++ utf8 " option " ++ name ++ utf8 ": " ++ fault.message

def OptionSpec.fault? (s : OptionSpec) : Option SpecFault :=
  if s.type ∉ knownTypes then some (.unknownType s.type)
  else if 1 < s.short.length then some (.longShort s.short)
  else none

theorem OptionSpec.fault?_eq_none_iff {s : OptionSpec} :
    s.fault? = none ↔ s.Valid := by
  unfold fault? Valid
  split
  · next h => exact ⟨nofun, fun v => absurd v.1 h⟩
  · next h =>
    have known : s.type ∈ knownTypes := Decidable.not_not.1 h
    split
    · next long => exact ⟨nofun, fun v => absurd v.2 (Nat.not_le_of_lt long)⟩
    · next short => exact ⟨fun _ => ⟨known, Nat.le_of_not_lt short⟩, fun _ => rfl⟩

namespace RuleFile

/-- A rule file that tools can be checked against: it has headers, and all its
specifications are valid. -/
def Valid (f : RuleFile) : Prop :=
  f.headers ≠ [] ∧ (∀ e ∈ f.options, e.2.Valid)
    ∧ ∀ t ∈ f.optionExceptions, ∀ e ∈ t.2, e.2.Valid

/-- The first fault of the specifications that all tools share. -/
def optionFault? (f : RuleFile) : Option RuleFault :=
  f.options.findSome? fun e => e.2.fault?.map (.option e.1)

/-- The first fault of the specifications of single tools. -/
def exceptionFault? (f : RuleFile) : Option RuleFault :=
  f.optionExceptions.findSome? fun t => t.2.findSome? fun e =>
    e.2.fault?.map (.exception t.1 e.1)

def fault? (f : RuleFile) : Option RuleFault :=
  if f.headers = [] then some .noHeaders
  else match f.optionFault? with
    | some fault => some fault
    | none => f.exceptionFault?

theorem optionFault?_eq_none_iff {f : RuleFile} :
    f.optionFault? = none ↔ ∀ e ∈ f.options, e.2.Valid := by
  simp [optionFault?, OptionSpec.fault?_eq_none_iff]

theorem exceptionFault?_eq_none_iff {f : RuleFile} :
    f.exceptionFault? = none ↔ ∀ t ∈ f.optionExceptions, ∀ e ∈ t.2,
      e.2.Valid := by
  simp [exceptionFault?, OptionSpec.fault?_eq_none_iff]

theorem fault?_eq_none_iff {f : RuleFile} : f.fault? = none ↔ f.Valid := by
  unfold fault? Valid
  split
  · simp_all
  · next h =>
    rw [← optionFault?_eq_none_iff, ← exceptionFault?_eq_none_iff]
    cases f.optionFault? <;> simp [h]

end RuleFile

/-! ## Rules -/

/-- Rules are a valid rule file. -/
structure Rules where
  file : RuleFile
  valid : file.Valid

/-- How the use of a module is recognised. -/
inductive ModulePolicy where
  /-- It is constructed somewhere. -/
  | constructed
  /-- It is never looked for. -/
  | ignored
  /-- It is constructed under a computed name, so it counts as used. -/
  | dynamic
  /-- It is referred to or imported. -/
  | notObject
  /-- One of its subclasses is used. -/
  | baseClass
deriving DecidableEq, Repr

namespace ModulePolicy

def label : ModulePolicy → Text
  | .constructed => utf8 "instantiated"
  | .ignored => utf8 "ignored"
  | .dynamic => utf8 "dynamic"
  | .notObject => utf8 "not-object"
  | .baseClass => utf8 "base-class"

def ofNat? : Nat → Option ModulePolicy
  | 0 => some .constructed
  | 1 => some .ignored
  | 2 => some .dynamic
  | 3 => some .notObject
  | 4 => some .baseClass
  | _ => none

/-- The label of the policy with a number, which need not have one. -/
def labelOf (n : Int) : Text :=
  match n with
  | .ofNat k => ((ofNat? k).map label).getD (utf8 "unknown")
  | .negSucc _ => utf8 "unknown"

end ModulePolicy

namespace Rules

/-- Accept a rule file, or tell what is wrong with it. -/
def ofFile (f : RuleFile) : Except RuleFault Rules :=
  match h : f.fault? with
  | some fault => .error fault
  | none => .ok ⟨f, RuleFile.fault?_eq_none_iff.1 h⟩

/-- What an option of a tool should look like, if there is a rule for it. -/
def option? (r : Rules) (tool option : Text) : Option OptionSpec :=
  match (r.file.optionExceptions.get? tool).bind (Table.get? · option) with
  | some spec => some spec
  | none => r.file.options.get? option

def headers (r : Rules) (tool : Text) : List Text :=
  (r.file.headerExceptions.get? tool).getD r.file.headers

/-- How the use of a module by a tool is recognised. -/
def policy (r : Rules) (tool module : Text) : ModulePolicy :=
  if module ∈ r.file.ignoredModules then .ignored
  else if module ∈ (r.file.dynamicModules.get? tool).getD [] then .dynamic
  else if module ∈ r.file.nonObjectModules then .notObject
  else if r.file.baseClassModules.has module then .baseClass
  else .constructed

/-- The modules through which a module is used. -/
def subclasses (r : Rules) (module : Text) : List Text :=
  (r.file.baseClassModules.get? module).getD []

def ignoresOption (r : Rules) (option : Text) : Bool :=
  r.file.ignoredOptions.contains option

/-- Must the tool parse the options of a database connection? -/
def requiresDsn (r : Rules) (tool : Text) : Bool :=
  !r.file.noDsnTools.contains tool

end Rules

end ToolLint
