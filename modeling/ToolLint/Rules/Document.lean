import ToolLint.Rules.Basic
import ToolLint.Text.Decimal
import ToolLint.Yaml.Node
import ToolLint.Yaml.Tag

/-!
# Rule files as YAML documents

How a document is taken as a rule file. Every scalar counts as text. What has the
wrong shape is left out and told as a problem; a document with problems is
refused. What is not written keeps its empty value, and names that the rules do
not know are passed over. A mapping can take over the pairs of others.
-/

namespace ToolLint

namespace Rules

open Yaml (Node Tag)

/-- Something in a document that is no part of a rule file. -/
inductive Problem where
  /-- A scalar, sequence or mapping in the place of something else. -/
  | mismatch (line : Nat) (found wanted : Text)
  /-- A key that comes twice in a mapping. -/
  | duplicate (line : Nat) (key : Text) (first : Nat)
  /-- A field that two keys set. -/
  | resetField (line : Nat) (field wanted : Text)
  /-- A scalar that does not fit its tag, or no mapping where one is merged. -/
  | unreadable
deriving DecidableEq, Repr

def Problem.message : Problem → Text
  | .mismatch line found wanted =>
    utf8 "line " ++ Decimal.ofNat line ++ utf8 ": cannot unmarshal " ++ found
      ++ utf8 " into " ++ wanted
  | .duplicate line key first =>
    utf8 "line " ++ Decimal.ofNat line ++ utf8 ": mapping key " ++ key.quoted
      ++ utf8 " already defined at line " ++ Decimal.ofNat first
  | .resetField line field wanted =>
    utf8 "line " ++ Decimal.ofNat line ++ utf8 ": field " ++ field
      ++ utf8 " already set in type " ++ wanted
  | .unreadable => utf8 "malformed document"

/-- What was made of a node, if anything, and the problems on the way. -/
structure Decoded (α : Type) where
  value : Option α
  problems : List Problem

namespace Decoded

variable {α β : Type}

def of (a : α) : Decoded α := ⟨some a, []⟩

def nothing : Decoded α := ⟨none, []⟩

def problem (p : Problem) : Decoded α := ⟨none, [p]⟩

end Decoded

/-! ## Nodes -/

def lineOf : Node → Nat
  | .scalar line _ _ => line
  | .sequence line _ _ => line
  | .mapping line _ _ => line
  | .alias line _ _ => line

/-- The node that aliases lead to. -/
def resolve : Node → Node
  | .alias _ _ n => resolve n
  | n => n

def isNull (n : Node) : Bool :=
  match resolve n with
  | .scalar _ tag _ => tag == .null
  | .sequence _ tag _ => tag == .null
  | .mapping _ tag _ => tag == .null
  | .alias _ _ _ => false

/-- Two keys with the same outline are the same key: the kind of node, and its
text or name. -/
def outline : Node → Nat × Text
  | .scalar _ _ text => (0, text)
  | .sequence _ _ _ => (1, [])
  | .mapping _ _ _ => (2, [])
  | .alias _ name _ => (3, name)

/-- The keys of a mapping that come again. -/
def duplicates : List (Node × Node) → List Problem
  | [] => []
  | (k, _) :: rest =>
    (rest.filterMap fun (d, _) =>
      if outline d = outline k then
        some (.duplicate (lineOf d) (outline d).2 (lineOf k))
      else none) ++ duplicates rest

/-- A scalar as a problem shows it: long ones are cut. -/
def shown (text : Text) : Text :=
  if 10 < text.length then utf8 " `" ++ text.take 7 ++ utf8 "...`"
  else utf8 " `" ++ text ++ utf8 "`"

/-- A node as a problem names it: its tag, then its text unless the tag is that of
a collection. -/
def found (tag : Tag) (text : Text) : Text :=
  tag.label ++ if tag = .seq ∨ tag = .map then text else shown text

/-- What comes of a node that should be something else: a scalar may be `null`,
all else is a problem. A mapping with a key that comes twice has only that
problem. -/
def wrong {α : Type} (null : Decoded α) (wanted : Text) : Node → Decoded α
  | .scalar line tag text =>
    match tag.value? text with
    | none => .problem .unreadable
    | some none => null
    | some (some _) => .problem (.mismatch line (found tag text) wanted)
  | .sequence line tag _ => .problem (.mismatch line (found tag []) wanted)
  | .mapping line tag pairs =>
    let ds := duplicates pairs
    if ds.isEmpty then .problem (.mismatch line (found tag []) wanted)
    else ⟨none, ds⟩
  | .alias _ _ _ => .nothing

/-! ## Texts -/

/-- A text. Nothing written is nothing. -/
def text (n : Node) : Decoded Text :=
  match resolve n with
  | .scalar _ tag t =>
    match tag.value? t with
    | none => .problem .unreadable
    | some none => .nothing
    | some (some t) => .of t
  | m => wrong .nothing (utf8 "string") m

/-- A list of texts. Items that are nothing are left out. -/
def texts (n : Node) : Decoded (List Text) :=
  match resolve n with
  | .sequence _ _ items =>
    let ds := items.map text
    ⟨some (ds.filterMap Decoded.value), ds.flatMap Decoded.problems⟩
  | m => wrong (.of []) (utf8 "[]string") m

/-! ## Merged mappings -/

def isMergeKey : Node → Bool
  | .scalar _ tag text => tag == .merge && text == utf8 "<<"
  | _ => false

abbrev Layer : Type := List (Node × Node)

mutual

/-- The mappings that a mapping is made of: itself, then those merged into it. One
with a key that comes twice takes over nothing. -/
def layers : Node → Option (List Layer)
  | .mapping _ _ pairs =>
    if (duplicates pairs).isEmpty then (mergedLayers pairs).map (pairs :: ·)
    else some [pairs]
  | .alias _ _ target => layers target
  | .scalar _ _ _ => none
  | .sequence _ _ _ => none

/-- The mappings that are merged into one with these pairs. -/
def mergedLayers : Layer → Option (List Layer)
  | [] => some []
  | (k, .sequence _ _ items) :: rest =>
    if isMergeKey k then itemLayers items else mergedLayers rest
  | (k, v) :: rest => if isMergeKey k then layers v else mergedLayers rest

def itemLayers : List Node → Option (List Layer)
  | [] => some []
  | n :: rest =>
    match layers n, itemLayers rest with
    | some ls, some more => some (ls ++ more)
    | _, _ => none

end

/-- What a mapping says: a value under a name, or problems with a key. -/
inductive Entry where
  | pair (line : Nat) (name : Text) (value : Node) (merged : Bool)
  | faulty (problems : List Problem)

namespace Entry

def ofPair (merged : Bool) (k v : Node) : Entry :=
  match (text k).value with
  | some name => .pair (lineOf k) name v merged
  | none => .faulty (text k).problems

def ofLayer (merged : Bool) (pairs : Layer) : List Entry :=
  if (duplicates pairs).isEmpty then
    (pairs.filter fun e => !isMergeKey e.1).map fun e => ofPair merged e.1 e.2
  else [.faulty (duplicates pairs)]

/-- The entries whose names are not among those seen before. -/
def unseen : List Text → List Entry → List Entry
  | _, [] => []
  | seen, .faulty ps :: rest => .faulty ps :: unseen seen rest
  | seen, .pair line name v merged :: rest =>
    if seen.contains name then unseen seen rest
    else .pair line name v merged :: unseen (name :: seen) rest

end Entry

/-- The names that merged mappings cannot set. A key that looks like something
else than text is not among them. -/
def covered (pairs : Layer) : List Text :=
  pairs.filterMap fun (k, _) =>
    match resolve k with
    | .scalar _ tag t => if tag.isText then (tag.value? t).join else none
    | _ => none

/-- The entries of a mapping, its own before those merged into it. -/
def entries (n : Node) : List Entry :=
  match layers n with
  | none => [.faulty [.unreadable]]
  | some [] => []
  | some (own :: merged) =>
    Entry.ofLayer false own
      ++ Entry.unseen (covered own) (merged.flatMap (Entry.ofLayer true))

/-! ## Tables and records -/

/-- Put an entry into a table, after the problems so far. A value that is nothing
counts as `zero`, unless it is merged and there is a value already. -/
def tableStep {α : Type} (zero : α) (value : Node → Decoded α) :
    Table α × List Problem → Entry → Table α × List Problem
  | (t, ps), .faulty qs => (t, ps ++ qs)
  | (t, ps), .pair _ name v merged =>
    let t := match (value v).value with
      | some a => t.put name a
      | none =>
        if isNull v && (!merged || (t.get? name).isNone) then t.put name zero else
          t
    (t, ps ++ (value v).problems)

def table {α : Type} (wanted : Text) (zero : α) (value : Node → Decoded α)
    (n : Node) : Decoded (Table α) :=
  match resolve n with
  | .mapping line tag pairs =>
    let (t, ps) := (entries (.mapping line tag pairs)).foldl
      (tableStep zero value) ([], [])
    ⟨some t, ps⟩
  | m => wrong (.of []) wanted m

/-- Set the field of an entry, after the fields and the problems so far. -/
def recordStep {α : Type} (wanted : Text)
    (field : (name : Text) → Node → α → Option (α × List Problem)) :
    α × List Text × List Problem → Entry → α × List Text × List Problem
  | (a, done, ps), .faulty qs => (a, done, ps ++ qs)
  | (a, done, ps), .pair line name v _ =>
    match field name v a with
    | none => (a, done, ps)
    | some (b, qs) =>
      if done.contains name then (a, done, ps ++ [.resetField line name wanted])
      else (b, name :: done, ps ++ qs)

/-- A record: each known key sets a field of what is there so far. -/
def record {α : Type} (wanted : Text) (start : α)
    (field : (name : Text) → Node → α → Option (α × List Problem)) (n : Node) :
    Decoded α :=
  match resolve n with
  | .mapping line tag pairs =>
    let (a, _, ps) := (entries (.mapping line tag pairs)).foldl
      (recordStep wanted field) (start, [], [])
    ⟨some a, ps⟩
  | m => wrong .nothing wanted m

def set {α β : Type} (a : α) (d : Decoded β) (f : α → β → α) :
    Option (α × List Problem) :=
  some ((d.value.map (f a)).getD a, d.problems)

def spec (n : Node) : Decoded OptionSpec :=
  record (utf8 "rules.OptionSpec") .empty (fun name v s =>
    if name = utf8 "type" then set s (text v) fun s t => { s with type := t }
    else if name = utf8 "short" then set s (text v) fun s t =>
      { s with short := t }
    else none) n

def specs (n : Node) : Decoded (Table OptionSpec) :=
  table (utf8 "map[string]rules.OptionSpec") .empty spec n

def lists (n : Node) : Decoded (Table (List Text)) :=
  table (utf8 "map[string][]string") [] texts n

def ruleFile (n : Node) : Decoded RuleFile :=
  record (utf8 "rules.ruleFile") .empty (fun name v f =>
    if name = utf8 "options" then set f (specs v) fun f t =>
      { f with options := t }
    else if name = utf8 "option_exceptions" then
      set f (table (utf8 "map[string]map[string]rules.OptionSpec") [] specs v)
        fun f t => { f with optionExceptions := t }
    else if name = utf8 "headers" then set f (texts v) fun f t =>
      { f with headers := t }
    else if name = utf8 "header_exceptions" then
      set f (lists v) fun f t => { f with headerExceptions := t }
    else if name = utf8 "ignored_modules" then
      set f (texts v) fun f t => { f with ignoredModules := t }
    else if name = utf8 "non_object_modules" then
      set f (texts v) fun f t => { f with nonObjectModules := t }
    else if name = utf8 "dynamic_modules" then
      set f (lists v) fun f t => { f with dynamicModules := t }
    else if name = utf8 "base_class_modules" then
      set f (lists v) fun f t => { f with baseClassModules := t }
    else if name = utf8 "ignored_options" then
      set f (texts v) fun f t => { f with ignoredOptions := t }
    else if name = utf8 "no_dsn_tools" then set f (texts v) fun f t =>
      { f with noDsnTools := t }
    else none) n

/-! ## Documents -/

/-- Why a text gives no rules. -/
inductive Refusal where
  /-- The text is no YAML. -/
  | malformed
  /-- The document is no rule file. -/
  | problems (ps : List Problem)
  /-- The rule file is not valid. -/
  | fault (f : RuleFault)
deriving DecidableEq, Repr

def Refusal.message : Refusal → Text
  | .malformed => utf8 "decode rules: yaml: malformed document"
  | .problems ps =>
    utf8 "decode rules: yaml: unmarshal errors:" ++ ps.flatMap fun p =>
      utf8 "\n  " ++ p.message
  | .fault f => f.message

/-- The rule file in a text; an empty text is an empty rule file. -/
def decode (source : Text) : Except Refusal RuleFile :=
  match Yaml.document? source with
  | none => .error .malformed
  | some none => .ok .empty
  | some (some n) =>
    let d := ruleFile n
    if d.problems.isEmpty then .ok (d.value.getD .empty)
    else if d.problems.contains .unreadable then .error .malformed
    else .error (.problems d.problems)

def parse (source : Text) : Except Refusal Rules :=
  match decode source with
  | .error e => .error e
  | .ok f =>
    match ofFile f with
    | .error e => .error (.fault e)
    | .ok r => .ok r

end Rules

end ToolLint
