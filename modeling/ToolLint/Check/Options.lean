import ToolLint.Check.Basic
import ToolLint.Help
import ToolLint.Order
import ToolLint.Package
import ToolLint.Pod.Section
import ToolLint.Rules.Basic
import ToolLint.Search

/-!
# Checks of options

Three checks look at the options of a tool: whether the documentation lists them
in order, whether the help listing gives the standard ones the type and the
short form that the rules want, and whether the code reads every option that is
documented.
-/

namespace ToolLint

namespace Check

/-! ## Order -/

/-- The options of one section are in order. -/
def sectionOrder (tool : Tool) (s : Pod.Section) : Activity Unit :=
  compare (tool.name ++ utf8 " has unsorted options in " ++ s.name ++ utf8 ":")
    (Order.displaced s.options)

/-- The options of the `OPTIONS` section, and of each section below it, are in
order. -/
def optionOrder : Check where
  name := utf8 "option-order"
  run tool :=
    match Pod.find? (Pod.sections (Pod.commands tool.text)) (utf8 "OPTIONS") with
    | none => .error .noOptionsSection
    | some s => .andThen (.each (sectionOrder tool) s.preorder) fun _ => .done ()

/-! ## Types -/

def orNone (t : Text) : Text := if t.isEmpty then utf8 "none" else t

/-- An option of the help listing has the type and the short form that the rules
want. -/
def optionType (rules : Rules) (tool : Tool) (o : HelpOption) : Activity Unit :=
  match rules.option? tool.name o.long with
  | none => .done ()
  | some spec => do
    if o.type ≠ spec.type then
      violation "%s --%s has type %s but should have type %s"
        [tool.name, o.long, orNone o.type, orNone spec.type]
    if o.short ≠ spec.short then
      violation "%s --%s has short form %s but should have short form %s"
        [tool.name, o.long, orNone o.short, orNone spec.short]

/-- The standard options have the canonical type and short form in the help
listing. -/
def optionTypes (rules : Rules) (programs : Programs) : Check where
  name := utf8 "option-types"
  run tool := do
    let outcome ← (programs.run tool.absolutePath [utf8 "--help"]).during .helpRun
    let options ← .ofExcept (Help.parse outcome.output)
    let _ ← Activity.each (optionType rules tool) options

/-! ## Usage -/

/-- The search expressions for reads of an option. -/
def readPatterns (option : Text) : List Text :=
  let q := Pattern.escape option
  [utf8 "get\\(['\"]" ++ q ++ utf8 "['\"]\\)",
    utf8 "got\\(['\"]" ++ q ++ utf8 "['\"]\\)"]

/-- The number of lines of a file that match each of some patterns, added up. -/
def occurrences (programs : Programs) (path : Text) (patterns : List Text) :
    Activity Int :=
  do
  let counts ← Activity.each (fun p => Search.count programs p path) patterns
  pure (counts.foldl wrapSum 0)

def reads (programs : Programs) (tool : Tool) (option : Text) : Activity Bool :=
  do
  let n ← (occurrences programs tool.path (readPatterns option)).during
      (.optionSearch option)
  pure (n ≠ 0)

/-- The options that are documented, not ignored, and read nowhere. -/
def unreadOptions (rules : Rules) (programs : Programs) (tool : Tool) :
    Activity (List Text) :=
  do
  let options := (Pod.documentedOptions tool.text).filter fun o =>
    !rules.ignoresOption o
  let read ← Activity.each (reads programs tool) options
  pure (((options.zip read).filter fun e => !e.2).map Prod.fst)

/-- The main package of the tool parses the options of the database connection. -/
def dsnParsing (tool : Tool) : Activity Unit := do
  Activity.panicIf (Package.rejection? tool.package)
  match Package.region? tool.text tool.package with
  | none => .error (.noMainPackage tool.package)
  | some region =>
    if Text.hasInfix (utf8 "parse_options(") region then .done ()
    else
      violation "%s does not call parse_options() in package %s"
        [tool.name, tool.package]

/-- Every documented option is read, and a tool that connects to a database
parses the options for that. -/
def optionUsage (rules : Rules) (programs : Programs) : Check where
  name := utf8 "option-usage"
  run tool := do
    let unread ← unreadOptions rules programs tool
    list (tool.name ++ utf8 " has unused options:")
      (unread.map fun o => utf8 "--" ++ o)
    if rules.requiresDsn tool.name then dsnParsing tool

end Check

end ToolLint
