import ToolLint.Check.Options
import ToolLint.Module

/-!
# The check of modules

Every module that a tool carries is used. What counts as a use depends on the
policy that the rules have for the module.
-/

namespace ToolLint

namespace Check

/-- The search expressions for references to a module: something in its
namespace, or its import. -/
def referencePatterns (module : Text) : List Text :=
  let q := Pattern.escape module
  [q ++ utf8 "::", utf8 "^[[:space:]]*use " ++ q ++ utf8 "([^A-Za-z0-9_:]|$)"]

/-- Is the module referred to somewhere in the tool? -/
def referenced (programs : Programs) (tool : Tool) (module : Text) :
    Activity Bool :=
  do
  let n ← (occurrences programs tool.path (referencePatterns module)).during
      (.moduleSearch module)
  pure (0 < n)

def constructed (tool : Tool) (module : Text) : Activity Bool := do
  Activity.panicIf (Module.rejection? module)
  pure (Module.constructed tool.text module)

/-- Is one of the modules constructed under a computed name, or somewhere in the
tool? -/
def anyConstructed (rules : Rules) (tool : Tool) : List Text → Activity Bool
  | [] => .done false
  | m :: rest => do
    if rules.policy tool.name m = .dynamic then .done true
    else if ← constructed tool m then .done true
    else anyConstructed rules tool rest

def moduleUsed (rules : Rules) (programs : Programs) (tool : Tool)
    (module : Text) : Activity Bool :=
  match rules.policy tool.name module with
  | .ignored | .dynamic => .done true
  | .notObject => referenced programs tool module
  | .baseClass => anyConstructed rules tool (rules.subclasses module)
  | .constructed => constructed tool module

/-- Find out whether a module is used, and tell the log. -/
def moduleUsedLogged (rules : Rules) (programs : Programs) (tool : Tool)
    (module : Text) :
    Activity Bool := do
  let used ← moduleUsed rules programs tool module
  Activity.log (Log.debug (utf8 "module usage")
    [(utf8 "tool", .text tool.name), (utf8 "module", .text module),
      (utf8 "policy", .text (rules.policy tool.name module).label),
        (utf8 "used", .flag used)])
  pure used

/-- The modules of a tool that are not used. -/
def unusedModules (rules : Rules) (programs : Programs) (tool : Tool) :
    Activity (List Text) :=
  do
  let modules := Module.declared tool.text
  let used ← Activity.each (moduleUsedLogged rules programs tool) modules
  pure (((modules.zip used).filter fun e => !e.2).map Prod.fst)

/-- Every module that the tool carries is used. -/
def moduleUsage (rules : Rules) (programs : Programs) : Check where
  name := utf8 "module-usage"
  run tool := do
    list (tool.name ++ utf8 " has unused modules:")
      (← unusedModules rules programs tool)

end Check

end ToolLint
