import ToolLint.Check.Documentation
import ToolLint.Check.Modules
import ToolLint.Check.Options

/-!
# The standard checks

All checks, in the order in which they run.
-/

namespace ToolLint

namespace Check

def standard (rules : Rules) (programs : Programs) : List Check :=
  [optionOrder, moduleUsage rules programs, optionTypes rules programs,
    headerOrder rules programs,
    podFormatting programs, optionUsage rules programs]

def find? (rules : Rules) (programs : Programs) (name : Text) : Option Check :=
  (standard rules programs).find? fun c => c.name == name

end Check

end ToolLint
