import ToolLint.Activity
import ToolLint.Tool

/-!
# Checks

A check looks at one tool. It reports what it finds, and it can fail without an
answer.
-/

namespace ToolLint

structure Check where
  name : Text
  run : Tool → Activity Unit

namespace Check

def violation (format : String) (args : List Text) : Activity Unit :=
  .report (.violation (utf8 format) args)

/-- Report a list unless it is empty. -/
def list (heading : Text) (items : List Text) : Activity Unit :=
  if items.isEmpty then .done () else .report (.list heading items)

def compare (heading : Text) (rows : List Row) : Activity Unit :=
  if rows.isEmpty then .done () else .report (.compare heading rows)

end Check

end ToolLint
