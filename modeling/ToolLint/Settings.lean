import ToolLint.Text.Blank

/-!
# Settings

The linter has one setting, taken from the environment variable `PTDEBUG`:
whether the log shows what is only of interest for debugging.
-/

namespace ToolLint

structure Settings where
  debug : Bool
deriving DecidableEq, Repr

namespace Settings

def variableName : String := "PTDEBUG"

/-- A value that stands for true: anything but blanks and a zero. -/
def isTrue (value : Text) : Bool :=
  value.trim != utf8 "" && value.trim != utf8 "0"

/-- The settings for a value of the environment variable, which need not be set.
-/
def ofVariable (value : Option Text) : Settings := ⟨value.any isTrue⟩

end Settings

end ToolLint
