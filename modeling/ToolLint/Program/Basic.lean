import ToolLint.Activity

/-!
# Programs

The checks ask other programs: the inspected tool, the renderer and the checker
of documentation, and the search program. All they know of them is that a
program can be run with arguments, which gives its output and exit status or
fails to start, and that a name can be looked up on the search path.
-/

namespace ToolLint

/-- What a program leaves behind: its standard output and error output together,
and its exit status, which is negative if the program was killed. -/
structure Outcome where
  output : Text
  exit : Int
deriving DecidableEq, Repr

structure Programs where
  run : (name : Text) → (args : List Text) → Activity Outcome
  /-- The path of a program that is known by its name. -/
  lookup : (name : Text) → Except Error Text

end ToolLint
