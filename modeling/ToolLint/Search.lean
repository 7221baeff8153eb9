import ToolLint.Program.Basic
import ToolLint.Text.Blank
import ToolLint.Text.Lines

/-!
# Searches

Questions about a file that the search program answers: how many lines match a
pattern, and which.
-/

namespace ToolLint

namespace Search

def program : Text := utf8 "grep"

/-- Run the search program. An exit status above 1 means trouble. -/
def run (programs : Programs) (flags : List Text) (pattern path : Text) :
    Activity Text :=
  Activity.andThen
    (programs.run program
      ([utf8 "-E"] ++ flags ++ [utf8 "-e", pattern, utf8 "--", path]))
    fun o =>
      if 1 < o.exit then .error (.searchTrouble pattern path o.exit o.output.trim)
      else .done o.output

def readCount (pattern output : Text) : Except Error Int :=
  match Decimal.read output.trim with
  | .ok n => .ok n
  | .error f => .error (.searchCount pattern (.number output.trim f))

/-- The number of lines of a file that match a pattern. -/
def count (programs : Programs) (pattern path : Text) : Activity Int :=
  (run programs [utf8 "-c"] pattern path).andThen fun output =>
    .ofExcept (readCount pattern output)

/-- The lines of a file that match a pattern, in order, up to the first that is
too long. -/
def lines (programs : Programs) (pattern path : Text) : Activity Delivery :=
  (run programs [] pattern path).andThen fun output => .done output.delivered

/-- The lines of a file that match a pattern, all of them. -/
def allLines (programs : Programs) (pattern path : Text) : Activity (List Text) :=
  (lines programs pattern path).andThen fun d =>
    if d.overlong then .error .overlongLine else .done d.lines

end Search

end ToolLint
