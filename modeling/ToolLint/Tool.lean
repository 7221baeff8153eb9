import ToolLint.Error

/-!
# Tools

A tool is a program file under inspection. Its name is the last part of its
path, in lower-case letters and hyphens; its main package is named after it.
-/

namespace ToolLint

structure Tool where
  name : Text
  /-- The path as it was given. -/
  path : Text
  /-- The path under which the tool is started. -/
  absolutePath : Text
  text : Text
deriving DecidableEq, Repr

namespace Tool

def isSlash (b : UInt8) : Bool := b == ascii '/' || b == ascii '\\'

/-- A tool's name starts with a lower-case letter and has lower-case letters and
hyphens only. -/
def isName : Text → Bool
  | [] => false
  | b :: s => isLower b && s.all fun c => isLower c || c == ascii '-'

def nameOf (path : Text) : Except Error Text :=
  let base := Text.afterLast isSlash path
  if isName base then .ok base else .error (.toolName path)

/-- The main package of the tool with this name: hyphens become underscores. -/
def packageName (name : Text) : Text :=
  name.map fun b => if b = ascii '-' then ascii '_' else b

def package (t : Tool) : Text := packageName t.name

end Tool

end ToolLint
