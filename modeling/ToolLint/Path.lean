import ToolLint.Text.Basic

/-!
# Paths

Names of files with slashes between their parts.
-/

namespace ToolLint

namespace Path

def slash : UInt8 := ascii '/'

def parts (path : Text) : List Text := Text.split slash path

/-- The last part of a path that has one; a dot if the path is empty. -/
def base (path : Text) : Text :=
  if path.isEmpty then utf8 "."
  else
    let trimmed := Text.dropWhileEnd (· == slash) path
    if trimmed.isEmpty then utf8 "/" else Text.afterLast (· == slash) trimmed

def isAbsolute (path : Text) : Bool := path.head? == some slash

/-- Parts without those that lead nowhere: empty ones, dots, and a name followed
by two dots. From the root two dots lead nowhere either. -/
def simplify (rooted : Bool) (parts : List Text) : List Text :=
  (parts.foldl (fun done p =>
    if p.isEmpty || p == utf8 "." then done
    else if p == utf8 ".." then
      match done with
      | [] => if rooted then [] else [p]
      | d :: rest => if d == utf8 ".." then p :: done else rest
    else p :: done) []).reverse

/-- The shortest path that leads to the same place, as far as the path alone shows
it. -/
def clean (path : Text) : Text :=
  let short := Text.join [slash] (simplify (isAbsolute path) (parts path))
  if isAbsolute path then slash :: short
  else if short.isEmpty then utf8 "."
  else short

/-- The path as seen from the root of the file system, for one that is meant from
`directory`. -/
def absolute (directory path : Text) : Text :=
  clean (if isAbsolute path then path else directory ++ [slash] ++ path)

example : absolute (utf8 "/w/d") (utf8 "..//pt-x") = utf8 "/w/pt-x" := by decide

end Path

end ToolLint
