import ToolLint.Error
import ToolLint.Path

/-!
# Files

The files that a run can see: those below a working directory, and possibly
others. Nothing in a run changes them. What is not listed counts as missing.
-/

namespace ToolLint

/-- The files of a run. A file or a directory is known by its location: the
parts of its path from the root of the file system. -/
structure Files where
  /-- The path of the working directory. -/
  home : Text
  contents : List (List Text × Text)
  directories : List (List Text)
  /-- What may not be opened. -/
  closed : List (List Text)
deriving DecidableEq, Repr

inductive Found where
  | file (content : Text)
  | directory
deriving DecidableEq, Repr

namespace Files

/-- The location of a path that is meant from a working directory. -/
def location (home path : Text) : List Text :=
  Path.simplify true (Path.parts (Path.absolute home path))

/-- Files and directories given by their paths, all of them open. -/
def ofPaths (home : Text) (contents : List (Text × Text))
    (directories : List Text) :
    Files where
  home := home
  contents := contents.map fun (p, c) => (location home p, c)
  directories := directories.map (location home)
  closed := []

/-- The same files, but those at some paths may not be opened. -/
def closing (f : Files) (paths : List Text) : Files :=
  { f with closed := f.closed ++ paths.map (location f.home) }

def content? (f : Files) (loc : List Text) : Option Text :=
  (f.contents.find? fun e => e.1 == loc).map Prod.snd

/-- A directory is the working directory, one that is listed, or one above
something that is there. -/
def hasDirectory (f : Files) (loc : List Text) : Bool :=
  loc.isPrefixOf (location f.home []) ||
    f.directories.any (fun d => loc.isPrefixOf d)
    || f.contents.any (fun e => loc.isPrefixOf e.1 && loc != e.1)

/-- Longer parts of a path are refused. -/
def longestPart : Nat := 255

/-- Paths as long as this are refused. -/
def pathLimit : Nat := 4096

/-- Follow the parts of a path from a directory. -/
def walk (f : Files) : List Text → List Text → Except FileFault Found
  | _, [] => .ok .directory
  | loc, p :: ps =>
    if p.isEmpty || p == utf8 "." then walk f loc ps
    else if p == utf8 ".." then walk f loc.dropLast ps
    else if longestPart < p.length then .error .nameTooLong
    else
      let next := loc ++ [p]
      let denied := f.closed.contains next
      match f.content? next with
      | some c =>
        if !ps.isEmpty then .error .notDirectory
        else if denied then .error .denied
        else .ok (.file c)
      | none =>
        if !f.hasDirectory next then .error .missing
        else if denied then .error .denied
        else walk f next ps

/-- What a path leads to. A path that begins with that of the working directory is
meant from there. -/
def locate (f : Files) (path : Text) : Except FileFault Found :=
  if path.isEmpty then .error .missing
  else if path.contains 0 then .error .invalidName
  else if pathLimit ≤ path.length then .error .nameTooLong
  else match Text.after? (f.home ++ [Path.slash]) path with
    | some rest => f.walk (location f.home []) (Path.parts rest)
    | none =>
      f.walk (if Path.isAbsolute path then [] else location f.home [])
        (Path.parts path)

def read (f : Files) (path : Text) : Except Error Text :=
  match f.locate path with
  | .ok (.file c) => .ok c
  | .ok .directory => .error (.file .read path .isDirectory)
  | .error fault => .error (.file .open path fault)

end Files

end ToolLint
