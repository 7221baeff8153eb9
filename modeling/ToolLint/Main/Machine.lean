import ToolLint.Program.Grep
import ToolLint.Main.Shell

/-!
# Machines

A machine has files and a search path, and it runs the programs among the files:
the search program, and scripts for the shell. It tells the log of every program
that came to its end.

This belongs to the outer layer of the program, like the scripts. The theorems
are about `Grep.run`. The search program here has the words of a real one for
files and patterns that are no good, and it does not show the lines of a file
with a zero byte.
-/

namespace ToolLint

structure Machine where
  files : Files
  /-- The directories of the search path. -/
  searchPath : List Text
  /-- The path of the search program. -/
  grep : Text
deriving DecidableEq, Repr

namespace Machine

/-! ## The search program -/

def capitalised : FileFault → Text
  | .missing => utf8 "No such file or directory"
  | .isDirectory => utf8 "Is a directory"
  | .notDirectory => utf8 "Not a directory"
  | .invalidName => utf8 "Invalid argument"
  | .nameTooLong => utf8 "File name too long"
  | .denied => utf8 "Permission denied"
  | .notProgram => utf8 "Exec format error"

/-- The lines of a file; an empty one has none. -/
def linesOf (content : Text) : List Text :=
  if content.isEmpty then [] else Grep.fileLines content

def complaint (pattern : Text) : PatternFault → Text
  | .unclosedGroup => utf8 "Unmatched ( or \\("
  | .unopenedGroup => utf8 "Unmatched ) or \\)"
  | .unclosedClass _ => utf8 "Unmatched [, [^, [:, [., or [="
  | .badRange _ => utf8 "Invalid range end"
  | .trailingBackslash => utf8 "Trailing backslash"
  | fault => fault.message pattern

/-- The answer about a file with the given content. Lines of a file with a zero
byte are not shown. -/
def searchIn (r : Grep.Request) (p : Pattern) (content : Text) : Outcome :=
  let found := Grep.matching p (linesOf content)
  if content.contains 0 && !r.count && !found.isEmpty then
    ⟨utf8 "grep: " ++ r.file ++ utf8 ": binary file matches\n", 0⟩
  else Grep.answer r.count found

/-- Run the search program. A directory counts as a file without lines, but it
is trouble. -/
def search (files : Files) (args : List Text) : Outcome :=
  let r := Grep.Request.empty.read args
  let refuse (fault : FileFault) : Outcome :=
    Grep.trouble (r.file ++ utf8 ": " ++ capitalised fault ++ [lf])
  match Pattern.read r.pattern with
  | .error f => Grep.trouble (complaint r.pattern f ++ [lf])
  | .ok p =>
    if r.file.isEmpty then searchIn r p []
    else match files.locate r.file with
      | .error fault => refuse fault
      | .ok .directory =>
        let o := refuse .isDirectory
        if r.count then ⟨o.output ++ utf8 "0\n", o.exit⟩ else o
      | .ok (.file content) => searchIn r p content

/-! ## Starting a program -/

/-- The first line of a script names the program that runs it, and possibly an
argument for it. -/
def interpreter? (content : Text) : Option (Text × Text) :=
  (Text.after? (utf8 "#!") content).map fun s =>
    let line := (s.takeWhile (· != lf)).dropWhile isSpaceOrTab
    let name := line.takeWhile fun b => !isSpaceOrTab b
    let rest := (line.dropWhile fun b => !isSpaceOrTab b).dropWhile isSpaceOrTab
    (name, Text.dropWhileEnd isSpaceOrTab rest)

def shellPath : Text := utf8 "/bin/sh"

def envPath : Text := utf8 "/usr/bin/env"

def shell (files : Files) : List Text → Outcome
  | [] => ⟨[], 0⟩
  | a :: args =>
    if a = utf8 "-c" then
      match args with
      | [] => ⟨shellPath ++ utf8 ": 0: -c requires an argument\n", 2⟩
      | script :: rest => Shell.run ⟨rest.headD shellPath, rest.drop 1⟩ script
    else match files.read a with
      | .ok script => Shell.run ⟨a, args⟩ script
      | .error _ =>
        ⟨shellPath ++ utf8 ": 0: cannot open " ++ a ++ utf8 ": No such file\n", 2⟩

def runFile (path : Text) (args : List Text) (content : Text) :
    Except Error Outcome :=
  match interpreter? content with
  | none => .error (.file .start path .notProgram)
  | some (name, arg) =>
    if name = shellPath then .ok (Shell.run ⟨path, args⟩ content)
    else if name = envPath then
      .ok ⟨envPath ++ utf8 ": '" ++ arg ++ utf8 "': No such file or directory\n",
        127⟩
    else .error (.file .start path .missing)

def isGrep (m : Machine) (path : Text) : Bool :=
  path == m.grep || Path.absolute m.files.home path == m.grep

/-- Start the program at a path. No argument may have a zero byte. A file that
is listed goes before the search program and the shell, which every machine has.
-/
def start (m : Machine) (path : Text) (args : List Text) : Except Error Outcome :=
  if args.any (·.contains 0) then .error (.file .start path .invalidName)
  else match m.files.locate path with
    | .ok (.file content) => runFile path args content
    | .ok .directory => .error (.file .start path .denied)
    | .error fault =>
      if m.isGrep path then .ok (search m.files args)
      else if path = shellPath then .ok (shell m.files args)
      else .error (.file .start path fault)

/-! ## Finding a program -/

def onPath (m : Machine) (name : Text) : List Text :=
  (m.searchPath.map fun d => d ++ utf8 "/" ++ name).filter fun path =>
    match m.files.locate path with
    | .ok (.file _) => true
    | _ => m.isGrep path

/-- The path of a program. A name with a slash is a path already. -/
def lookup (m : Machine) (name : Text) : Except Error Text :=
  if name.contains Path.slash then
    match m.files.locate name with
    | .ok (.file _) => .ok name
    | .ok .directory => .error (.unusable name .isDirectory)
    | .error fault =>
      if m.isGrep name || name == shellPath then .ok name
      else .error (.uninspected name (.file .inspect name fault))
  else match (m.onPath name).head? with
    | some path => .ok path
    | none => .error (.notOnPath name)

def execute (m : Machine) (name : Text) (args : List Text) :
    Except Error Outcome :=
  if name.isEmpty then .error .noCommand
  else if Path.base name = name then
    match m.lookup name with
    | .error e => .error e
    | .ok path => m.start path args
  else m.start name args

def finished (name : Text) (args : List Text) (o : Outcome) : Log.Entry :=
  Log.debug (utf8 "external command finished")
    [(utf8 "cmd", .text name), (utf8 "args", .texts args),
      (utf8 "exit", .number o.exit),
      (utf8 "bytes", .number o.output.length)]

def programs (m : Machine) : Programs where
  run name args :=
    match m.execute name args with
    | .error e => ⟨[.call (name :: args)], .error (.error (.notStarted name e))⟩
    | .ok o => ⟨[.call (name :: args), .log (finished name args o)], .ok o⟩
  lookup := m.lookup

end Machine

end ToolLint
