import ToolLint.Text.Quoted
import ToolLint.Text.Decimal

/-!
# What can go wrong

An `Error` is the cause of a failure: a constructor for each, and for each step
that was under way when it came up. The wording is in one place,
`Error.message`.
-/

namespace ToolLint

inductive FileFault where
  | missing
  | isDirectory
  | notDirectory
  | invalidName
  | nameTooLong
  | denied
  | notProgram
deriving DecidableEq, Repr

def FileFault.message : FileFault → Text
  | .missing => utf8 "no such file or directory"
  | .isDirectory => utf8 "is a directory"
  | .notDirectory => utf8 "not a directory"
  | .invalidName => utf8 "invalid argument"
  | .nameTooLong => utf8 "file name too long"
  | .denied => utf8 "permission denied"
  | .notProgram => utf8 "exec format error"

inductive FileRequest where
  | open
  | read
  | inspect
  | start
deriving DecidableEq, Repr

def FileRequest.word : FileRequest → Text
  | .open => utf8 "open"
  | .read => utf8 "read"
  | .inspect => utf8 "stat"
  | .start => utf8 "fork/exec"

inductive Error where
  /-- The file system refused. -/
  | file (request : FileRequest) (path : Text) (fault : FileFault)
  /-- A text that should be a number is none. -/
  | number (text : Text) (fault : NumberFault)
  /-- A line did not fit into the reader's buffer. -/
  | overlongLine
  /-- No directory of the search path holds the program. -/
  | notOnPath (name : Text)
  /-- The name is that of something that cannot be started. -/
  | unusable (name : Text) (fault : FileFault)
  /-- Looking at a program given by its path failed. -/
  | uninspected (name : Text) (cause : Error)
  /-- There is no program name. -/
  | noCommand
  /-- The program did not start. -/
  | notStarted (name : Text) (cause : Error)
  /-- The script has no answer for the program. -/
  | unscripted (program : Text)
  /-- A failure known by its text alone. -/
  | told (text : Text)
  /-- The search program reported trouble. -/
  | searchTrouble (pattern path : Text) (exit : Int) (output : Text)
  /-- The search program did not print a count. -/
  | searchCount (pattern : Text) (cause : Error)
  /-- The name of the file is not that of a tool. -/
  | toolName (path : Text)
  /-- The file of a tool cannot be read. -/
  | unreadable (path : Text) (cause : Error)
  /-- The documentation has no `OPTIONS` heading at the top level. -/
  | noOptionsSection
  /-- No line opens the main package. -/
  | noMainPackage (package : Text)
  /-- A line of a help listing looks like an option and is none. -/
  | helpLine (line : Text)
  /-- The help listing has no `Options:` heading. -/
  | noHelpHeading
  /-- The help listing could not be read to its end. -/
  | helpReading (cause : Error)
  /-- The tool could not be asked for its help listing. -/
  | helpRun (cause : Error)
  /-- A search for uses of a module failed. -/
  | moduleSearch (module : Text) (cause : Error)
  /-- A search for reads of an option failed. -/
  | optionSearch (option : Text) (cause : Error)
  /-- The search for headers failed. -/
  | headerSearch (cause : Error)
  /-- The documentation could not be rendered. -/
  | podRendering (cause : Error)
  /-- The syntax of the documentation could not be checked. -/
  | podSyntax (cause : Error)
  /-- Neither could be done. -/
  | podBoth (rendering checking : Error)
deriving DecidableEq, Repr

namespace Error

def numberReason : NumberFault → Text
  | .syntaxError => utf8 "invalid syntax"
  | .outOfRange => utf8 "value out of range"

def message : Error → Text
  | file request path fault =>
    request.word ++ utf8 " " ++ path ++ utf8 ": " ++ fault.message
  | number text fault =>
    utf8 "strconv.Atoi: parsing " ++ text.quoted ++ utf8 ": " ++
      numberReason fault
  | overlongLine => utf8 "bufio.Scanner: token too long"
  | notOnPath name =>
    utf8 "exec: " ++ name.quoted ++ utf8 ": executable file not found in $PATH"
  | unusable name fault =>
    utf8 "exec: " ++ name.quoted ++ utf8 ": " ++ fault.message
  | uninspected name cause =>
    utf8 "exec: " ++ name.quoted ++ utf8 ": " ++ cause.message
  | noCommand => utf8 "exec: no command"
  | notStarted name cause => utf8 "run " ++ name ++ utf8 ": " ++ cause.message
  | unscripted program => utf8 "exttooltest: no result scripted for " ++ program
  | told text => text
  | searchTrouble pattern path exit output =>
    utf8 "grep " ++ pattern.quoted ++ utf8 " " ++ path ++ utf8 ": exit " ++
      Decimal.ofInt exit
      ++ utf8 ": " ++ output
  | searchCount pattern cause =>
    utf8 "grep count for " ++ pattern.quoted ++ utf8 ": " ++ cause.message
  | toolName path => utf8 "cannot parse tool name from " ++ path
  | unreadable path cause =>
    utf8 "cannot open " ++ path ++ utf8 ": " ++ cause.message
  | noOptionsSection => utf8 "no OPTIONS section"
  | noMainPackage package => utf8 "cannot find package " ++ package
  | helpLine line => utf8 "cannot parse --help line " ++ line.quoted
  | noHelpHeading => utf8 "no Options: heading in --help output"
  | helpReading cause => utf8 "read --help output: " ++ cause.message
  | helpRun cause => utf8 "run --help: " ++ cause.message
  | moduleSearch module cause =>
    utf8 "search for " ++ module ++ utf8 ": " ++ cause.message
  | optionSearch option cause =>
    utf8 "search for --" ++ option ++ utf8 ": " ++ cause.message
  | headerSearch cause => utf8 "search headers: " ++ cause.message
  | podRendering cause => utf8 "render POD: " ++ cause.message
  | podSyntax cause => utf8 "check POD syntax: " ++ cause.message
  | podBoth rendering checking =>
    utf8 "render POD: " ++ rendering.message ++ utf8 "; check POD syntax: " ++
      checking.message

/-- The innermost cause. Of two failures told together neither is the cause of
the other. -/
def root : Error → Error
  | uninspected _ cause | notStarted _ cause | searchCount _ cause
    | unreadable _ cause
  | helpReading cause | helpRun cause | moduleSearch _ cause
    | optionSearch _ cause
  | headerSearch cause | podRendering cause | podSyntax cause => cause.root
  | e => e

end Error

end ToolLint
