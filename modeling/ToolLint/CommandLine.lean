import ToolLint.Inspection

/-!
# The command line

The words after the name of the program are flags and paths. Flags are read
first, wherever they stand before a double hyphen: `-h` or `--help` asks for
help, `-v` or `--version` for the version, and either can be given a truth
value. What is no flag is the path of a tool to inspect.
-/

namespace ToolLint

namespace CommandLine

/-! ## Flags -/

inductive Flag where
  | help
  | version
deriving DecidableEq, Repr

namespace Flag

def longName : Flag → Text
  | .help => utf8 "help"
  | .version => utf8 "version"

def letter : Flag → UInt8
  | .help => ascii 'h'
  | .version => ascii 'v'

def all : List Flag := [.help, .version]

def ofName? (name : Text) : Option Flag := all.find? fun f => f.longName == name

def ofLetter? (b : UInt8) : Option Flag := all.find? fun f => f.letter == b

/-- A flag in both forms. -/
def label (f : Flag) : Text := [ascii '-', f.letter] ++ utf8 ", --" ++ f.longName

end Flag

/-- Why a run ends without success. -/
inductive Fault where
  | malformedFlag (word : Text)
  | unknownFlag (name : Text)
  | unknownLetter (cluster : Text)
  | notBoolean (flag : Flag) (value : Text)
  /-- There is nothing to inspect. -/
  | noTools
  /-- The inspection failed; everything there is to say about it was said. -/
  | checksFailed
deriving DecidableEq, Repr

def Fault.message : Fault → Text
  | .malformedFlag word => utf8 "bad flag syntax: " ++ word
  | .unknownFlag name => utf8 "unknown flag: --" ++ name
  | .unknownLetter cluster =>
    utf8 "unknown shorthand flag: " ++ quotedChar
      (Char.ofNat (cluster.headD 0).toNat)
      ++ utf8 " in -" ++ cluster
  | .notBoolean flag value =>
    utf8 "invalid argument " ++ value.quoted ++ utf8 " for " ++ flag.label.quoted
      ++ utf8 " flag: strconv.ParseBool: parsing " ++ value.quoted ++
        utf8 ": invalid syntax"
  | .noTools => utf8 "no tool files given"
  | .checksFailed => utf8 "checks failed"

def trueWords : List Text :=
  [utf8 "1", utf8 "t", utf8 "T", utf8 "TRUE", utf8 "true", utf8 "True"]

def falseWords : List Text :=
  [utf8 "0", utf8 "f", utf8 "F", utf8 "FALSE", utf8 "false", utf8 "False"]

def boolean? (value : Text) : Option Bool :=
  if trueWords.contains value then some true
  else if falseWords.contains value then some false
  else none

structure Request where
  help : Bool
  version : Bool
  paths : List Text
deriving DecidableEq, Repr

namespace Request

def empty : Request := ⟨false, false, []⟩

/-- Set a flag. A later value takes the place of an earlier one. -/
def set (r : Request) (flag : Flag) (value : Bool) : Request :=
  match flag with
  | .help => { r with help := value }
  | .version => { r with version := value }

def assign (r : Request) (flag : Flag) (value : Text) : Except Fault Request :=
  match boolean? value with
  | some b => .ok (r.set flag b)
  | none => .error (.notBoolean flag value)

/-- Read a word that begins with two hyphens, which are left out in `body`. -/
def readLong (r : Request) (body : Text) : Except Fault Request :=
  let name := body.takeWhile (· != ascii '=')
  if body.isEmpty || body.head? = some (ascii '-') || name.isEmpty then
    .error (.malformedFlag (utf8 "--" ++ body))
  else match Flag.ofName? name with
    | none => .error (.unknownFlag name)
    | some flag =>
      match body.dropWhile (· != ascii '=') with
      | [] => .ok (r.set flag true)
      | _ :: value => r.assign flag value

/-- Letters that begin like this are left to the machinery of test programs. -/
def reservedCluster : Text := utf8 "test."

def readCluster (r : Request) : Text → Except Fault Request
  | [] => .ok r
  | b :: rest =>
    if reservedCluster.isPrefixOf (b :: rest) then .ok r
    else match Flag.ofLetter? b with
      | none => .error (.unknownLetter (b :: rest))
      | some flag =>
        match rest with
        | 0x3D :: v :: value => r.assign flag (v :: value)
        | _ => readCluster (r.set flag true) rest

def read (r : Request) : List Text → Except Fault Request
  | [] => .ok r
  | word :: rest =>
    match word with
    | 0x2D :: 0x2D :: body =>
      if body.isEmpty then .ok { r with paths := r.paths ++ rest }
      else match r.readLong body with
        | .error f => .error f
        | .ok r => r.read rest
    | 0x2D :: b :: cluster =>
      match r.readCluster (b :: cluster) with
      | .error f => .error f
      | .ok r => r.read rest
    | _ => Request.read { r with paths := r.paths ++ [word] } rest

end Request

/-! ## Texts -/

def description : Text :=
  utf8 "check-tool inspects the source of toolkit programs and reports violations of
the toolkit's documentation and option conventions:

  • options in the POD OPTIONS section (and each subsection) are sorted
  • every embedded helper module is used
  • standard options have the canonical type and short form in --help
  • top-level POD headers appear in canonical order
  • the POD renders without overlong lines and passes podchecker
  • every documented option is read, and the tool parses DSN options

Files are never modified. The exit status is 0 when nothing was reported and 1
otherwise. Set PTDEBUG=1 to log each external command and check."

def usage : Text :=
  utf8 "Usage:
  check-tool TOOL_FILE... [flags]

Flags:
  -h, --help      help for check-tool
  -v, --version   version for check-tool
"

def versionText : Text := utf8 "check-tool version dev\n"

/-! ## Runs -/

/-- What a run leaves behind: its output, and why it ended without success, if
it did. -/
structure Result where
  output : List Output
  fault : Option Fault
deriving DecidableEq, Repr

def inspect (checks : List Check) (files : Files) (paths : List Text) : Result :=
  let i := Inspection.ofFiles checks files paths
  ⟨i.output, if i.failed then some .checksFailed else none⟩

/-- Run the command line. Help goes before the version, and both before an
inspection. No word is a command: one by which shells ask for completions is a
path like others. -/
def run (checks : List Check) (files : Files) (words : List Text) : Result :=
  match Request.empty.read words with
  | .error f => ⟨[], some f⟩
  | .ok r =>
    if r.help then ⟨[.print (description ++ utf8 "\n\n" ++ usage)], none⟩
    else if r.version then ⟨[.print versionText], none⟩
    else if r.paths.isEmpty then ⟨[.message usage], some .noTools⟩
    else inspect checks files r.paths

def Result.exit (r : Result) : Nat := if r.fault.isSome then 1 else 0

/-- What a run says at its end about a fault that was not told before. -/
def Result.errorLine (r : Result) : Text :=
  match r.fault with
  | none | some .checksFailed => []
  | some f => utf8 "check-tool: " ++ f.message ++ [lf]

end CommandLine

end ToolLint
