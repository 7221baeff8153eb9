import ToolLint.Files
import ToolLint.Pattern.Reader
import ToolLint.Text.Lines
import ToolLint.Program.Basic

/-!
# The search program

`grep` prints the lines of a file that match a pattern, or counts them. The part
of it that a search needs is here as a function on files: its options, its
output and its exit status, which is 1 if nothing matched and 2 if the pattern
or the file is no good.
-/

namespace ToolLint

namespace Grep

structure Request where
  count : Bool
  pattern : Text
  file : Text
deriving DecidableEq, Repr

def Request.empty : Request := ⟨false, [], []⟩

/-- Read arguments until the name of a file is known: `-c` asks for the count,
`-E` changes nothing, `-e` gives the pattern, and a word that is none of them,
or the word after `--`, is the file. -/
def Request.read (r : Request) : List Text → Request
  | [] => r
  | a :: rest =>
    if !r.file.isEmpty then r
    else if a = utf8 "-E" then r.read rest
    else if a = utf8 "-c" then Request.read { r with count := true } rest
    else if a = utf8 "-e" then
      match rest with
      | [] => r
      | p :: rest => Request.read { r with pattern := p } rest
    else if a = utf8 "--" then
      match rest with
      | [] => r
      | f :: _ => Request.read { r with file := f } rest
    else Request.read { r with file := a } rest

def matching (p : Pattern) (lines : List Text) : List Text :=
  lines.filter fun l => p.found l.chars

def answer (count : Bool) (found : List Text) : Outcome where
  output :=
    if count then Decimal.ofNat found.length ++ [lf]
    else if found.isEmpty then []
    else Text.unlines found ++ [lf]
  exit := if found.isEmpty then 1 else 0

/-- What is printed when the search cannot be done. -/
def trouble (reason : Text) : Outcome := ⟨utf8 "grep: " ++ reason, 2⟩

/-- The lines of a file: one line feed at its end is not part of the last line. -/
def fileLines (content : Text) : List Text := (Text.dropLastIf lf content).lines

/-- A language of patterns. A written pattern is a test of lines, or it is no
good for a reason. -/
abbrev Language : Type := Text → Except Text (Text → Bool)

/-- The language of search patterns, which are tried on the characters of a
line. -/
def patterns : Language := fun written =>
  match Pattern.read written with
  | .error f => .error (f.message written)
  | .ok p => .ok fun line => p.found line.chars

def run (language : Language) (files : Files) (args : List Text) : Outcome :=
  let r := Request.empty.read args
  match language r.pattern with
  | .error reason => trouble reason
  | .ok test =>
    match files.read r.file with
    | .error e => trouble e.message
    | .ok content => answer r.count ((fileLines content).filter test)

end Grep

end ToolLint
