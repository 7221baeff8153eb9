import ToolLint.Report

/-!
# Reporters

A reporter brings entries to a stream. It writes an entry part by part, where
`Report.Entry.render` says at once what the whole of it is, and it remembers
that there was something to report.
-/

namespace ToolLint

open Report (Entry)

/-- What the stream has received, write by write with the last one first, and
whether something was reported. -/
structure Reporter where
  written : List Text
  failed : Bool
deriving DecidableEq, Repr

namespace Reporter

/-- A reporter without anything to report, on a stream that has received a text
before. -/
def new (received : Text) : Reporter := ⟨[received], false⟩

def output (r : Reporter) : Text := r.written.reverse.flatten

def fail (r : Reporter) : Reporter := { r with failed := true }

def write (r : Reporter) (text : Text) : Reporter :=
  { r with written := text :: r.written }

def writeLine (r : Reporter) (text : Text) : Reporter := r.write (text ++ [lf])

def writeFormat (r : Reporter) (format : Text) (args : List Text) : Reporter :=
  r.write (Format.apply format args)

def perform (r : Reporter) : Entry → Reporter
  | .violation format args => r.fail.writeFormat (format ++ [lf]) args
  | .list heading items =>
    items.foldl (fun r item => r.writeFormat (utf8 "\t%s\n") [item])
      (r.fail.writeLine heading)
  | .block heading text =>
    let r := (r.fail.writeLine heading).write text
    if !text.isEmpty && text.getLast? != some lf then r.writeLine [] else r
  | .compare heading rows =>
    ((r.fail.writeLine heading).write (Comparison.render rows)).writeLine []

def run (r : Reporter) (entries : List Entry) : Reporter :=
  entries.foldl perform r

end Reporter

end ToolLint
