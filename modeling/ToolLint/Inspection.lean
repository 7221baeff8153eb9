import ToolLint.Check.Basic
import ToolLint.Files

/-!
# Inspections

An inspection runs checks over files, one file after the other and on each file
one check after the other. What goes wrong in one place is told on the standard
error output and does not keep the others from being done. The inspection has
failed if anything was reported or told.
-/

namespace ToolLint

inductive Output where
  /-- Something that a check did. -/
  | event (e : Event)
  /-- A text on the standard output. -/
  | print (text : Text)
  /-- A text on the standard error output. -/
  | message (text : Text)
deriving DecidableEq, Repr

namespace Output

/-! ## Views of outputs -/

def event? : Output → Option Event
  | .event e => some e
  | _ => none

def events (os : List Output) : List Event := os.filterMap event?

def calls (os : List Output) : List (List Text) := Event.calls (events os)

def stdout (os : List Output) : Text :=
  os.flatMap fun
    | .event (.report e) => e.render
    | .print t => t
    | _ => []

/-- What is written to the standard error output, without the log. -/
def stderr (os : List Output) : Text :=
  os.flatMap fun
    | .message t => t
    | _ => []

/-- What is written to the standard error output if the log goes there too. -/
def stderrWithLog (debug : Bool) (os : List Output) : Text :=
  os.flatMap fun
    | .message t => t
    | .event (.log e) => e.render debug
    | _ => []

def logText (debug : Bool) (os : List Output) : Text :=
  Event.logText debug (events os)

@[simp]
theorem events_append (os ps : List Output) :
    events (os ++ ps) = events os ++ events ps :=
  List.filterMap_append

@[simp]
theorem calls_append (os ps : List Output) :
    calls (os ++ ps) = calls os ++ calls ps := by
  simp [calls, Event.calls]

@[simp]
theorem stdout_append (os ps : List Output) :
    stdout (os ++ ps) = stdout os ++ stdout ps :=
  List.flatMap_append

@[simp]
theorem stderr_append (os ps : List Output) :
    stderr (os ++ ps) = stderr os ++ stderr ps :=
  List.flatMap_append

end Output

structure Inspection where
  output : List Output
  failed : Bool
deriving DecidableEq, Repr

namespace Inspection

def empty : Inspection := ⟨[], false⟩

def append (x y : Inspection) : Inspection :=
  ⟨x.output ++ y.output, x.failed || y.failed⟩

instance : Append Inspection := ⟨append⟩

@[simp]
theorem output_append (x y : Inspection) :
    (x ++ y).output = x.output ++ y.output :=
  rfl

@[simp]
theorem failed_append (x y : Inspection) :
    (x ++ y).failed = (x.failed || y.failed) :=
  rfl

theorem append_assoc (x y z : Inspection) : x ++ y ++ z = x ++ (y ++ z) := by
  show append (append x y) z = append x (append y z)
  simp [append, Bool.or_assoc]

@[simp]
theorem empty_append (x : Inspection) : empty ++ x = x := by
  show append empty x = x
  simp [append, empty]

def all : List Inspection → Inspection
  | [] => empty
  | x :: xs => x ++ all xs

theorem all_append (xs ys : List Inspection) :
    all (xs ++ ys) = all xs ++ all ys := by
  induction xs with
  | nil => simp [all]
  | cons x xs ih => simp [all, ih, append_assoc]

/-- A single message, which is a failure. -/
def complaint (text : Text) : Inspection := ⟨[.message (text ++ [lf])], true⟩

/-- The text of the end of a check before its time. -/
def faultText : Fault → Text
  | .error e => e.message
  | .panic value => utf8 "panic: " ++ value

def beginning (tool : Tool) (c : Check) : Log.Entry :=
  Log.debug (utf8 "running check") [(utf8 "tool", .text tool.name),
    (utf8 "check", .text c.name)]

/-- The complaint about a check that came to no end. -/
def ofResult (tool : Tool) (c : Check) : Except Fault Unit → Inspection
  | .ok _ => empty
  | .error f =>
    complaint (tool.name ++ utf8 " " ++ c.name ++ utf8 ": " ++ faultText f)

/-- Events of a check; they are a failure if one of them is a report. -/
def ofEvents (es : List Event) : Inspection :=
  ⟨es.map .event, es.any fun e => e.report?.isSome⟩

def ofCheck (tool : Tool) (c : Check) : Inspection :=
  let a := c.run tool
  ofEvents (.log (beginning tool c) :: a.events) ++ ofResult tool c a.result

def ofTool (checks : List Check) (tool : Tool) : Inspection :=
  all (checks.map (ofCheck tool))

def load (files : Files) (path : Text) : Except Error Tool :=
  match Tool.nameOf path with
  | .error e => .error e
  | .ok name =>
    match files.read path with
    | .error e => .error (.unreadable path e)
    | .ok text => .ok ⟨name, path, Path.absolute files.home path, text⟩

def ofFile (checks : List Check) (files : Files) (path : Text) : Inspection :=
  match load files path with
  | .error e => complaint e.message
  | .ok tool => ofTool checks tool

def ofFiles (checks : List Check) (files : Files) (paths : List Text) :
    Inspection :=
  all (paths.map (ofFile checks files))

end Inspection

end ToolLint
