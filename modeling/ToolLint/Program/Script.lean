import ToolLint.Program.Grep

/-!
# Scripted programs

Programs whose answers are written down beforehand, by the last part of the name
under which they are called. Only the search program needs no script: it
searches the files at hand.
-/

namespace ToolLint

/-- The answers of programs. A panic comes before a failure, and a failure
before a result. -/
structure Script where
  results : List (Text × Outcome)
  failures : List (Text × Text)
  panics : List (Text × Text)
  /-- The programs on the search path, by their whole names. -/
  paths : List (Text × Text)
deriving DecidableEq, Repr

namespace Script

def empty : Script := ⟨[], [], [], []⟩

/-- The scripted answer to a call. The search program understands patterns in
the given language. -/
def answer (s : Script) (language : Grep.Language) (files : Files) (name : Text)
    (args : List Text) : Except Fault Outcome :=
  let base := Path.base name
  match s.panics.lookup base with
  | some value => .error (.panic value)
  | none =>
    match s.failures.lookup base with
    | some text => .error (.error (.told text))
    | none =>
      match s.results.lookup base with
      | some outcome => .ok outcome
      | none =>
        if base = utf8 "grep" then .ok (Grep.run language files args)
        else .error (.error (.unscripted base))

/-- Scripted programs; every call is recorded. -/
def programsIn (s : Script) (language : Grep.Language) (files : Files) :
    Programs where
  run name args := ⟨[.call (name :: args)], s.answer language files name args⟩
  lookup name :=
    match s.paths.lookup name with
    | some path => .ok path
    | none => .error (.notOnPath name)

def programs (s : Script) (files : Files) : Programs :=
  s.programsIn Grep.patterns files

end Script

end ToolLint
