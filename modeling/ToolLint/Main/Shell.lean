import ToolLint.Program.Basic

/-!
# Shell scripts

The part of the shell language in which small programs are written that stand in
for others: commands that print, `exit`, a choice by `case`, quoting, arguments,
comments. A script is read byte by byte, and a command is done as soon as it has
been read, so what stands behind an `exit` is never looked at.

This belongs to the outer layer of the program. The checks take any programs,
and no theorem is about these.
-/

namespace ToolLint

namespace Shell

/-- Where in a script a byte stands. -/
inductive Mode where
  | plain
  | single
  | double
  | comment
  /-- After a redirection sign; both outputs go the same way, so nothing comes
  of it. -/
  | redirection
  /-- After a dollar sign. -/
  | dollar (quoted : Bool)
  /-- After a backslash. -/
  | escape (quoted : Bool)
deriving DecidableEq, Repr

/-- How a choice goes on. -/
inductive Branch where
  /-- There is no choice. -/
  | outside
  /-- A pattern for this subject is to be read. -/
  | choosing (subject : Text)
  /-- The commands are those of a pattern that does not match. -/
  | passing (subject : Text)
  /-- The commands are those of the pattern that matches. -/
  | taken
  /-- The choice was made, and the rest of it is passed over. -/
  | leaving
deriving DecidableEq, Repr

structure State where
  mode : Mode
  /-- The word being read. -/
  word : Option Text
  /-- The words of the command being read. -/
  words : List Text
  branch : Branch
  /-- Was the byte before a semicolon? -/
  semicolon : Bool
  line : Nat
  output : Text
  exit : Int
  stopped : Bool
deriving DecidableEq, Repr

structure Call where
  name : Text
  args : List Text
deriving DecidableEq, Repr

def State.start : State := ⟨.plain, none, [], .outside, false, 1, [], 0, false⟩

/-! ## Commands -/

def unescaped : Text → Text
  | 0x5C :: b :: s =>
    if b = ascii 'n' then lf :: unescaped s
    else if b = ascii 't' then tab :: unescaped s
    else if b = ascii 'r' then cr :: unescaped s
    else if b = ascii '\\' then b :: unescaped s
    else 0x5C :: b :: unescaped s
  | b :: s => b :: unescaped s
  | [] => []

/-- Fill the holes of a format that are marked by `%s`. -/
def formatted : Text → List Text → Text
  | 0x25 :: 0x73 :: s, [] => formatted s []
  | 0x25 :: 0x73 :: s, a :: args => a ++ formatted s args
  | 0x25 :: 0x25 :: s, args => 0x25 :: formatted s args
  | b :: s, args => b :: formatted s args
  | [], _ => []

def processMark : Text := utf8 "$$"

namespace State

def print (s : State) (t : Text) : State :=
  { s with output := s.output ++ t, exit := 0 }

def stop (s : State) (exit : Int) : State :=
  { s with exit := exit, stopped := true }

/-- The status that a word asks for. -/
def status (w : Text) : Int :=
  match Decimal.read w with
  | .ok n => n % 256
  | .error _ => 2

def execute (c : Call) (s : State) : List Text → State
  | [] => s
  | name :: args =>
    if name = utf8 "echo" then
      s.print (Text.join (utf8 " ") (args.map unescaped) ++ [lf])
    else if name = utf8 "printf" then
      s.print (formatted (unescaped (args.headD [])) (args.drop 1))
    else if name = utf8 "exit" then s.stop ((args.head?.map status).getD s.exit)
    else if name = utf8 "kill" ∧ args.getLast? = some processMark then s.stop (-1)
    else if name = utf8 ":" ∨ name = utf8 "true" then { s with exit := 0 }
    else if name = utf8 "false" then { s with exit := 1 }
    else
      let complaint :=
        c.name ++ utf8 ": " ++ Decimal.ofNat s.line ++ utf8 ": " ++ name
        ++ utf8 ": not found\n"
      { s.print complaint with exit := 127 }

/-! ## Words -/

def add (s : State) (t : Text) : State :=
  { s with word := some (s.word.getD [] ++ t) }

def endWord (s : State) : State :=
  match s.word with
  | none => s
  | some w => { s with words := s.words ++ [w], word := none }

def endCommand (c : Call) (s : State) : State :=
  let s := s.endWord
  let done := { s with words := [] }
  if s.words = [utf8 "esac"] then { done with branch := .outside }
  else match s.branch with
    | .outside | .taken =>
      match s.words with
      | [w, _, i] =>
        if w = utf8 "case" ∧ i = utf8 "in" then s else execute c done s.words
      | _ => execute c done s.words
    | _ => done

/-- Does a subject match one of the alternatives of a pattern? -/
def accepts (pattern subject : Text) : Bool :=
  (Text.split (ascii '|') pattern).any fun p => p == utf8 "*" || p == subject

def endPattern (s : State) : State :=
  let s := s.endWord
  let done := { s with words := [] }
  let choose (subject : Text) : State :=
    if accepts (s.words.getLastD []) subject then { done with branch := .taken }
    else { done with branch := .passing subject }
  match s.branch, s.words with
  | .choosing subject, _ => choose subject
  | .leaving, _ => done
  | _, [_, subject, _, _] => choose subject
  | _, _ => done

def endBranch (s : State) : State :=
  match s.branch with
  | .passing subject => { s with branch := .choosing subject }
  | .taken => { s with branch := .leaving }
  | _ => s

def parameter (c : Call) (b : UInt8) : Text :=
  if b = ascii '#' then Decimal.ofNat c.args.length
  else if b = ascii '$' then processMark
  else if b = ascii '@' ∨ b = ascii '*' then Text.join (utf8 " ") c.args
  else if b = ascii '0' then c.name
  else if isDigit b then (c.args[b.toNat - 0x31]?).getD []
  else [ascii '$', b]

/-- Read a byte outside of quotes. -/
def plain (c : Call) (s : State) (b : UInt8) : State :=
  if isSpaceOrTab b then s.endWord
  else if b = lf then { s.endCommand c with line := s.line + 1 }
  else if b = ascii ';' then
    if s.semicolon then s.endBranch else { s.endCommand c with semicolon := true }
  else if b = ascii ')' then s.endPattern
  else if b = ascii '\'' then { s.add [] with mode := .single }
  else if b = ascii '"' then { s.add [] with mode := .double }
  else if b = ascii '\\' then { s with mode := .escape false }
  else if b = ascii '$' then { s with mode := .dollar false }
  else if b = ascii '#' ∧ s.word = none then { s with mode := .comment }
  else if b = ascii '>' then { s with word := none, mode := .redirection }
  else s.add [b]

def step (c : Call) (s : State) (b : UInt8) : State :=
  if s.stopped then s
  else
    let t := { s with semicolon := false }
    match s.mode with
    | .plain => { s with semicolon := s.semicolon && b == ascii ';' }.plain c b
    | .single => if b = ascii '\'' then { t with mode := .plain } else t.add [b]
    | .double =>
      if b = ascii '"' then { t with mode := .plain }
      else if b = ascii '\\' then { t with mode := .escape true }
      else if b = ascii '$' then { t with mode := .dollar true }
      else t.add [b]
    | .comment => if b = lf then { t with mode := .plain }.plain c b else t
    | .redirection =>
      if isSpaceOrTab b || b == lf || b == ascii ';' then
        { t with mode := .plain }.plain c b else t
    | .dollar quoted =>
      { t with mode := if quoted then .double else .plain }.add (parameter c b)
    | .escape quoted =>
      let kept := quoted && !(b == ascii '"' || b == ascii '\\' || b == ascii '$')
      { t with mode := if quoted then .double else .plain }.add (if kept then
        [ascii '\\', b] else [b])

end State

def run (c : Call) (script : Text) : Outcome :=
  let s := (script ++ [lf]).foldl (State.step c) .start
  ⟨s.output, s.exit⟩

end Shell

end ToolLint
