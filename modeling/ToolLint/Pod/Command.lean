import ToolLint.Text.Blank
import ToolLint.Text.Lines
import ToolLint.Text.Decimal

/-!
# Documentation commands

A line of documentation that begins with `=` and a name is a command. What
follows the name after one blank or tab is its argument, to the end of the line.
`cut` only ends a block and is left out.
-/

namespace ToolLint

namespace Pod

/-- A command, with the number of its line; the first line has number 1. -/
structure Command where
  name : Text
  arg : Text
  line : Nat
deriving DecidableEq, Repr

namespace Command

/-- The name and the argument of a command line, which has no line ending. -/
def read? : Text → Option (Text × Text)
  | 0x3D :: b :: s =>
    if isLetter b then
      let name := b :: s.takeWhile isAlnum
      if name = utf8 "cut" then none
      else match s.dropWhile isAlnum with
        | [] => some (name, [])
        | c :: arg => if isSpaceOrTab c then some (name, arg) else none
    else none
  | _ => none

/-- The command on the line with number `n`, if there is one. -/
def ofLine? (line : Text) (n : Nat) : Option Command :=
  (read? line.dropCr).map fun (name, arg) => ⟨name, arg, n⟩

end Command

def commands (src : Text) : List Command :=
  (src.lines.zipIdx 1).filterMap fun (line, n) => Command.ofLine? line n

/-! ## Headings -/

/-- The level of a heading command: the number after `head`, from 1 on. -/
def headingLevel? (name : Text) : Option Nat :=
  match Text.after? (utf8 "head") name with
  | none => none
  | some digits =>
    match Decimal.read digits with
    | .ok n => if 1 ≤ n then some n.toNat else none
    | .error _ => none

/-! ## Options -/

/-- A byte of an option's name after the first. -/
def isOptionByte (b : UInt8) : Bool := isWord b || b == ascii '-'

/-- The long option at the beginning of a text: two hyphens, possibly `[no]`,
and a name that starts with a letter or a digit. The name, and what follows it.
-/
def longOption? (s : Text) : Option (Text × Text) :=
  match Text.after? (utf8 "--") s with
  | none => none
  | some r =>
    match (Text.after? (utf8 "[no]") r).getD r with
    | [] => none
    | b :: t =>
      if isAlnum b then some (b :: t.takeWhile isOptionByte,
        t.dropWhile isOptionByte) else none

def optionName? (arg : Text) : Option Text := (longOption? arg.trim).map Prod.fst

/-- The option that a command documents: only items do. -/
def Command.option? (c : Command) : Option Text :=
  if c.name = utf8 "item" then optionName? c.arg else none

/-- The options that a text documents, each once, in the order of their first
items. -/
def documentedOptions (src : Text) : List Text :=
  ((commands src).filterMap Command.option?).eraseDups

end Pod

end ToolLint
