import ToolLint.Error
import ToolLint.Text.Lines
import ToolLint.Pod.Command

/-!
# Help listings

What a tool prints when it is asked for help: after a line `Options:` one line
for each option, with its long name, possibly the type of its value and possibly
a short form. An option that comes a second time ends the listing, since the
tool then goes on to other matters.
-/

namespace ToolLint

/-- One option of a help listing; empty texts mean that there is no type or no
short form. -/
structure HelpOption where
  long : Text
  type : Text
  short : Text
deriving DecidableEq, Repr

namespace Help

/-- The value type at the beginning of a text: an equals sign and a letter. -/
def type? : Text → Option (Text × Text)
  | 0x3D :: b :: r => if isLetter b then some ([b], r) else none
  | _ => none

/-- May the description begin here? It is set off by white space or missing. -/
def isBreak : Text → Bool
  | [] => true
  | b :: _ => isGap b

def isShortByte (b : UInt8) : Bool := isLetter b || b == ascii '?'

/-- The short form that follows white space: a hyphen and one byte, set off from
what comes after. -/
def short (s : Text) : Text :=
  match s.dropWhile isGap with
  | 0x2D :: b :: r => if isShortByte b && isBreak r then [b] else []
  | _ => []

def option? (line : Text) : Option HelpOption :=
  match Pod.longOption? (line.dropWhile isGap) with
  | none => none
  | some (long, r) =>
    let (type, rest) := (type? r).getD ([], r)
    if isBreak rest then some ⟨long, type, short rest⟩ else none

def isHeading (line : Text) : Bool := line.trim == utf8 "Options:"

/-- Does the line claim to be that of an option? -/
def isCandidate (line : Text) : Bool := (utf8 "--").isPrefixOf line.trim

/-- How reading the lines after the heading went on: to their end, to a repeated
option, or to a line that is no option line. -/
inductive Progress where
  | reading (options : List HelpOption)
  | finished (options : List HelpOption)
  | stuck (line : Text)
deriving DecidableEq, Repr

def Progress.step (p : Progress) (line : Text) : Progress :=
  match p with
  | .reading options =>
    if isCandidate line then
      match option? line with
      | none => .stuck line
      | some o =>
        if options.any (fun seen => seen.long == o.long) then .finished options
        else .reading (options ++ [o])
    else p
  | _ => p

def parse (output : Text) : Except Error (List HelpOption) :=
  let d := output.delivered
  let afterHeading := d.lines.dropWhile fun line => !isHeading line
  match (afterHeading.drop 1).foldl Progress.step (.reading []) with
  | .stuck line => .error (.helpLine line)
  | .finished options => .ok options
  | .reading options =>
    if d.overlong then .error (.helpReading .overlongLine)
    else if afterHeading.isEmpty then .error .noHelpHeading
    else .ok options

end Help

end ToolLint
