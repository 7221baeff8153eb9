import ToolLint.Text.Quoted
import ToolLint.Text.Lines
import ToolLint.Text.Width

/-!
# Reports

A report is a list of entries: a single sentence, a list of items, a block of
foreign text, or a table that sets what is beside what should be. Each entry
renders to a text of its own that ends in a line feed, and a report has failed
as soon as it has an entry.
-/

namespace ToolLint

/-! ## Sentences with holes -/

namespace Format

/-- An argument shown by the letter after a per cent sign. Arguments are texts, and
the sentences of the linter have no other letters than `s` and `q`: here every other
one is a wrong letter, and so are the signs of a width or a flag. -/
def argument (verb : Char) (arg : Text) : Text :=
  if verb = 's' then arg
  else if verb = 'q' then arg.quoted
  else utf8 "%!" ++ encodeChar verb ++ utf8 "(string=" ++ arg ++ utf8 ")"

/-- The arguments that no hole took. -/
def extra : List Text → Text
  | [] => []
  | args =>
    utf8 "%!(EXTRA " ++ Text.join (utf8 ", ")
      (args.map fun a => utf8 "string=" ++ a) ++ utf8 ")"

/-- Fill the holes of a format, whose pieces are given, with the arguments in
order; `done` is what was written so far, in reverse. -/
def fill (done : List Text) : List Piece → List Text → Text
  | .char '%' :: .char '%' :: ps, args => fill (utf8 "%" :: done) ps args
  | .char '%' :: p :: ps, arg :: args =>
    fill (argument p.toChar arg :: done) ps args
  | .char '%' :: p :: ps, [] =>
    fill ((utf8 "%!" ++ encodeChar p.toChar ++ utf8 "(MISSING)") :: done) ps []
  | [.char '%'], args => fill (utf8 "%!(NOVERB)" :: done) [] args
  | .char c :: ps, args => fill (encodeChar c :: done) ps args
  | .stray b :: ps, args => fill ([b] :: done) ps args
  | [], args => done.reverse.flatten ++ extra args

def apply (format : Text) (args : List Text) : Text := fill [] format.pieces args

end Format

/-! ## Comparisons -/

structure Row where
  actual : Text
  correct : Text
deriving DecidableEq, Repr

namespace Comparison

def pad (width : Nat) (cell : Text) : Text :=
  cell ++ Text.blanks (width - cell.width)

/-- The width of a column: that of its widest line. -/
def columnWidth (title : Text) (cells : List Text) : Nat :=
  ((cells.flatMap Text.lines).map Text.width).foldl max title.width

/-- The lines of two cells side by side; the shorter cell is filled up with
empty lines. -/
def besides (left right : List Text) : List (Text × Text) :=
  let n := max left.length right.length
  (left ++ List.replicate (n - left.length) []).zip
    (right ++ List.replicate (n - right.length) [])

/-- A line of the table, with the blanks after its second cell. -/
def line (left right : Nat) (margin : Nat) (cells : Text × Text) : Text :=
  pad left cells.1 ++ Text.blanks 2 ++ pad right cells.2 ++ Text.blanks margin ++
    [lf]

def actualTitle : Text := utf8 "ACTUAL"

def correctTitle : Text := utf8 "CORRECT"

def render (rows : List Row) : Text :=
  let left := columnWidth actualTitle (rows.map Row.actual)
  let right := columnWidth correctTitle (rows.map Row.correct)
  line left right 1 (actualTitle, correctTitle)
    ++ rows.flatMap fun r => (besides r.actual.lines r.correct.lines).flatMap
      (line left right 2)

end Comparison

/-! ## Entries -/

inductive Report.Entry where
  | violation (format : Text) (args : List Text)
  | list (heading : Text) (items : List Text)
  | block (heading text : Text)
  | compare (heading : Text) (rows : List Row)
deriving DecidableEq, Repr

namespace Report

/-- A text that ends a line: a line feed is added unless there is one, or
nothing to end. -/
def endLine (text : Text) : Text :=
  if text.isEmpty || text.getLast? = some lf then text else text ++ [lf]

def Entry.render : Entry → Text
  | .violation format args => Format.apply (format ++ [lf]) args
  | .list heading items =>
    heading ++ [lf] ++ items.flatMap fun i => tab :: (i ++ [lf])
  | .block heading text => heading ++ [lf] ++ endLine text
  | .compare heading rows => heading ++ [lf] ++ Comparison.render rows ++ [lf]

def render (entries : List Entry) : Text := entries.flatMap Entry.render

end Report

end ToolLint
