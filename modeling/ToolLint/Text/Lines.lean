import ToolLint.Text.Basic

/-!
# Lines of a text

Two ways to see a text as lines. `Text.lines` splits at every line feed and
loses nothing. `Text.delivered` is what a line reader with a bounded buffer
hands out: no empty line after a final line feed, one carriage return dropped at
the end of each line, and an end at the first line that does not fit into the
buffer.
-/

namespace ToolLint

namespace Text

def lines (s : Text) : List Text := split lf s

def unlines (ls : List Text) : Text := join [lf] ls

/-- The line without one carriage return at its end. -/
def dropCr (line : Text) : Text := dropLastIf cr line

/-- The parts between line feeds, without an empty last one. -/
def terminated (s : Text) : List Text :=
  let parts := s.lines
  if parts.getLast? = some [] then parts.dropLast else parts

/-- The number of bytes that no longer fit: a line this long stops a line
reader. -/
def lineLimit : Nat := 65536

def fits (line : Text) : Bool := line.length < lineLimit

end Text

/-- What a line reader hands out: the lines before the first over-long one, and
whether there is one. -/
structure Delivery where
  lines : List Text
  overlong : Bool
deriving DecidableEq, Repr

def Text.delivered (s : Text) : Delivery where
  lines := (s.terminated.takeWhile Text.fits).map Text.dropCr
  overlong := s.terminated.any fun line => !line.fits

end ToolLint
