/-!
# A place in a YAML document

The characters still to be read, with the line and the column of the first of
them. Lines and columns are counted from 0.
-/

namespace ToolLint

namespace Yaml

/-- Line, column, and the number of characters before. -/
structure Mark where
  line : Nat
  column : Nat
  index : Nat
deriving DecidableEq, Repr

structure Cursor where
  rest : List Char
  mark : Mark
deriving DecidableEq, Repr

def Cursor.start (cs : List Char) : Cursor := ⟨cs, ⟨0, 0, 0⟩⟩

/-! ## Classes of characters -/

def isBlank (c : Char) : Bool := c == ' ' || c == '\t'

/-- A character that ends a line. -/
def isBreak (c : Char) : Bool :=
  c == '\r' || c == '\n' || c.toNat == 0x85 || c.toNat == 0x2028 ||
    c.toNat == 0x2029

/-- Does a word end here? -/
def atGap : List Char → Bool
  | [] => true
  | c :: _ => isBlank c || isBreak c

def isNameChar (c : Char) : Bool := c.isAlphanum || c == '_' || c == '-'

/-- A character that a document may contain. -/
def isAllowed (c : Char) : Bool :=
  let n := c.toNat
  n == 0x09 || n == 0x0A || n == 0x0D || (0x20 ≤ n && n ≤ 0x7E) || n == 0x85
    || (0xA0 ≤ n && n ≤ 0xFFFD) || 0x10000 ≤ n

namespace Cursor

/-- One character further on the same line. -/
def skip (c : Cursor) : Cursor :=
  ⟨c.rest.drop 1, ⟨c.mark.line, c.mark.column + 1, c.mark.index + 1⟩⟩

/-- Past a line break, which can be two characters long. -/
def skipBreak (c : Cursor) : Cursor :=
  let n := match c.rest with
    | '\r' :: '\n' :: _ => 2
    | _ => 1
  ⟨c.rest.drop n, ⟨c.mark.line + 1, 0, c.mark.index + n⟩⟩

/-- What a line break stands for in a scalar. -/
def breakText (c : Cursor) : List Char :=
  match c.rest with
  | [] => []
  | d :: _ => if d.toNat == 0x2028 || d.toNat == 0x2029 then [d] else ['\n']

/-- Is this a line that begins with the given mark of three characters, set off
from the rest? -/
def atMarker (c : Cursor) (m : Char) : Bool :=
  c.mark.column == 0 &&
    match c.rest with
    | x :: y :: z :: r => x == m && y == m && z == m && atGap r
    | _ => false

def atBorder (c : Cursor) : Bool := c.atMarker '-' || c.atMarker '.'

/-- Past the rest of the line, to its break. -/
def skipLine (c : Cursor) : Cursor :=
  let n := (c.rest.takeWhile fun d => !isBreak d).length
  ⟨c.rest.drop n, ⟨c.mark.line, c.mark.column + n, c.mark.index + n⟩⟩

end Cursor

end Yaml

end ToolLint
