import ToolLint.Yaml.Cursor

/-!
# Scalars of a YAML document

Words with gaps between them, plain or between quotes. A gap inside one line
stays as it is; a gap across a line break folds: one break becomes a blank, more
of them become one break less. A block scalar has whole lines, which are kept or
folded as they are indented.
-/

namespace ToolLint

namespace Yaml

/-! ## Gaps -/

/-- A gap between two words of a scalar: the blanks, or the first break and the
further ones. -/
structure Gap where
  blanks : List Char
  crossed : Bool
  first : List Char
  further : List Char
deriving DecidableEq, Repr

namespace Gap

def empty : Gap := ⟨[], false, [], []⟩

/-- A gap that begins with a break which leaves nothing behind. -/
def escapedBreak : Gap := ⟨[], true, [], []⟩

def text (g : Gap) : List Char :=
  if g.crossed then
    if g.first.head? == some '\n' then
      if g.further.isEmpty then [' '] else g.further
    else g.first ++ g.further
  else g.blanks

/-- Read a gap to its end. A tab to the left of column `least` after a break is
refused. -/
def read (least : Nat) : Nat → Gap → Cursor → Option (Gap × Cursor)
  | 0, g, c => some (g, c)
  | fuel + 1, g, c =>
    match c.rest with
    | [] => some (g, c)
    | d :: _ =>
      if isBlank d then
        if g.crossed then
          if d == '\t' && c.mark.column < least then none else
            read least fuel g c.skip
        else read least fuel { g with blanks := g.blanks ++ [d] } c.skip
      else if isBreak d then
        if g.crossed then
          read least fuel { g with further := g.further ++ c.breakText }
            c.skipBreak
        else read least fuel ⟨[], true, c.breakText, []⟩ c.skipBreak
      else some (g, c)

end Gap

/-! ## Plain scalars -/

/-- Does a plain scalar end at this character? -/
def endsPlain (flow : Bool) : List Char → Bool
  | [] => true
  | c :: r =>
    (c == ':' && atGap r)
      || (flow && (c == ',' || c == '?' || c == '[' || c == ']' || c == '\x7b' ||
        c == '\x7d'))

/-- The characters of a word of a plain scalar, in reverse after those already
read. -/
def plainWord (flow : Bool) : Nat → List Char → Cursor → List Char × Cursor
  | 0, word, c => (word, c)
  | fuel + 1, word, c =>
    match c.rest with
    | [] => (word, c)
    | d :: _ =>
      if atGap c.rest || endsPlain flow c.rest then (word, c)
      else plainWord flow fuel (d :: word) c.skip

/-- A plain scalar that was read: its text, the place after it and the gap that
follows, and whether that gap crossed a line break. -/
structure Plain where
  text : List Char
  next : Cursor
  crossed : Bool
deriving DecidableEq, Repr

/-- Read a plain scalar on; `text` is what was read, in reverse, and `gap` what
came after it. -/
def readPlain (flow : Bool) (least : Nat) :
    Nat → List Char → Gap → Cursor → Option Plain
  | 0, _, _, _ => none
  | fuel + 1, text, gap, c =>
    if c.atBorder || c.rest.head? == some '#' then
      some ⟨text.reverse, c, gap.crossed⟩
    else
      let (word, afterWord) := plainWord flow fuel [] c
      let text := if word.isEmpty then text else word ++ gap.text.reverse ++ text
      let gap := if word.isEmpty then gap else Gap.empty
      if afterWord.rest.isEmpty || !atGap afterWord.rest then
        some ⟨text.reverse, afterWord, gap.crossed⟩
      else
        match Gap.read least fuel gap afterWord with
        | none => none
        | some (gap, afterGap) =>
          if !flow && afterGap.mark.column < least then
            some ⟨text.reverse, afterGap, gap.crossed⟩
          else readPlain flow least fuel text gap afterGap

/-! ## Quoted scalars -/

def hexValue? (c : Char) : Option Nat :=
  let n := c.toNat
  if 0x30 ≤ n && n ≤ 0x39 then some (n - 0x30)
  else if 0x41 ≤ n && n ≤ 0x46 then some (n - 0x37)
  else if 0x61 ≤ n && n ≤ 0x66 then some (n - 0x57)
  else none

def scalarValue? (n : Nat) : Option Char :=
  if n < 0xD800 || (0xE000 ≤ n && n < 0x110000) then some (Char.ofNat n) else none

/-- The character that `length` digits stand for. -/
def codeChar? (length : Nat) (digits : List Char) : Option Char :=
  let ds := digits.take length
  if ds.length < length then none
  else
    match ds.mapM hexValue? with
    | some vs => scalarValue? (vs.foldl (fun n v => 16 * n + v) 0)
    | none => none

/-- The character after a backslash: what it stands for and how many characters
it takes with its digits. -/
def escaped? : List Char → Option (Char × Nat)
  | [] => none
  | c :: r =>
    match c with
    | '0' => some (Char.ofNat 0, 1)
    | 'a' => some (Char.ofNat 0x07, 1)
    | 'b' => some (Char.ofNat 0x08, 1)
    | 't' | '\t' => some ('\t', 1)
    | 'n' => some ('\n', 1)
    | 'v' => some (Char.ofNat 0x0B, 1)
    | 'f' => some (Char.ofNat 0x0C, 1)
    | 'r' => some ('\r', 1)
    | 'e' => some (Char.ofNat 0x1B, 1)
    | ' ' => some (' ', 1)
    | '"' => some ('"', 1)
    | '\'' => some ('\'', 1)
    | '/' => some ('/', 1)
    | '\\' => some ('\\', 1)
    | 'N' => some (Char.ofNat 0x85, 1)
    | '_' => some (Char.ofNat 0xA0, 1)
    | 'L' => some (Char.ofNat 0x2028, 1)
    | 'P' => some (Char.ofNat 0x2029, 1)
    | 'x' => (codeChar? 2 r).map (·, 3)
    | 'u' => (codeChar? 4 r).map (·, 5)
    | 'U' => (codeChar? 8 r).map (·, 9)
    | _ => none

def Cursor.skipMany (c : Cursor) (n : Nat) : Cursor :=
  ⟨c.rest.drop n, ⟨c.mark.line, c.mark.column + n, c.mark.index + n⟩⟩

/-- The characters of a word between quotes, in reverse after those already
read; the flag says that the word ended at an escaped line break. -/
def quotedWord (single : Bool) :
    Nat → List Char → Cursor → Option (List Char × Bool × Cursor)
  | 0, _, _ => none
  | fuel + 1, word, c =>
    if atGap c.rest then some (word, false, c)
    else if single then
      match c.rest with
      | '\'' :: '\'' :: _ => quotedWord single fuel ('\'' :: word) (c.skipMany 2)
      | '\'' :: _ => some (word, false, c)
      | d :: _ => quotedWord single fuel (d :: word) c.skip
      | [] => none
    else
      match c.rest with
      | '"' :: _ => some (word, false, c)
      | '\\' :: r =>
        if (r.head?.map isBreak).getD false then
          some (word, true, c.skip.skipBreak)
        else
          match escaped? r with
          | some (d, n) => quotedWord single fuel (d :: word) (c.skipMany (n + 1))
          | none => none
      | d :: _ => quotedWord single fuel (d :: word) c.skip
      | [] => none

/-- Read on between quotes, up to and past the closing one; `text` is what was
read, in reverse. -/
def readQuoted (single : Bool) :
    Nat → List Char → Cursor → Option (List Char × Cursor)
  | 0, _, _ => none
  | fuel + 1, text, c =>
    if c.atBorder || c.rest.isEmpty then none
    else
      match quotedWord single fuel text c with
      | none => none
      | some (text, escapedBreak, afterWord) =>
        if afterWord.rest.head? == some (if single then '\'' else '"') then
          some (text.reverse, afterWord.skip)
        else
          let gap := if escapedBreak then Gap.escapedBreak else Gap.empty
          match Gap.read 0 fuel gap afterWord with
          | none => none
          | some (gap, afterGap) =>
            readQuoted single fuel (gap.text.reverse ++ text) afterGap

/-! ## Block scalars -/

/-- Is there nothing more on this line, or only a comment? -/
def endsLine (cs : List Char) : Bool :=
  match cs.dropWhile isBlank with
  | [] => true
  | c :: _ => c == '#' || isBreak c

/-- Past the break of this line, if it has one. -/
def Cursor.toNextLine (c : Cursor) : Cursor :=
  let c := c.skipLine
  if c.rest.isEmpty then c else c.skipBreak

/-- What is kept of the line breaks at the end of a block scalar. -/
inductive Chomping where
  | none
  | one
  | all
deriving DecidableEq, Repr

/-- What stands after the sign of a block scalar, in either order: what is kept
at the end, and by how much its lines are indented. -/
structure BlockHeader where
  chomping : Chomping
  increment : Option Nat
deriving DecidableEq, Repr

namespace BlockHeader

def chomping? : List Char → Option (Chomping × List Char)
  | '+' :: r => some (.all, r)
  | '-' :: r => some (.none, r)
  | _ => Option.none

/-- A digit; `0` indents nothing and is refused. -/
def increment? : List Char → Option (Option Nat × List Char)
  | [] => some (Option.none, [])
  | c :: r =>
    if c == '0' then Option.none
    else if c.isDigit then some (some (c.toNat - 0x30), r)
    else some (Option.none, c :: r)

/-- Read the header; nothing else may stand on its line. -/
def read? (cs : List Char) : Option BlockHeader :=
  let header :=
    match chomping? cs with
    | some (chomping, r) => (increment? r).map fun (n, r) => (⟨chomping, n⟩, r)
    | Option.none =>
      (increment? cs).map fun (n, r) =>
        match n, chomping? r with
        | some n, some (chomping, r) => (⟨chomping, some n⟩, r)
        | n, _ => (⟨.one, n⟩, r)
  match header with
  | some (header, r) => if endsLine r then some header else Option.none
  | Option.none => Option.none

end BlockHeader

/-- Past blanks, but not past a column, if one is given. -/
def Cursor.skipIndent (c : Cursor) (column : Option Nat) : Cursor :=
  let n := (c.rest.takeWhile (· == ' ')).length
  c.skipMany ((column.map fun k => min n (k - c.mark.column)).getD n)

/-- Read empty lines up to one that is not: the deepest column among them, what
their breaks stand for, and the place in the last line after its indentation. A
tab in the indentation is refused. -/
def readBreaks (column : Option Nat) :
    Nat → Nat → List Char → Cursor → Option (Nat × List Char × Cursor)
  | 0, deepest, breaks, c => some (deepest, breaks, c)
  | fuel + 1, deepest, breaks, c =>
    let c := c.skipIndent column
    let deepest := max deepest c.mark.column
    match c.rest with
    | [] => some (deepest, breaks, c)
    | d :: _ =>
      if d == '\t' && column.all (c.mark.column < ·) then none
      else if isBreak d then
        readBreaks column fuel deepest (breaks ++ c.breakText) c.skipBreak
      else some (deepest, breaks, c)

/-- A block scalar so far: its text, the break of the last line and of the empty
lines after it, whether the last line began with a blank, and the place. -/
structure Block where
  text : List Char
  first : List Char
  further : List Char
  indented : Bool
  next : Cursor
deriving DecidableEq, Repr

/-- What the breaks before a line contribute. One break before a line that is not
indented further folds to a blank, more of them to one break less. -/
def Block.gap (b : Block) (folded indented : Bool) : List Char :=
  if folded && !b.indented && !indented && b.first.head? == some '\n' then
    if b.further.isEmpty then [' '] else b.further
  else b.first ++ b.further

/-- Read the lines of a block scalar that begins at a column. -/
def readLines (folded : Bool) (column : Nat) : Nat → Block → Option Block
  | 0, b => some b
  | fuel + 1, b =>
    let c := b.next
    if c.mark.column ≠ column || c.rest.isEmpty then some b
    else
      let indented := (c.rest.head?.map isBlank).getD false
      let line := c.rest.takeWhile fun d => !isBreak d
      match readBreaks (some column) (c.rest.length + 1) 0 [] c.toNextLine with
      | none => none
      | some (_, further, next) =>
        readLines folded column fuel
          ⟨b.text ++ b.gap folded indented ++ line, c.skipLine.breakText, further,
            indented, next⟩

/-- Read a block scalar after its sign; `indent` is the column of the innermost
block. Without a number in its header it begins where its first line does. -/
def readBlock (folded : Bool) (indent : Option Nat) (c : Cursor) :
    Option (List Char × Cursor) :=
  match BlockHeader.read? c.rest with
  | none => none
  | some header =>
    let fuel := c.rest.length + 1
    let column := header.increment.map (indent.getD 0 + ·)
    match readBreaks column fuel 0 [] c.toNextLine with
    | none => none
    | some (deepest, breaks, next) =>
      let least := (indent.map (· + 1)).getD 1
      let column := column.getD (max deepest least)
      (readLines folded column fuel ⟨[], [], breaks, false, next⟩).map fun b =>
        match header.chomping with
        | .none => (b.text, b.next)
        | .one => (b.text ++ b.first, b.next)
        | .all => (b.text ++ b.first ++ b.further, b.next)

end Yaml

end ToolLint
