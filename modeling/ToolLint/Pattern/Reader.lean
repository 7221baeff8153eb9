import ToolLint.Pattern.Basic
import ToolLint.Text.Chars
import ToolLint.Text.Quoted

/-!
# Reading patterns

The written form of a pattern. A pattern is first cut into tokens and then put
together with a stack of open groups, one token at a time, so the leftmost fault
is the one that is told. A character that is not special stands for itself, and
so does a special one after a backslash.
-/

namespace ToolLint

/-- Why a text is no pattern. -/
inductive PatternFault where
  | unclosedGroup
  | unopenedGroup
  | unclosedClass (rest : Text)
  | badRange (range : Text)
  | nothingToRepeat (operator : Text)
  | repeatedRepeat (operators : Text)
  | trailingBackslash
  | badEscape (escape : Text)
  | notText (rest : Text)
deriving DecidableEq, Repr

namespace PatternFault

/-- The fault with the part of the pattern that it concerns; `whole` is the
pattern. -/
def message (whole : Text) (fault : PatternFault) : Text :=
  let (what, part) := match fault with
    | unclosedGroup => (utf8 "missing closing )", whole)
    | unopenedGroup => (utf8 "unexpected )", whole)
    | unclosedClass rest => (utf8 "missing closing ]", rest)
    | badRange range => (utf8 "invalid character class range", range)
    | nothingToRepeat operator =>
      (utf8 "missing argument to repetition operator", operator)
    | repeatedRepeat operators =>
      (utf8 "invalid nested repetition operator", operators)
    | trailingBackslash => (utf8 "trailing backslash at end of expression", [])
    | badEscape escape => (utf8 "invalid escape sequence", escape)
    | notText rest => (utf8 "invalid UTF-8", rest)
  utf8 "error parsing regexp: " ++ what ++ utf8 ": `" ++ part ++ utf8 "`"

end PatternFault

namespace Pattern

/-! ## Writing a text as a pattern -/

def special : Text := utf8 "\\.+*?()|[]\x7b\x7d^$"

/-- The pattern that matches just the given text: special characters get a
backslash. -/
def escape (s : Text) : Text :=
  s.flatMap fun b => if special.contains b then [ascii '\\', b] else [b]

/-! ## Tokens -/

/-- How often the pattern before an operator may come. -/
inductive Repeat where
  | many
  | some
  | optional
deriving DecidableEq, Repr

inductive Token where
  | atom (p : Pattern)
  | openGroup
  | closeGroup
  | bar
  | repeated (r : Repeat) (operator : List Char)
  | fault (f : PatternFault)
deriving DecidableEq, Repr

def namedClass? (name : List Char) : Option (List (Char × Char)) :=
  if name = "alpha".toList then .some [('A', 'Z'), ('a', 'z')]
  else if name = "digit".toList then .some [('0', '9')]
  else if name = "alnum".toList then .some [('0', '9'), ('A', 'Z'), ('a', 'z')]
  else if name = "upper".toList then .some [('A', 'Z')]
  else if name = "lower".toList then .some [('a', 'z')]
  else if name = "space".toList then .some [('\t', '\r'), (' ', ' ')]
  else if name = "blank".toList then .some [('\t', '\t'), (' ', ' ')]
  else none

/-- The ranges of a class up to its closing bracket, and what follows. The first
character may be a closing bracket that stands for itself. -/
def classRanges : Nat → Bool → List (Char × Char) → List Char →
    Except PatternFault (List (Char × Char) × List Char)
  | 0, _, _, _ => .error (.unclosedClass [])
  | fuel + 1, first, ranges, s =>
    match s with
    | [] => .error (.unclosedClass [])
    | ']' :: r => if first then one fuel ranges ']' r else .ok (ranges, r)
    | '[' :: ':' :: r =>
      let name := r.takeWhile Char.isAlpha
      match r.dropWhile Char.isAlpha, namedClass? name with
      | ':' :: ']' :: rest, .some named =>
        classRanges fuel false (ranges ++ named) rest
      | _, _ => one fuel ranges '[' (':' :: r)
    | '\\' :: c :: r => one fuel ranges c r
    | c :: r => one fuel ranges c r
where
  /-- A single character, or a range that begins with it. -/
  one (fuel : Nat) (ranges : List (Char × Char)) (lo : Char) (r : List Char) :
      Except PatternFault (List (Char × Char) × List Char) :=
    match r with
    | '-' :: ']' :: _ => classRanges fuel false (ranges ++ [(lo, lo)]) r
    | '-' :: hi :: rest =>
      if lo ≤ hi then classRanges fuel false (ranges ++ [(lo, hi)]) rest
      else .error (.badRange ([lo, '-', hi].flatMap encodeChar))
    | _ => classRanges fuel false (ranges ++ [(lo, lo)]) r

/-- The class after an opening bracket, and what follows it. -/
def readClass (s : List Char) : Except PatternFault (CharClass × List Char) :=
  let (negated, body) := match s with
    | '^' :: r => (true, r)
    | _ => (false, s)
  match classRanges (body.length + 1) true [] body with
  | .ok (ranges, rest) => .ok (⟨ranges, negated⟩, rest)
  | .error (.unclosedClass _) =>
    .error (.unclosedClass (('[' :: s).flatMap encodeChar))
  | .error f => .error f

def repeat? : Char → Option Repeat
  | '*' => .some .many
  | '+' => .some .some
  | '?' => .some .optional
  | _ => none

/-- The first token of a written pattern, and what follows it. -/
def nextToken (c : Char) (r : List Char) : Token × List Char :=
  match c with
  | '(' => (.openGroup, r)
  | ')' => (.closeGroup, r)
  | '|' => (.bar, r)
  | '^' => (.atom .lineStart, r)
  | '$' => (.atom .lineEnd, r)
  | '.' => (.atom (.char .any), r)
  | '[' =>
    match readClass r with
    | .ok (k, rest) => (.atom (.char k), rest)
    | .error f => (.fault f, [])
  | '\\' =>
    match r with
    | [] => (.fault .trailingBackslash, [])
    | d :: rest =>
      if d.isAlphanum then (.fault (.badEscape (['\\', d].flatMap encodeChar)),
        [])
      else (.atom (.char (.single d)), rest)
  | _ =>
    match repeat? c, r with
    | .some k, '?' :: rest => (.repeated k [c, '?'], rest)
    | .some k, _ => (.repeated k [c], r)
    | none, _ => (.atom (.char (.single c)), r)

def tokensFrom : Nat → List Char → List Token
  | 0, _ => []
  | _, [] => []
  | fuel + 1, c :: r =>
    let (t, rest) := nextToken c r
    t :: tokensFrom fuel rest

def tokens (s : List Char) : List Token := tokensFrom s.length s

/-! ## Groups -/

/-- A group that is still open: the alternatives before the last bar, and the
patterns since then, each list in reverse; and the operator just read, if the
last pattern carries one. -/
structure Group where
  choices : List Pattern
  parts : List Pattern
  operator : List Char
deriving DecidableEq, Repr

namespace Group

def empty : Group := ⟨[], [], []⟩

def close (g : Group) : Pattern :=
  oneOf (Pattern.all g.parts.reverse :: g.choices).reverse

def push (g : Group) (p : Pattern) : Group := ⟨g.choices, p :: g.parts, []⟩

end Group

/-- Read one token, with the open groups from the innermost to the outermost. -/
def readToken (groups : Group × List Group) (t : Token) :
    Except PatternFault (Group × List Group) :=
  let (g, outer) := groups
  match t with
  | .atom p => .ok (g.push p, outer)
  | .bar => .ok (⟨Pattern.all g.parts.reverse :: g.choices, [], []⟩, outer)
  | .openGroup => .ok (.empty, g :: outer)
  | .closeGroup =>
    match outer with
    | [] => .error .unopenedGroup
    | h :: rest => .ok (h.push g.close, rest)
  | .repeated r operator =>
    if !g.operator.isEmpty then
      .error (.repeatedRepeat ((g.operator ++ operator).flatMap encodeChar))
    else match g.parts with
    | [] => .error (.nothingToRepeat (operator.flatMap encodeChar))
    | p :: parts =>
      let q := match r with
        | .many => Pattern.many p
        | .some => Pattern.some p
        | .optional => Pattern.optional p
      .ok (⟨g.choices, q :: parts, operator⟩, outer)
  | .fault f => .error f

def ofTokens (ts : List Token) : Except PatternFault Pattern := do
  let (g, outer) ← ts.foldlM readToken (Group.empty, [])
  if outer.isEmpty then .ok g.close else .error .unclosedGroup

def read (s : Text) : Except PatternFault Pattern :=
  match s.fromStray? with
  | .some rest => .error (.notText rest)
  | none => ofTokens (tokens s.chars)

/-- What is said of a text that has to be a pattern and cannot be one, because
it is no text. -/
def rejection? (s : Text) : Option Text :=
  s.fromStray?.map fun rest =>
    utf8 "regexp: Compile(" ++ s.quoted ++ utf8 "): " ++ PatternFault.message s
      (.notText rest)

end Pattern

end ToolLint
