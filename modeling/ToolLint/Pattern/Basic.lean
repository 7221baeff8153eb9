/-!
# Search patterns

A pattern describes pieces of a line of characters: single characters by their
class, the two ends of the line, and sequence, choice and repetition of
patterns. `Pattern.ends` lists the places that a match can reach from a given
place; a line is found if a match exists from some place in it.
-/

namespace ToolLint

/-- A class of characters: those in some ranges, or all others. -/
structure CharClass where
  ranges : List (Char × Char)
  negated : Bool
deriving DecidableEq, Repr

namespace CharClass

def has (k : CharClass) (c : Char) : Bool :=
  (k.ranges.any fun r => r.1 ≤ c && c ≤ r.2) != k.negated

def single (c : Char) : CharClass := ⟨[(c, c)], false⟩

/-- Every character but a line feed. -/
def any : CharClass := ⟨[('\n', '\n')], true⟩

end CharClass

inductive Pattern where
  | empty
  | char (k : CharClass)
  | lineStart
  | lineEnd
  | sequence (p q : Pattern)
  | choice (p q : Pattern)
  | many (p : Pattern)
deriving DecidableEq, Repr

/-- A place in a line: the number of characters before it, and the characters
from there on. -/
structure Place where
  index : Nat
  rest : List Char
deriving DecidableEq, Repr

namespace Place

def start (line : List Char) : Place := ⟨0, line⟩

/-- The places that steps lead to from any of the places `level`, that many
times or fewer, after those already seen. Only steps that move on are taken. -/
def reach (step : Place → List Place) :
    Nat → List Place → List (List Place) → List Place
  | 0, level, seen => (level :: seen).reverse.flatten
  | fuel + 1, level, seen =>
    if level.isEmpty then seen.reverse.flatten
    else
      let next := level.flatMap fun x => (step x).filter fun y =>
        x.index < y.index
      reach step fuel next (level :: seen)

end Place

namespace Pattern

/-- The places that a match from `x` can end at. -/
def ends : Pattern → Place → List Place
  | empty, x => [x]
  | char k, x =>
    match x.rest with
    | [] => []
    | c :: r => if k.has c then [⟨x.index + 1, r⟩] else []
  | lineStart, x => if x.index = 0 then [x] else []
  | lineEnd, x => if x.rest.isEmpty then [x] else []
  | sequence p q, x => (ends p x).flatMap (ends q)
  | choice p q, x => ends p x ++ ends q x
  | many p, x => Place.reach (ends p) x.rest.length [x] []

/-- Does a match begin at the given place or at a later one? -/
def foundFrom (p : Pattern) (index : Nat) : List Char → Bool
  | [] => !(p.ends ⟨index, []⟩).isEmpty
  | c :: r => !(p.ends ⟨index, c :: r⟩).isEmpty || foundFrom p (index + 1) r

/-- Does the pattern match somewhere in the line? -/
def found (p : Pattern) (line : List Char) : Bool := p.foundFrom 0 line

def some (p : Pattern) : Pattern := sequence p (many p)

def optional (p : Pattern) : Pattern := choice p empty

def all (ps : List Pattern) : Pattern := ps.foldr sequence empty

/-- One of several patterns, which are not none. -/
def oneOf : List Pattern → Pattern
  | [] => empty
  | [p] => p
  | p :: q :: rest => choice p (oneOf (q :: rest))

end Pattern

end ToolLint
