import ToolLint.Text.Base64
import ToolLint.Text.Decimal

/-!
# What a node is

The tag of a node says what it is. It can be written before the node. A scalar
without a tag and without quotes is what its text looks like: nothing, a truth
value, a number, a date. The rules take every scalar as text, but nothing
written stays nothing, a scalar has to fit its tag, and a binary one stands for
the bytes that its text encodes.
-/

namespace ToolLint

namespace Yaml

inductive Tag where
  | null
  | bool
  | int
  | float
  | timestamp
  | binary
  | merge
  | str
  | seq
  | map
  | other (name : Text)
deriving DecidableEq, Repr

namespace Tag

def label : Tag → Text
  | .null => utf8 "!!null"
  | .bool => utf8 "!!bool"
  | .int => utf8 "!!int"
  | .float => utf8 "!!float"
  | .timestamp => utf8 "!!timestamp"
  | .binary => utf8 "!!binary"
  | .merge => utf8 "!!merge"
  | .str => utf8 "!!str"
  | .seq => utf8 "!!seq"
  | .map => utf8 "!!map"
  | .other name => name

def known : List Tag :=
  [.null, .bool, .int, .float, .timestamp, .binary, .merge, .str, .seq, .map]

/-- What the names of the known tags begin with. -/
def space : Text := utf8 "tag:yaml.org,2002:"

/-- The tag with a name, in its long or in its short form. -/
def ofName (name : Text) : Tag :=
  let short := match Text.after? space name with
    | some r => utf8 "!!" ++ r
    | none => name
  (known.find? fun t => t.label == short).getD (.other short)

/-! ## Numbers -/

def unsigned : Text → Text
  | 0x2B :: r => r
  | 0x2D :: r => r
  | s => s

/-- The value of a digit, up to base sixteen. -/
def digit? (b : UInt8) : Option Nat :=
  if isDigit b then some (b.toNat - 0x30)
  else if 0x61 ≤ b && b ≤ 0x66 then some (b.toNat - 0x57)
  else if 0x41 ≤ b && b ≤ 0x46 then some (b.toNat - 0x37)
  else none

/-- The value of digits to a base; nothing if there are none, or one of them is
none. -/
def digits? (base : Nat) (s : Text) : Option Nat :=
  if s.isEmpty then none
  else s.foldl (fun n b => n.bind fun n => (digit? b).bind fun d =>
    if d < base then some (base * n + d) else none) (some 0)

/-- The size of a number, written to base ten or with a mark for its base. -/
def magnitude? : Text → Option Nat
  | 0x30 :: b :: r =>
    if b == ascii 'x' || b == ascii 'X' then digits? 16 r
    else if b == ascii 'b' || b == ascii 'B' then digits? 2 r
    else if b == ascii 'o' || b == ascii 'O' then digits? 8 r
    else digits? 8 (b :: r)
  | s => digits? 10 s

/-- Is this an integer that fits into 64 bits with a sign? -/
def isSigned : Text → Bool
  | 0x2D :: r => (magnitude? r).any (· ≤ Decimal.halfModulus)
  | 0x2B :: r => (magnitude? r).any (· < Decimal.halfModulus)
  | s => (magnitude? s).any (· < Decimal.halfModulus)

/-- Is this an integer that fits into 64 bits? Only one without a sign can need
all of them. -/
def isInt (s : Text) : Bool :=
  isSigned s || (magnitude? s).any (· < Decimal.modulus)

/-- Is this the exponent of a number, or nothing? -/
def isExponent : Text → Bool
  | [] => true
  | b :: r =>
    (b == ascii 'e' || b == ascii 'E') && !(unsigned r).isEmpty &&
      (unsigned r).all isDigit

/-- Is this a number with a point or an exponent? -/
def isFloat (s : Text) : Bool :=
  let s := unsigned s
  let whole := s.takeWhile isDigit
  match s.dropWhile isDigit with
  | 0x2E :: r =>
    let fraction := r.takeWhile isDigit
    !(whole.isEmpty && fraction.isEmpty) && isExponent (r.dropWhile isDigit)
  | r => !whole.isEmpty && isExponent r

/-! ## Dates -/

/-- One or two digits at the beginning of a text. -/
def shortNumber? (s : Text) : Option (Nat × Text) :=
  let ds := (s.take 2).takeWhile isDigit
  (digits? 10 ds).map fun n => (n, s.drop ds.length)

def isLeapYear (y : Nat) : Bool := y % 4 == 0 && (y % 100 != 0 || y % 400 == 0)

def daysIn (year month : Nat) : Nat :=
  if month == 2 then (if isLeapYear year then 29 else 28)
  else if month == 4 || month == 6 || month == 9 || month == 11 then 30
  else 31

/-- What follows a date: year, month and day with hyphens between them. -/
def afterDate? (s : Text) : Option Text :=
  let year := s.takeWhile isDigit
  match year.length, s.drop 4 with
  | 4, 0x2D :: r =>
    match shortNumber? r with
    | some (month, 0x2D :: r) =>
      match shortNumber? r with
      | some (day, r) =>
        if 1 ≤ month && month ≤ 12 && 1 ≤ day
          && day ≤ daysIn ((digits? 10 year).getD 0) month then some r else none
      | none => none
    | _ => none
  | _, _ => none

def afterFraction : Text → Text
  | b :: d :: r =>
    if (b == ascii '.' || b == ascii ',') && isDigit d then r.dropWhile isDigit
    else b :: d :: r
  | s => s

/-- What follows a time: hour, minute and second with colons between them. -/
def afterTime? (s : Text) : Option Text :=
  match shortNumber? s with
  | some (hour, 0x3A :: r) =>
    match shortNumber? r with
    | some (minute, 0x3A :: r) =>
      match shortNumber? r with
      | some (second, r) =>
        if hour < 24 && minute < 60 && second < 60 then some (afterFraction r)
        else none
      | none => none
    | _ => none
  | _ => none

/-- Is this how far a place is from the first meridian? -/
def isZone : Text → Bool
  | [0x5A] => true
  | [b, h, i, 0x3A, m, n] =>
    (b == ascii '+' || b == ascii '-') && [h, i, m, n].all isDigit
      && (digits? 10 [h, i]).any (· ≤ 24) && (digits? 10 [m, n]).any (· ≤ 60)
  | _ => false

/-- Is this a date, alone or with a time? After a letter the time has a zone,
after blanks it has none. -/
def isTimestamp (s : Text) : Bool :=
  match afterDate? s with
  | none => false
  | some [] => true
  | some (b :: r) =>
    if b == ascii 'T' || b == ascii 't' then (afterTime? r).any isZone
    else b == ToolLint.space
      && (afterTime? (r.dropWhile (· == ToolLint.space))).any List.isEmpty

/-! ## Scalars -/

def nulls : List Text :=
  [utf8 "", utf8 "~", utf8 "null", utf8 "Null", utf8 "NULL"]

def bools : List Text :=
  [utf8 "true", utf8 "True", utf8 "TRUE", utf8 "false", utf8 "False",
    utf8 "FALSE"]

def namedFloats : List Text :=
  [utf8 ".nan", utf8 ".NaN", utf8 ".NAN", utf8 ".inf", utf8 ".Inf", utf8 ".INF",
    utf8 "+.inf", utf8 "+.Inf", utf8 "+.INF", utf8 "-.inf", utf8 "-.Inf",
      utf8 "-.INF"]

/-- May a number begin with this byte? -/
def beginsNumber (b : UInt8) : Bool :=
  isDigit b || b == ascii '+' || b == ascii '-'

/-- A number without the marks that set its digits apart. -/
def withoutMarks (s : Text) : Text := s.filter (· != ascii '_')

/-- What a plain scalar looks like. -/
def ofPlain (s : Text) : Tag :=
  if nulls.contains s then .null
  else if bools.contains s then .bool
  else if namedFloats.contains s then .float
  else if s = utf8 "<<" then .merge
  else match s with
    | [] => .null
    | b :: _ =>
      if b == ascii '.' then (if isFloat s then .float else .str)
      else if beginsNumber b then
        let plain := withoutMarks s
        if isTimestamp s then .timestamp
        else if isInt plain then .int
        else if isFloat plain then .float
        else .str
      else .str

/-- What a node is. It is as it looks if no tag is written, or the one that
leaves it open. -/
def ofWritten (name : Option Text) (look : Tag) : Tag :=
  match name with
  | none => look
  | some name => if name = utf8 "!" then look else ofName name

/-- What a scalar stands for: a text, or nothing. A scalar that does not fit its
tag stands for neither. -/
def value? (tag : Tag) (s : Text) : Option (Option Text) :=
  match tag with
  | .null => if ofPlain s = .null then some none else none
  | .bool | .int | .timestamp =>
    if ofPlain s = tag then some (some s) else none
  | .float =>
    if ofPlain s = .float ∨ (ofPlain s = .int ∧ isSigned (withoutMarks s)) then
      some (some s)
    else none
  | .binary => (Base64.decode? s).map some
  | .merge | .str | .seq | .map | .other _ => some (some s)

/-- Is a scalar of this kind text for every reader, also for one that takes
scalars as what they look like? -/
def isText : Tag → Bool
  | .null | .bool | .int | .float | .timestamp => false
  | .binary | .merge | .str | .seq | .map | .other _ => true

end Tag

end Yaml

end ToolLint
