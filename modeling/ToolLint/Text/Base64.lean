import ToolLint.Text.Basic

/-!
# Base64

Bytes written with sixty-four printable ones, four of them for every three.
The last group may stand for one or two bytes; equals signs fill it up. Line
breaks do not count.
-/

namespace ToolLint

namespace Base64

def value? (b : UInt8) : Option Nat :=
  if isUpper b then some (b.toNat - 0x41)
  else if isLower b then some (b.toNat - 0x47)
  else if isDigit b then some (b.toNat + 0x04)
  else if b == ascii '+' then some 62
  else if b == ascii '/' then some 63
  else none

/-- The three bytes that a group of four stands for. -/
def triple? (a b c d : UInt8) : Option Text :=
  match value? a, value? b, value? c, value? d with
  | some w, some x, some y, some z =>
    some [(4 * w + x / 16).toUInt8, (16 * (x % 16) + y / 4).toUInt8,
      (64 * (y % 4) + z).toUInt8]
  | _, _, _, _ => none

/-- The bytes that groups of four stand for. In a group that is filled up the
missing digits count as zero, and the bits that no byte needs are dropped. -/
def groups? : Text → Option Text
  | [] => some []
  | [a, b, 0x3D, 0x3D] => (triple? a b (ascii 'A') (ascii 'A')).map (·.take 1)
  | [a, b, c, 0x3D] => (triple? a b c (ascii 'A')).map (·.take 2)
  | a :: b :: c :: d :: r =>
    match triple? a b c d, groups? r with
    | some x, some y => some (x ++ y)
    | _, _ => none
  | _ => none

def decode? (s : Text) : Option Text :=
  groups? (s.filter fun b => b != lf && b != cr)

example : decode? (utf8 "Zm9v\nYg==") = some (utf8 "foob") := by decide

end Base64

end ToolLint
