import ToolLint.Text.Basic

/-!
# Decimal numbers

Numbers are read as 64-bit integers: an optional sign and decimal digits.
Reading goes from left to right, so of a text that is both too large and
malformed the fault that comes first is told. Written numbers have no leading
zero and no plus sign.
-/

namespace ToolLint

inductive NumberFault where
  | syntaxError
  | outOfRange
deriving DecidableEq, Repr

namespace Decimal

/-- How many numbers 64 bits can hold. -/
def modulus : Nat := 0x10000000000000000

/-- Half of them are negative. -/
def halfModulus : Nat := 0x8000000000000000

def digitValue (b : UInt8) : Nat := b.toNat - 0x30

/-- The value of a list of digits, most significant first. -/
def value (ds : Text) : Nat := ds.foldl (fun n b => 10 * n + digitValue b) 0

/-- Read an unsigned number that 64 bits hold. The digits that come before the
first other byte decide: if their value is already too large, the rest is not
looked at. -/
def readMagnitude (s : Text) : Except NumberFault Nat :=
  let ds := s.takeWhile isDigit
  if modulus ≤ value ds then .error .outOfRange
  else if ds.isEmpty || ds.length != s.length then .error .syntaxError
  else .ok (value ds)

/-- Read a number that 64 bits hold, with or without a sign. -/
def read (s : Text) : Except NumberFault Int :=
  match s with
  | 0x2D :: r => do
    let n ← readMagnitude r
    if n ≤ halfModulus then .ok (-(n : Int)) else .error .outOfRange
  | 0x2B :: r => do
    let n ← readMagnitude r
    if n < halfModulus then .ok n else .error .outOfRange
  | _ => do
    let n ← readMagnitude s
    if n < halfModulus then .ok n else .error .outOfRange

def ofNat (n : Nat) : Text := (Nat.toDigits 10 n).map ascii

/-- A number in decimal digits, with a minus sign if it is negative. -/
def ofInt : Int → Text
  | .ofNat n => ofNat n
  | .negSucc n => ascii '-' :: ofNat (n + 1)

end Decimal

/-- A sum as a 64-bit register holds it. -/
def wrapSum (a b : Int) : Int := Int.bmod (a + b) Decimal.modulus

end ToolLint
