import ToolLint.Text.Chars

/-!
# Characters of a YAML document

A document is a sequence of characters. It is written in UTF-8, or in UTF-16 if
it begins with the mark that shows the order of its bytes.
-/

namespace ToolLint

namespace Yaml

/-- The units of a text in UTF-16, each from two bytes. -/
def units? (lowFirst : Bool) : Text → Option (List Nat)
  | [] => some []
  | [_] => none
  | a :: b :: r =>
    let unit :=
      if lowFirst then a.toNat + 0x100 * b.toNat else 0x100 * a.toNat + b.toNat
    (units? lowFirst r).map (unit :: ·)

def isHighSurrogate (n : Nat) : Bool := 0xD800 ≤ n && n < 0xDC00

def isLowSurrogate (n : Nat) : Bool := 0xDC00 ≤ n && n < 0xE000

/-- The characters that units stand for; two surrogates make one. -/
def ofUnits? : List Nat → Option (List Char)
  | [] => some []
  | [n] =>
    if isHighSurrogate n || isLowSurrogate n then none else some [Char.ofNat n]
  | n :: m :: r =>
    if isLowSurrogate n then none
    else if isHighSurrogate n then
      if isLowSurrogate m then
        (ofUnits? r).map
          (Char.ofNat (0x10000 + 0x400 * (n - 0xD800) + (m - 0xDC00)) :: ·)
      else none
    else (ofUnits? (m :: r)).map (Char.ofNat n :: ·)

/-- The characters of a document, without the mark of its encoding. -/
def characters? : Text → Option (List Char)
  | 0xFF :: 0xFE :: r => (units? true r).bind ofUnits?
  | 0xFE :: 0xFF :: r => (units? false r).bind ofUnits?
  | text =>
    let cs := text.chars
    if !text.isValid then none
    else if cs.head?.map Char.toNat == some 0xFEFF then some (cs.drop 1)
    else some cs

end Yaml

end ToolLint
