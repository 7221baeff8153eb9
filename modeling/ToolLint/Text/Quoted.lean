import ToolLint.Text.Chars
import ToolLint.Text.Printable

/-!
# Quoted text

The form in which messages show a text that may hold anything: between double
quotes, with an escape for the quote, the backslash, and whatever does not
print. Two texts with the same quoted form are equal, so nothing is lost.
-/

namespace ToolLint

namespace Quoted

def hexDigit (n : Nat) : UInt8 :=
  if n < 10 then (0x30 + n).toUInt8 else (0x57 + n).toUInt8

def hex : (digits n : Nat) → Text
  | 0, _ => []
  | digits + 1, n => hex digits (n / 16) ++ [hexDigit (n % 16)]

/-- The letter after the backslash for the controls that have one. -/
def controlLetter? (c : Char) : Option Char :=
  match c.toNat with
  | 0x07 => some 'a'
  | 0x08 => some 'b'
  | 0x09 => some 't'
  | 0x0A => some 'n'
  | 0x0B => some 'v'
  | 0x0C => some 'f'
  | 0x0D => some 'r'
  | _ => none

/-- A character between quotes `q`. -/
def char (q : Char) (c : Char) : Text :=
  if c = q ∨ c = '\\' then ascii '\\' :: encodeChar c
  else if isPrintable c then encodeChar c
  else match controlLetter? c with
    | some l => [ascii '\\', ascii l]
    | none =>
      let n := c.toNat
      if n < 0x80 then utf8 "\\x" ++ hex 2 n
      else if n < 0x10000 then utf8 "\\u" ++ hex 4 n
      else utf8 "\\U" ++ hex 8 n

def piece : Piece → Text
  | .char c => char '"' c
  | .stray b => utf8 "\\x" ++ hex 2 b.toNat

end Quoted

namespace Text

def quoted (s : Text) : Text :=
  ascii '"' :: (s.pieces.flatMap Quoted.piece ++ [ascii '"'])

end Text

def quotedChar (c : Char) : Text :=
  ascii '\'' :: (Quoted.char '\'' c ++ [ascii '\''])

end ToolLint
