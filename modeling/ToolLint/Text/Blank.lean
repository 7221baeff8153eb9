import ToolLint.Text.Basic

/-!
# White space around a text

The white-space characters are those of Unicode. `Text.trim` removes them at
both ends of a text. They are removed as whole characters: a byte that is only
part of a white-space form stays.
-/

namespace ToolLint

/-- The white-space characters. -/
def whiteSpace : List Char :=
  [0x09, 0x0A, 0x0B, 0x0C, 0x0D, 0x20, 0x85, 0xA0, 0x1680,
    0x2000, 0x2001, 0x2002, 0x2003, 0x2004, 0x2005, 0x2006, 0x2007, 0x2008,
      0x2009, 0x200A,
    0x2028, 0x2029, 0x202F, 0x205F, 0x3000].map Char.ofNat

def whiteForms : List Text := whiteSpace.map encodeChar

namespace Text

/-- What follows a form at the beginning of the text, if one of the given forms
stands there. -/
def afterForm? (forms : List Text) (s : Text) : Option Text :=
  forms.findSome? fun f => if f.isEmpty then none else Text.after? f s

theorem length_lt_of_afterForm? {forms : List Text} {s r : Text}
    (h : afterForm? forms s = some r) : r.length < s.length := by
  obtain ⟨f, -, hf⟩ := List.exists_of_findSome?_eq_some h
  split at hf
  · simp at hf
  · next hne =>
    rw [after?_eq_some_iff] at hf
    cases f with
    | nil => simp at hne
    | cons b f => simp only [hf, List.length_append, List.length_cons]; omega

/-- The text without the given forms at its beginning. -/
def dropForms (forms : List Text) (s : Text) : Text :=
  match _h : afterForm? forms s with
  | some r => dropForms forms r
  | none => s
termination_by s.length
decreasing_by exact length_lt_of_afterForm? _h

def trimStart (s : Text) : Text := dropForms whiteForms s

def trimEnd (s : Text) : Text :=
  (dropForms (whiteForms.map List.reverse) s.reverse).reverse

def trim (s : Text) : Text := s.trimStart.trimEnd

end Text

end ToolLint
