import ToolLint.Pattern.Reader

/-!
# The main package

The code of a tool itself, as opposed to that of the modules it carries, begins
with the line that opens the package named after the tool.
-/

namespace ToolLint

namespace Package

/-- Does the text begin with the line that opens the package: `package`, gaps,
the name, and a semicolon? -/
def opensHere (name : List Char) (s : Text) : Bool :=
  match Text.after? (utf8 "package") s with
  | none => false
  | some r =>
    Text.afterSome isSpaceOrTab (fun t =>
      match t.afterChars? name with
      | none => false
      | some u =>
        match u.dropWhile isSpaceOrTab with
        | [] => false
        | b :: _ => b == ascii ';') r

/-- The rest of the text from the first line start where `p` holds; `here` says
whether this is one. -/
def fromLine? (p : Text → Bool) (here : Bool) : Text → Option Text
  | [] => if here && p [] then some [] else none
  | b :: s =>
    if here && p (b :: s) then some (b :: s) else fromLine? p (b == lf) s

/-- The part of a text that begins with the package of the given name. -/
def region? (text name : Text) : Option Text :=
  fromLine? (opensHere name.chars) true text

/-- The search expression for the package line, as it is shown when the name is
no text. -/
def openingPattern (name : Text) : Text :=
  utf8 "(?m)^package[ \\t]+" ++ Pattern.escape name ++ utf8 "[ \\t]*;"

/-- Why the package cannot be searched for: its name is no text. -/
def rejection? (name : Text) : Option Text :=
  Pattern.rejection? (openingPattern name)

end Package

end ToolLint
