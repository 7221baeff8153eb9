import ToolLint.Text.Lines
import ToolLint.Pattern.Reader

/-!
# Helper modules

A tool carries copies of the modules it uses. Each copy is announced by a
comment line, and a module counts as constructed if some expression of the tool
calls its `new`.
-/

namespace ToolLint

namespace Module

/-! ## Announcements -/

/-- May these bytes follow the first byte of a module name? They are words with
double colons between them. -/
def isNameRest : Text → Bool
  | [] => true
  | 0x3A :: 0x3A :: b :: s => isWord b && isNameRest s
  | b :: s => isWord b && isNameRest s

/-- A module name is a word that does not start with a digit, and possibly more
words after double colons. -/
def isName : Text → Bool
  | [] => false
  | b :: s => (isLetter b || b == ascii '_') && isNameRest s

def isNameByte (b : UInt8) : Bool := isWord b || b == ascii ':'

/-- The announcement that a text begins with, `# NAME package` with any number of
blanks up to the end of the line: the module and the number of bytes. -/
def announcement? (s : Text) : Option (Text × Nat) :=
  match Text.after? (utf8 "# ") s with
  | none => none
  | some r =>
    let name := r.takeWhile isNameByte
    match Text.after? (utf8 " package") (r.dropWhile isNameByte) with
    | none => none
    | some r =>
      let rest := r.dropWhile isSpaceOrTab
      if isName name && rest.head?.all (· == lf) then
        some (name, s.length - rest.length)
      else none

/-- The modules of the announcements in a text, from left to right. `fresh` says
whether a line begins here. The first `taken` bytes belong to the announcement
that was found last. -/
def announcementsFrom (fresh : Bool) (taken : Nat) : Text → List Text
  | [] => []
  | b :: s =>
    match taken with
    | k + 1 => announcementsFrom (b == lf) k s
    | 0 =>
      match if fresh then announcement? (b :: s) else none with
      | some (name, n) => name :: announcementsFrom (b == lf) (n - 1) s
      | none => announcementsFrom (b == lf) 0 s

/-- The modules that a text announces, each once, in order. -/
def declared (text : Text) : List Text :=
  (announcementsFrom true 0 text).eraseDups

/-! ## Constructions -/

/-- Does the text begin with gaps and an opening parenthesis or a semicolon? -/
def opensCall (s : Text) : Bool :=
  match s.dropWhile isGap with
  | [] => false
  | b :: _ => b == ascii '(' || b == ascii ';'

/-- Does the text begin with `new NAME` and the beginning of a call? -/
def beginsNew (name : List Char) (s : Text) : Bool :=
  match Text.after? (utf8 "new") s with
  | none => false
  | some r =>
    Text.afterSome isGap
      (fun t => ((t.afterChars? name).map opensCall).getD false) r

/-- Does the text begin with `NAME->new` as a whole word? -/
def beginsArrow (name : List Char) (s : Text) : Bool :=
  match (s.afterChars? name).bind (Text.after? (utf8 "->new")) with
  | none => false
  | some [] => true
  | some (b :: _) => !isWord b

/-- Does a construction begin at this place of a text, where `before` is the
character before it? -/
def beginsConstruction (name : List Char) (before : Option Char) (s : Text) :
    Bool :=
  let wordBefore := before.any fun c => c.isAlphanum || c == '_'
  let nameBefore := wordBefore || before == some ':'
  (!wordBefore && beginsNew name s) || (!nameBefore && beginsArrow name s)

/-- Does a construction begin at this place or at that of a later character? -/
def constructedFrom (name : List Char) (before : Option Char) (s : Text) : Bool :=
  match _h : s.next? with
  | none => beginsConstruction name before s
  | some (p, r) =>
    beginsConstruction name before s || constructedFrom name (some p.toChar) r
termination_by s.length
decreasing_by exact Text.length_lt_of_next? _h

def constructed (text name : Text) : Bool := constructedFrom name.chars none text

/-- The search expression for constructions, as it is shown when the name is no
text. -/
def constructionPattern (name : Text) : Text :=
  let q := Pattern.escape name
  utf8 "\\bnew\\s+" ++ q ++ utf8 "\\s*[(;]|(^|[^A-Za-z0-9_:])" ++ q ++
    utf8 "->new\\b"

/-- Why no construction of the module can be searched for: its name is no text. -/
def rejection? (name : Text) : Option Text :=
  Pattern.rejection? (constructionPattern name)

end Module

end ToolLint
