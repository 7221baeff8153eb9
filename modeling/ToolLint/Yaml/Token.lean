import ToolLint.Text.Basic
import ToolLint.Yaml.Scalar

/-!
# Tokens of a YAML document

The structure of a document is in its indentation and in its brackets. Both
become tokens: a deeper line opens a block, a shallower one ends it. A key is
known as one only at the colon after it, so the token for it is put in
afterwards, before the tokens of the key.
-/

namespace ToolLint

namespace Yaml

inductive TokenKind where
  | documentStart
  | documentEnd
  | blockSequence
  | blockMapping
  | blockEnd
  | openSequence
  | closeSequence
  | openMapping
  | closeMapping
  | entry
  | comma
  | key
  | value
  /-- The version of the language. -/
  | version (major minor : Nat)
  /-- What a handle of tags stands for. -/
  | handle (name lead : Text)
  | anchor (name : List Char)
  | alias (name : List Char)
  | tag (handle suffix : Text)
  | scalar (text : List Char) (plain : Bool)
  | finish
deriving DecidableEq, Repr

structure Token where
  kind : TokenKind
  mark : Mark
deriving DecidableEq, Repr

/-! ## Tags and directives -/

/-- A character of a tag, as in the address of a page. -/
def isTagChar (c : Char) : Bool :=
  isNameChar c || ";/?:@&=+$,.!~*'()[]".toList.contains c

/-- How many bytes follow the first one of a character. -/
def tailLength? (octet : Nat) : Option Nat :=
  if octet < 0x80 then some 0
  else if 0xC0 ≤ octet && octet < 0xE0 then some 1
  else if 0xE0 ≤ octet && octet < 0xF0 then some 2
  else if 0xF0 ≤ octet && octet < 0xF8 then some 3
  else none

/-- Read the characters of a tag. A byte can be given by two digits after a
percent sign; `tail` is how many more such bytes the character needs. -/
def readTagText (tail : Nat) : List Char → Option (Text × List Char)
  | '%' :: a :: b :: r =>
    match hexValue? a, hexValue? b with
    | some x, some y =>
      let octet := 16 * x + y
      let more :=
        if tail = 0 then tailLength? octet
        else if 0x80 ≤ octet && octet < 0xC0 then some (tail - 1)
        else none
      match more with
      | some n => (readTagText n r).map fun (t, r) => (octet.toUInt8 :: t, r)
      | none => none
    | _, _ => none
  | c :: r =>
    if tail ≠ 0 || c == '%' then none
    else if isTagChar c then
      (readTagText 0 r).map fun (t, r) => (encodeChar c ++ t, r)
    else some ([], c :: r)
  | [] => if tail = 0 then some ([], []) else none

def readSuffix? (cs : List Char) : Option (Text × List Char) :=
  match readTagText 0 cs with
  | some (t, r) => if t.isEmpty then none else some (t, r)
  | none => none

/-- A tag: its handle, its suffix and what follows. A tag between angle brackets
has no handle, nor has the exclamation mark alone. -/
def readTag? : List Char → Option (Text × Text × List Char)
  | '!' :: '<' :: r =>
    match readSuffix? r with
    | some (t, '>' :: r) => some ([], t, r)
    | _ => none
  | '!' :: r =>
    let name := (r.takeWhile isNameChar).flatMap encodeChar
    match r.dropWhile isNameChar with
    | '!' :: r =>
      (readSuffix? r).map fun (t, r) => (utf8 "!" ++ name ++ utf8 "!", t, r)
    | r =>
      (readTagText 0 r).map fun (t, r) =>
        if (name ++ t).isEmpty then ([], utf8 "!", r) else
          (utf8 "!", name ++ t, r)
  | _ => none

def readVersionPart? (cs : List Char) : Option (Nat × List Char) :=
  let ds := cs.takeWhile Char.isDigit
  if ds.isEmpty || 2 < ds.length then none
  else
    some (ds.foldl (fun n d => 10 * n + (d.toNat - 0x30)) 0, cs.drop ds.length)

def readVersion? (cs : List Char) : Option (TokenKind × List Char) :=
  match readVersionPart? cs with
  | some (major, '.' :: r) =>
    (readVersionPart? r).map fun (minor, r) => (.version major minor, r)
  | _ => none

def readHandle? : List Char → Option (TokenKind × List Char)
  | '!' :: r =>
    let name := (r.takeWhile isNameChar).flatMap encodeChar
    let rest := r.dropWhile isNameChar
    let handle :=
      if rest.head? = some '!' then
        some (utf8 "!" ++ name ++ utf8 "!", rest.drop 1)
      else if name.isEmpty then some (utf8 "!", rest)
      else none
    match handle with
    | none => none
    | some (handle, rest) =>
      if (rest.head?.map isBlank).getD false then
        match readSuffix? (rest.dropWhile isBlank) with
        | some (lead, r) =>
          if atGap r then some (.handle handle lead, r) else none
        | none => none
      else none
  | _ => none

/-- A directive after its percent sign. There are two of them. -/
def readDirective? (cs : List Char) : Option (TokenKind × List Char) :=
  let name := cs.takeWhile isNameChar
  let rest := cs.dropWhile isNameChar
  if !atGap rest then none
  else if name = "YAML".toList then readVersion? (rest.dropWhile isBlank)
  else if name = "TAG".toList then readHandle? (rest.dropWhile isBlank)
  else none

/-! ## The state of the reading -/

/-- A place where a key may have begun: the number of tokens before it. A
required key is one that must turn out to be a key, because of its column. -/
structure KeyStart where
  before : Nat
  required : Bool
  mark : Mark
deriving DecidableEq, Repr

structure Scan where
  cursor : Cursor
  tokens : Array Token
  /-- The column of the innermost block, none outside of all blocks; then those
  around it. -/
  indent : Option Nat
  outer : List (Option Nat)
  /-- For each open bracket and for the document, where a key may have begun;
  the innermost first. -/
  keys : List (Option KeyStart)
  /-- May a key begin here? -/
  keyAllowed : Bool

namespace Scan

def start (cs : List Char) : Scan := ⟨.start cs, #[], none, [], [none], true⟩

/-- Inside brackets indentation does not count. -/
def inFlow (s : Scan) : Bool := 1 < s.keys.length

def mark (s : Scan) : Mark := s.cursor.mark

def emit (s : Scan) (kind : TokenKind) : Scan :=
  { s with tokens := s.tokens.push ⟨kind, s.mark⟩ }

def skip (s : Scan) (n : Nat) : Scan := { s with cursor := s.cursor.skipMany n }

/-! ## White space and comments -/

/-- Skip to the next token. Tabs are no indentation. -/
def toToken : Nat → Scan → Scan
  | 0, s => s
  | fuel + 1, s =>
    match s.cursor.rest with
    | [] => s
    | c :: _ =>
      if c == ' ' || (c == '\t' && (s.inFlow || !s.keyAllowed))
          || (c.toNat == 0xFEFF && s.mark.column == 0) then
            toToken fuel (s.skip 1)
      else if c == '#' then toToken fuel { s with cursor := s.cursor.skipLine }
      else if isBreak c then
        toToken fuel { s with
          cursor := s.cursor.skipBreak, keyAllowed := s.keyAllowed || !s.inFlow }
      else s

/-! ## Blocks -/

def deeper (indent : Option Nat) (column : Nat) : Bool :=
  match indent with
  | none => true
  | some i => i < column

/-- Open a block at a column that is deeper than the innermost one; its token
goes to the given position. -/
def openBlock (s : Scan) (column : Nat) (position : Nat) (kind : TokenKind)
    (m : Mark) : Scan :=
  if !s.inFlow && deeper s.indent column then
    { s with
      indent := some column
      outer := s.indent :: s.outer
      tokens := s.tokens.insertIdxIfInBounds position ⟨kind, m⟩ }
  else s

/-- End the blocks that are deeper than a column; all of them if none is given. -/
def endBlocks (column : Option Nat) : Nat → Scan → Scan
  | 0, s => s
  | fuel + 1, s =>
    match s.indent, column with
    | none, _ => s
    | some i, c =>
      if c.all fun column => column < i then
        let s := s.emit .blockEnd
        endBlocks column fuel { s with
          indent := s.outer.head?.join, outer := s.outer.drop 1 }
      else s

/-- End blocks as the column of the next token demands. -/
def toColumn (s : Scan) (column : Option Nat) : Scan :=
  if s.inFlow then s else endBlocks column (s.outer.length + 1) s

/-! ## Keys -/

/-- Forget where a key may have begun. A required one may not be forgotten. -/
def dropKey (s : Scan) : Option Scan :=
  match s.keys with
  | some k :: rest =>
    if k.required then none else some { s with keys := none :: rest }
  | _ => some s

/-- Note that a key may begin here. -/
def noteKey (s : Scan) : Option Scan :=
  if s.keyAllowed then
    (s.dropKey).map fun s =>
      let required := !s.inFlow && s.indent == some s.mark.column
      { s with keys := some ⟨s.tokens.size, required, s.mark⟩ :: s.keys.drop 1 }
  else some s

/-- A key is on one line and at most this long. -/
def longestKey : Nat := 1024

/-- Where the key before a colon began, if there can be one. -/
def keyHere (s : Scan) : Option (Option KeyStart) :=
  match s.keys with
  | some k :: _ =>
    if k.mark.line < s.mark.line || k.mark.index + longestKey < s.mark.index then
      if k.required then none else some none
    else some (some k)
  | _ => some none

/-! ## One token -/

def border (s : Scan) (kind : TokenKind) : Option Scan :=
  (s.toColumn none).dropKey.map fun s =>
    ({ s with keyAllowed := false }.emit kind).skip 3

def openFlow (s : Scan) (kind : TokenKind) : Option Scan :=
  s.noteKey.map fun s =>
    { ((s.emit kind).skip 1) with keys := none :: s.keys, keyAllowed := true }

def closeFlow (s : Scan) (kind : TokenKind) : Option Scan :=
  s.dropKey.map fun s =>
    { ((s.emit kind).skip 1) with
      keys := if s.inFlow then s.keys.drop 1 else s.keys
      keyAllowed := false }

def flowComma (s : Scan) : Option Scan :=
  s.dropKey.map fun s => { ((s.emit .comma).skip 1) with keyAllowed := true }

def blockEntry (s : Scan) : Option Scan :=
  if !s.inFlow && !s.keyAllowed then none
  else
    let s := s.openBlock s.mark.column s.tokens.size .blockSequence s.mark
    s.dropKey.map fun s => { ((s.emit .entry).skip 1) with keyAllowed := true }

def explicitKey (s : Scan) : Option Scan :=
  if !s.inFlow && !s.keyAllowed then none
  else
    let s := s.openBlock s.mark.column s.tokens.size .blockMapping s.mark
    s.dropKey.map fun s => { ((s.emit .key).skip 1) with keyAllowed := !s.inFlow }

def colon (s : Scan) : Option Scan :=
  match s.keyHere with
  | none => none
  | some (some k) =>
    let s :=
      { s with tokens := s.tokens.insertIdxIfInBounds k.before ⟨.key, k.mark⟩ }
    let s := s.openBlock k.mark.column k.before .blockMapping k.mark
    let s := { s with keys := none :: s.keys.drop 1, keyAllowed := false }
    some ((s.emit .value).skip 1)
  | some none =>
    if !s.inFlow && !s.keyAllowed then none
    else
      let s := s.openBlock s.mark.column s.tokens.size .blockMapping s.mark
      let s := { s with keys := none :: s.keys.drop 1 }
      some { ((s.emit .value).skip 1) with keyAllowed := !s.inFlow }

def named (s : Scan) (kind : List Char → TokenKind) : Option Scan :=
  s.noteKey.bind fun s =>
    let r := s.cursor.rest.drop 1
    let name := r.takeWhile isNameChar
    let after := r.dropWhile isNameChar
    let closed := atGap after || (after.head?.map fun c =>
      c == '?' || c == ':' || c == ',' || c == ']' || c == '\x7d' ||
        c == '%' || c == '@'
        || c.toNat == 0x60).getD false
    if name.isEmpty || !closed then none
    else some { ((s.emit (kind name)).skip (name.length + 1)) with
      keyAllowed := false }

def quoted (s : Scan) (single : Bool) : Option Scan :=
  s.noteKey.bind fun s =>
    match readQuoted single (s.cursor.rest.length + 2) [] s.cursor.skip with
    | none => none
    | some (text, next) =>
      some { (s.emit (.scalar text false)) with
        cursor := next, keyAllowed := false }

def plain (s : Scan) : Option Scan :=
  s.noteKey.bind fun s =>
    let least := (s.indent.map (· + 1)).getD 0
    match readPlain s.inFlow least (s.cursor.rest.length + 2)
      [] .empty s.cursor with
    | none => none
    | some p =>
      some { (s.emit (.scalar p.text true)) with
        cursor := p.next, keyAllowed := p.crossed }

/-- A block scalar. It is no key, but one may follow it. -/
def block (s : Scan) (folded : Bool) : Option Scan :=
  s.dropKey.bind fun s =>
    (readBlock folded s.indent s.cursor.skip).map fun (text, next) =>
      { (s.emit (.scalar text false)) with cursor := next, keyAllowed := true }

def tag (s : Scan) : Option Scan :=
  s.noteKey.bind fun s =>
    match readTag? s.cursor.rest with
    | none => none
    | some (handle, suffix, after) =>
      let taken := s.cursor.rest.length - after.length
      if atGap after then
        some { ((s.emit (.tag handle suffix)).skip taken) with
          keyAllowed := false }
      else none

/-- A directive takes its whole line. -/
def directive (s : Scan) : Option Scan :=
  match readDirective? (s.cursor.rest.drop 1) with
  | none => none
  | some (kind, after) =>
    if endsLine after then
      (s.toColumn none).dropKey.map fun s =>
        { (s.emit kind) with
          cursor := s.cursor.toNextLine, keyAllowed := false }
    else none

/-- The characters that cannot begin a plain scalar, unless one of the first
three is followed by a word. -/
def isIndicator (c : Char) : Bool :=
  "-?:,[]\x7b\x7d#&*!|>'\"%@".toList.contains c || c.toNat == 0x60

def beginsPlain (s : Scan) (c : Char) (r : List Char) : Bool :=
  !(isIndicator c || isBlank c || isBreak c) ||
    (c == '-' && !(r.head?.map isBlank).getD false)
    || (!s.inFlow && (c == '?' || c == ':') && !atGap r)

/-- Read one token; nothing if there is none that could stand here. The cursor
is at its beginning. -/
def token (s : Scan) (c : Char) (r : List Char) : Option Scan :=
  if s.cursor.atMarker '-' then s.border .documentStart
  else if s.cursor.atMarker '.' then s.border .documentEnd
  else if s.mark.column == 0 && c == '%' then s.directive
  else match c with
    | '[' => s.openFlow .openSequence
    | '\x7b' => s.openFlow .openMapping
    | ']' => s.closeFlow .closeSequence
    | '\x7d' => s.closeFlow .closeMapping
    | ',' => s.flowComma
    | '*' => s.named .alias
    | '&' => s.named .anchor
    | '\'' => s.quoted true
    | '"' => s.quoted false
    | '!' => s.tag
    | _ =>
      if c == '-' && atGap r then s.blockEntry
      else if c == '?' && (s.inFlow || atGap r) then s.explicitKey
      else if c == ':' && (s.inFlow || atGap r) then s.colon
      else if c == '|' && !s.inFlow then s.block false
      else if c == '>' && !s.inFlow then s.block true
      else if s.beginsPlain c r then s.plain
      else none

end Scan

/-- The tokens of a document, up to the first place where none can be read, and
whether there is one. -/
structure Tokens where
  list : List Token
  broken : Bool
deriving Repr

def scanFrom : Nat → Scan → Tokens
  | 0, s => ⟨s.tokens.toList, true⟩
  | fuel + 1, s =>
    let s := Scan.toToken (fuel + 1) s
    let s := s.toColumn (some s.mark.column)
    match s.cursor.rest with
    | [] =>
      match (s.toColumn none).dropKey with
      | some s => ⟨(s.emit .finish).tokens.toList, false⟩
      | none => ⟨s.tokens.toList, true⟩
    | c :: r =>
      match s.token c r with
      | some s => scanFrom fuel s
      | none => ⟨s.tokens.toList, true⟩

def scan (cs : List Char) : Tokens := scanFrom (cs.length + 2) (.start cs)

end Yaml

end ToolLint
