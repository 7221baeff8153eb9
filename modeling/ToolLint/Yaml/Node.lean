import ToolLint.Yaml.Characters
import ToolLint.Yaml.Tag
import ToolLint.Yaml.Token

/-!
# Nodes of a YAML document

A document is a tree of scalars, sequences and mappings. Each node knows its line
and what it is. An alias stands for the node with the anchor of that name that
began last before it, and has to come after its end. Only the first document of a
text is read.
-/

namespace ToolLint

namespace Yaml

/-- A node, with its line counted from 1. -/
inductive Node where
  | scalar (line : Nat) (tag : Tag) (text : Text)
  | sequence (line : Nat) (tag : Tag) (items : List Node)
  | mapping (line : Nat) (tag : Tag) (pairs : List (Node × Node))
  | alias (line : Nat) (name : Text) (target : Node)
deriving Repr

/-- The nodes that can be named, in the order in which they began. One that has
not ended yet is not there. -/
abbrev Anchors : Type := List (List Char × Option Node)

/-- The state of the reading of nodes: the tokens to come, whether no more could
be read after them, the anchors so far, and what the handles of tags stand for. -/
structure Reading where
  tokens : List Token
  broken : Bool
  anchors : Anchors
  handles : List (Text × Text)

/-- Reading nodes can fail and leaves a later state. -/
abbrev Read (α : Type) : Type := Reading → Option (α × Reading)

namespace Reading

/-- How many tokens are looked at before one of them is taken. -/
def lookAhead : Nat := 3

/-- The next token. It is only there if those looked at with it could be read. -/
def peek (r : Reading) : Option Token :=
  if r.broken && r.tokens.length < lookAhead then none else r.tokens.head?

def skip (r : Reading) : Reading := { r with tokens := r.tokens.drop 1 }

def named? (r : Reading) (name : List Char) : Option Node :=
  (r.anchors.reverse.lookup name).join

/-- Note that the node with this anchor begins. -/
def begin (r : Reading) (anchor : Option (List Char)) : Reading :=
  match anchor with
  | some a => { r with anchors := r.anchors ++ [(a, none)] }
  | none => r

/-- The name of a tag with its handle written out. -/
def tagName? (r : Reading) (handle suffix : Text) : Option Text :=
  if handle.isEmpty then some suffix
  else (r.handles.lookup handle).map (· ++ suffix)

end Reading

structure Properties where
  anchor : Option (List Char)
  tag : Option Text
deriving DecidableEq, Repr

/-- Read an anchor and a tag, in either order, as far as they are there. -/
def readProperties (r : Reading) : Option (Properties × Reading) :=
  match r.peek.map Token.kind with
  | some (.anchor name) =>
    match r.skip.peek.map Token.kind with
    | some (.tag handle suffix) =>
      (r.tagName? handle suffix).map fun tag =>
        (⟨some name, some tag⟩, r.skip.skip)
    | _ => some (⟨some name, none⟩, r.skip)
  | some (.tag handle suffix) =>
    (r.tagName? handle suffix).map fun tag =>
      match r.skip.peek.map Token.kind with
      | some (.anchor name) => (⟨some name, some tag⟩, r.skip.skip)
      | _ => (⟨none, some tag⟩, r.skip)
  | _ => some (⟨none, none⟩, r)

def scalarNode (m : Mark) (tag : Option Text) (text : Text) (plain : Bool) :
    Node :=
  .scalar (m.line + 1)
    (.ofWritten tag (if plain then .ofPlain text else .str)) text

/-- A node that is not written: nothing. -/
def emptyNode (m : Mark) : Node := scalarNode m none [] true

/-- Give a node that has ended its anchor, if it has one; `place` is the number of
anchors that began before it. -/
def bindAnchor (anchor : Option (List Char)) (place : Nat) (n : Node)
    (r : Reading) : Node × Reading :=
  match anchor with
  | some a => (n, { r with anchors := r.anchors.set place (a, some n) })
  | none => (n, r)

/-- Where a node stands, which says what can end it. -/
inductive Position where
  | block
  | blockValue
  | flow
deriving DecidableEq, Repr

mutual

/-- Read a node. In the place of a value a sequence need not be indented. -/
def readNode : Nat → Position → Read Node
  | 0, _, _ => none
  | fuel + 1, position, r =>
    match r.peek with
    | none => none
    | some t =>
      match t.kind with
      | .alias name =>
        (r.named? name).map fun n =>
          (.alias (t.mark.line + 1) (name.flatMap encodeChar) n, r.skip)
      | _ =>
        match readProperties r with
        | none => none
        | some (p, s) => readContent fuel position p t.mark s

/-- Read what follows the properties of a node; `m` is where the node began. -/
def readContent : Nat → Position → Properties → Mark → Read Node
  | 0, _, _, _, _ => none
  | fuel + 1, position, p, m, r =>
    match r.peek with
    | none => none
    | some t =>
      let place := r.anchors.length
      let r := r.begin p.anchor
      let sequence := fun (items, r) =>
        bindAnchor p.anchor place
          (.sequence (m.line + 1) (.ofWritten p.tag .seq) items) r
      let mapping := fun (pairs, r) =>
        bindAnchor p.anchor place
          (.mapping (m.line + 1) (.ofWritten p.tag .map) pairs) r
      match t.kind, position with
      | .scalar text plain, _ =>
        let n := scalarNode m p.tag (text.flatMap encodeChar) plain
        some (bindAnchor p.anchor place n r.skip)
      | .openSequence, _ => (readFlowItems fuel true [] r.skip).map sequence
      | .openMapping, _ => (readFlowPairs fuel true [] r.skip).map mapping
      | .entry, .blockValue => (readItems fuel false [] r).map sequence
      | .blockSequence, .block | .blockSequence, .blockValue =>
        (readItems fuel true [] r.skip).map sequence
      | .blockMapping, .block | .blockMapping, .blockValue =>
        (readPairs fuel [] r.skip).map mapping
      | _, _ =>
        if p.anchor.isSome || p.tag.isSome then
          some (bindAnchor p.anchor place (scalarNode m p.tag [] true) r)
        else none

/-- Read the items of a block sequence after those already read (in reverse).
One that is indented ends with its block; one that is not ends at the first
token that is no item. -/
def readItems : Nat → Bool → List Node → Read (List Node)
  | 0, _, _, _ => none
  | fuel + 1, indented, done, r =>
    match r.peek with
    | none => none
    | some t =>
      if t.kind = .entry then
        let r := r.skip
        match r.peek with
        | none => none
        | some u =>
          let missing := u.kind = .entry ∨ u.kind = .blockEnd
            ∨ (!indented ∧ (u.kind = .key ∨ u.kind = .value))
          if missing then readItems fuel indented (emptyNode t.mark :: done) r
          else
            match readNode fuel .block r with
            | none => none
            | some (n, r) => readItems fuel indented (n :: done) r
      else if !indented then some (done.reverse, r)
      else if t.kind = .blockEnd then some (done.reverse, r.skip)
      else none

/-- Read the pairs of a block mapping after those already read (in reverse). -/
def readPairs : Nat → List (Node × Node) → Read (List (Node × Node))
  | 0, _, _ => none
  | fuel + 1, done, r =>
    match r.peek with
    | none => none
    | some t =>
      if t.kind = .blockEnd then some (done.reverse, r.skip)
      else if t.kind = .key then
        match readBlockPart fuel t.mark r.skip with
        | none => none
        | some (k, r) =>
          match r.peek with
          | none => none
          | some u =>
            if u.kind = .value then
              match readBlockPart fuel u.mark r.skip with
              | none => none
              | some (v, r) => readPairs fuel ((k, v) :: done) r
            else readPairs fuel ((k, emptyNode u.mark) :: done) r
      else none

/-- Read a key or a value of a block mapping, which may be missing; `m` is where
it would be. -/
def readBlockPart : Nat → Mark → Read Node
  | 0, _, _ => none
  | fuel + 1, m, r =>
    match r.peek with
    | none => none
    | some t =>
      if t.kind = .key ∨ t.kind = .value ∨ t.kind = .blockEnd then
        some (emptyNode m, r)
      else readNode fuel .blockValue r

/-- Read the items between square brackets after those already read (in
reverse). A pair among them is a mapping of its own. -/
def readFlowItems : Nat → Bool → List Node → Read (List Node)
  | 0, _, _, _ => none
  | fuel + 1, first, done, r =>
    match r.peek with
    | none => none
    | some t =>
      if t.kind = .closeSequence then some (done.reverse, r.skip)
      else if !first ∧ t.kind ≠ .comma then none
      else
        let r := if first then r else r.skip
        match r.peek with
        | none => none
        | some u =>
          if u.kind = .closeSequence then some (done.reverse, r.skip)
          else if u.kind = .key then
            match readFlowKey fuel r.skip with
            | none => none
            | some (k, r) =>
              match readFlowValue fuel .closeSequence r with
              | none => none
              | some (v, r) =>
                readFlowItems fuel false
                  (.mapping (u.mark.line + 1) .map [(k, v)] :: done) r
          else
            match readNode fuel .flow r with
            | none => none
            | some (n, r) => readFlowItems fuel false (n :: done) r

def readFlowKey : Nat → Read Node
  | 0, _ => none
  | fuel + 1, r =>
    match r.peek with
    | none => none
    | some t =>
      if t.kind = .value ∨ t.kind = .comma ∨ t.kind = .closeSequence then
        some (emptyNode t.mark, r.skip)
      else readNode fuel .flow r

def readFlowValue : Nat → TokenKind → Read Node
  | 0, _, _ => none
  | fuel + 1, close, r =>
    match r.peek with
    | none => none
    | some t =>
      if t.kind = .value then
        let r := r.skip
        match r.peek with
        | none => none
        | some u =>
          if u.kind = .comma ∨ u.kind = close then some (emptyNode u.mark, r)
          else readNode fuel .flow r
      else some (emptyNode t.mark, r)

/-- Read the pairs between curly brackets after those already read (in reverse).
-/
def readFlowPairs : Nat → Bool → List (Node × Node) → Read (List (Node × Node))
  | 0, _, _, _ => none
  | fuel + 1, first, done, r =>
    match r.peek with
    | none => none
    | some t =>
      if t.kind = .closeMapping then some (done.reverse, r.skip)
      else if !first ∧ t.kind ≠ .comma then none
      else
        let r := if first then r else r.skip
        match r.peek with
        | none => none
        | some u =>
          if u.kind = .closeMapping then some (done.reverse, r.skip)
          else if u.kind = .key then
            let r := r.skip
            match r.peek with
            | none => none
            | some w =>
              let key := if w.kind = .value ∨ w.kind = .comma ∨
                w.kind = .closeMapping
                then some (emptyNode w.mark, r) else readNode fuel .flow r
              match key with
              | none => none
              | some (k, r) =>
                match readFlowValue fuel .closeMapping r with
                | none => none
                | some (v, r) => readFlowPairs fuel false ((k, v) :: done) r
          else
            match readNode fuel .flow r with
            | none => none
            | some (k, r) =>
              match r.peek with
              | none => none
              | some w =>
                readFlowPairs fuel false ((k, emptyNode w.mark) :: done) r

end

/-! ## Documents -/

/-- What handles of tags stand for where no directive says otherwise. -/
def standardHandles : List (Text × Text) :=
  [(utf8 "!", utf8 "!"), (utf8 "!!", Tag.space)]

/-- Read the directives of a document. The version can be given once, and each
handle once; `versioned` says that it was. -/
def readDirectives : Nat → Bool → Reading → Option Reading
  | 0, _, _ => none
  | fuel + 1, versioned, r =>
    match r.peek with
    | none => none
    | some t =>
      match t.kind with
      | .version major minor =>
        if versioned || major ≠ 1 || minor ≠ 1 then none
        else readDirectives fuel true r.skip
      | .handle name lead =>
        if (r.handles.lookup name).isSome then none
        else
          readDirectives fuel versioned
            { r.skip with handles := r.handles ++ [(name, lead)] }
      | _ => some { r with handles := r.handles ++ standardHandles }

/-- Does a document begin or end with this token? -/
def TokenKind.isBorder : TokenKind → Bool
  | .version _ _ | .handle _ _ | .documentStart | .documentEnd | .finish => true
  | _ => false

/-- Read the first document: nothing at the end of the text, a node otherwise.
Directives are followed by a mark for the start of the document. -/
def readDocument (fuel : Nat) (r : Reading) : Option (Option Node) :=
  match r.peek, readDirectives fuel false r with
  | some first, some r =>
    match r.peek with
    | none => none
    | some t =>
      let node :=
        if t.kind = .documentStart then
          let r := r.skip
          match r.peek with
          | none => none
          | some u =>
            if u.kind.isBorder then some (some (emptyNode u.mark), r)
            else (readNode fuel .block r).map fun (n, r) => (some n, r)
        else if first.kind = .finish then some (none, r)
        else if first.kind.isBorder then none
        else (readNode fuel .block r).map fun (n, r) => (some n, r)
      match node with
      | none => none
      | some (n, r) => r.peek.map fun _ => n
  | _, _ => none

/-- Read the first document of a text. Nothing is read from a text that is no
YAML. -/
def document? (text : Text) : Option (Option Node) :=
  match characters? text with
  | none => none
  | some cs =>
    if !cs.all isAllowed then none
    else
      let ts := scan cs
      readDocument (8 * ts.list.length + 8) ⟨ts.list, ts.broken, [], []⟩

end Yaml

end ToolLint
