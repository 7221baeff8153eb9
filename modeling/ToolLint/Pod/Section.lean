import ToolLint.Pod.Command

/-!
# Sections of the documentation

The headings of a text make a forest: what follows a heading up to the next one of
the same or a smaller level lies below it. The commands are read one by one with a
stack of the sections that are still open. An option goes to the innermost one.
-/

namespace ToolLint

namespace Pod

/-- A heading and the options between it and the next heading. -/
structure Entry where
  name : Text
  level : Nat
  line : Nat
  options : List Text
deriving DecidableEq, Repr

/-- The heading that a command opens, if it opens one. -/
def Entry.ofCommand? (c : Command) : Option Entry :=
  (headingLevel? c.name).map fun level => ⟨c.arg.trim, level, c.line, []⟩

/-- A heading with everything below it. -/
inductive Section where
  | node (entry : Entry) (subsections : List Section)
deriving Repr

namespace Section

def entry : Section → Entry
  | .node e _ => e

def subsections : Section → List Section
  | .node _ subs => subs

def name (s : Section) : Text := s.entry.name

def level (s : Section) : Nat := s.entry.level

def line (s : Section) : Nat := s.entry.line

def options (s : Section) : List Text := s.entry.options

mutual

def preorder : Section → List Section
  | .node e subs => .node e subs :: preorderAll subs

def preorderAll : List Section → List Section
  | [] => []
  | s :: rest => s.preorder ++ preorderAll rest

end

end Section

/-! ## The stack of open sections -/

/-- An open section: its heading with the options so far, and the closed sections
below it. -/
structure Frame where
  entry : Entry
  subsections : List Section
deriving Repr

/-- The closed sections of the top level, and the open sections with the innermost
one first. -/
structure Outline where
  roots : List Section
  frames : List Frame
deriving Repr

namespace Outline

/-- Close the open sections that are not above the level. The sections in `below`
belong to the innermost one. -/
def closeFrames (level : Nat) (roots below : List Section) : List Frame → Outline
  | [] => ⟨roots ++ below, []⟩
  | f :: fs =>
    if level ≤ f.entry.level then
      closeFrames level roots [.node f.entry (f.subsections ++ below)] fs
    else ⟨roots, { f with subsections := f.subsections ++ below } :: fs⟩

def closing (level : Nat) (o : Outline) : Outline :=
  closeFrames level o.roots [] o.frames

def heading (o : Outline) (e : Entry) : Outline :=
  let above := o.closing e.level
  { above with frames := ⟨e, []⟩ :: above.frames }

/-- An option belongs to the section that was opened last. -/
def option (o : Outline) (name : Text) : Outline :=
  match o.frames with
  | [] => o
  | f :: fs =>
    let entry := { f.entry with options := f.entry.options ++ [name] }
    { o with frames := { f with entry := entry } :: fs }

def step (o : Outline) (c : Command) : Outline :=
  match Entry.ofCommand? c with
  | some e => o.heading e
  | none => (c.option?.map o.option).getD o

end Outline

/-- The sections of a list of commands. What comes before the first heading is in
none. -/
def sections (cmds : List Command) : List Section :=
  ((cmds.foldl Outline.step ⟨[], []⟩).closing 0).roots

def find? (roots : List Section) (name : Text) : Option Section :=
  roots.find? fun s => s.name == name

end Pod

end ToolLint
