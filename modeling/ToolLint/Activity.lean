import ToolLint.Error
import ToolLint.Log
import ToolLint.Report

/-!
# Activities

What a check does is recorded rather than done: an activity is the list of the
events it caused, in order, and its result. A result is a value, an error or a
panic; the events before an error or a panic stay. Reports, log entries and
calls are views of the events.
-/

namespace ToolLint

/-- What can be seen of a check. -/
inductive Event where
  /-- A program was called, with its arguments. -/
  | call (command : List Text)
  /-- Something was told to the log. -/
  | log (entry : Log.Entry)
  /-- Something was reported. -/
  | report (entry : Report.Entry)
deriving DecidableEq, Repr

/-- How an activity can end before its time. -/
inductive Fault where
  | error (e : Error)
  | panic (value : Text)
deriving DecidableEq, Repr

/-- An activity: what it caused, and how it ended. -/
structure Activity (α : Type) where
  events : List Event
  result : Except Fault α

namespace Activity

def done {α : Type} (a : α) : Activity α := ⟨[], .ok a⟩

def fail {α : Type} (f : Fault) : Activity α := ⟨[], .error f⟩

def error {α : Type} (e : Error) : Activity α := fail (.error e)

/-- One activity, and then the next one if the first came to its end. -/
def andThen {α β : Type} (x : Activity α) (f : α → Activity β) : Activity β :=
  match x.result with
  | .ok a =>
    let y := f a
    ⟨x.events ++ y.events, y.result⟩
  | .error e => ⟨x.events, .error e⟩

instance : Monad Activity where
  pure := done
  bind := andThen

@[simp]
theorem pure_eq {α : Type} (a : α) : (pure a : Activity α) = done a := rfl

@[simp]
theorem bind_eq {α β : Type} (x : Activity α) (f : α → Activity β) :
    x >>= f = x.andThen f :=
  rfl

@[simp]
theorem done_andThen {α β : Type} (a : α) (f : α → Activity β) :
    (done a).andThen f = f a :=
  rfl

@[simp]
theorem fail_andThen {α β : Type} (e : Fault) (f : α → Activity β) :
    (fail e).andThen f = fail e := rfl

theorem andThen_done {α : Type} (x : Activity α) : x.andThen done = x := by
  rcases x with ⟨es, _ | _⟩
  · rfl
  · simp [andThen, done]

theorem andThen_assoc {α β γ : Type} (x : Activity α) (f : α → Activity β)
    (g : β → Activity γ) :
    (x.andThen f).andThen g = x.andThen fun a => (f a).andThen g := by
  rcases x with ⟨es, e | a⟩
  · rfl
  · rcases h : f a with ⟨fs, e | b⟩ <;> simp [andThen, h]

def tell (e : Event) : Activity Unit := ⟨[e], .ok ()⟩

def report (e : Report.Entry) : Activity Unit := tell (.report e)

def log (e : Log.Entry) : Activity Unit := tell (.log e)

/-- The same activity, with errors seen as those of a larger step. -/
def during {α : Type} (step : Error → Error) (x : Activity α) : Activity α where
  events := x.events
  result := match x.result with
    | .error (.error e) => .error (.error (step e))
    | r => r

def ofExcept {α : Type} : Except Error α → Activity α
  | .ok a => done a
  | .error e => error e

/-- The same activity, with an error as its value instead of its end. -/
def attempt {α : Type} (x : Activity α) : Activity (Except Error α) where
  events := x.events
  result := match x.result with
    | .ok a => .ok (.ok a)
    | .error (.error e) => .ok (.error e)
    | .error (.panic v) => .error (.panic v)

def panicIf (reason : Option Text) : Activity Unit :=
  match reason with
  | some v => fail (.panic v)
  | none => done ()

/-- The activities of the members of a list, one after the other, with their
results. -/
def each {α β : Type} (f : α → Activity β) : List α → Activity (List β)
  | [] => done []
  | a :: as =>
    andThen (f a) fun b =>
      let rest := each f as
      ⟨rest.events, rest.result.map (b :: ·)⟩

end Activity

/-! ## Views of events -/

namespace Event

def call? : Event → Option (List Text)
  | .call c => some c
  | _ => none

def report? : Event → Option Report.Entry
  | .report e => some e
  | _ => none

def log? : Event → Option Log.Entry
  | .log e => some e
  | _ => none

def calls (es : List Event) : List (List Text) := es.filterMap call?

def reports (es : List Event) : List Report.Entry := es.filterMap report?

def reportText (es : List Event) : Text := Report.render (reports es)

def logText (debug : Bool) (es : List Event) : Text :=
  (es.filterMap log?).flatMap (Log.Entry.render debug)

end Event

end ToolLint
