import ToolLint.Check.Basic
import ToolLint.Order
import ToolLint.Rules.Basic
import ToolLint.Search

/-!
# Checks of the documentation

Two checks look at the documentation as a whole: its top-level headers come in
the order that the rules want, and the programs that render it and check its
syntax have nothing to complain about.
-/

namespace ToolLint

namespace Check

/-! ## Headers -/

def headerName (line : Text) : Text :=
  ((Text.after? (utf8 "=head1") line).getD line).dropWhile isSpaceOrTab

def trimHeader (name : Text) : Text :=
  Text.dropWhileEnd (fun b => isSpaceOrTab b || b == cr) name

/-- A header has no blanks at its end. -/
def headerEnd (tool : Tool) (name : Text) : Activity Unit :=
  if trimHeader name = name then .done ()
  else violation "%s has trailing whitespace in header %q" [tool.name, name]

/-- The top-level headers come in the order that the rules want. -/
def headerOrder (rules : Rules) (programs : Programs) : Check where
  name := utf8 "header-order"
  run tool := do
    let lines ← (Search.allLines programs (utf8 "^=head1") tool.path).during
        .headerSearch
    let names := lines.map headerName
    let _ ← Activity.each (headerEnd tool) names
    compare (tool.name ++ utf8 " has headers out of order:")
      (Order.divergence (names.map trimHeader) (rules.headers tool.name))

/-! ## Formatting -/

/-- The renderer finds no line that it cannot break. -/
def rendering (programs : Programs) (tool : Tool) : Activity Unit := do
  let outcome ← programs.run (utf8 "perldoc") [utf8 "-T", utf8 "--", tool.path]
  if Text.hasInfix (utf8 "can't break line") outcome.output then
    violation "%s has lines too long" [tool.name]

/-- The syntax checker, if there is one, finds nothing. -/
def podSyntax (programs : Programs) (tool : Tool) : Activity Unit :=
  match programs.lookup (utf8 "podchecker") with
  | .error e =>
    .log (Log.debug (utf8 "podchecker not installed")
      [(utf8 "error", .text e.message)])
  | .ok path => do
    let outcome ← programs.run path [utf8 "--", tool.path]
    if !Text.hasInfix (utf8 "pod syntax OK") outcome.output then
      .report (.block (tool.name ++ utf8 " has POD errors:") outcome.output)

/-- The documentation can be rendered, and its syntax is correct. Both are
looked at in any case. -/
def podFormatting (programs : Programs) : Check where
  name := utf8 "pod-formatting"
  run tool := do
    let rendered ← (rendering programs tool).attempt
    let checked ← (podSyntax programs tool).attempt
    match rendered, checked with
    | .error r, .error c => .error (.podBoth r c)
    | .error r, .ok _ => .error (.podRendering r)
    | .ok _, .error c => .error (.podSyntax c)
    | .ok _, .ok _ => .done ()

end Check

end ToolLint
