import ToolLint.Report

/-!
# Order

Two ways in which a list can be out of order: against its own sorted form, and
against a list that is required. Both give the rows of a comparison, none if all
is well.
-/

namespace ToolLint

namespace Order

def sorted (names : List Text) : List Text := names.mergeSort Text.le

/-- The names, each beside the one that stands in its place in order. -/
def paired (names : List Text) : List (Text × Text) := names.zip (sorted names)

def firstDisplaced? (names : List Text) : Option Nat :=
  (paired names).findIdx? fun p => p.1 != p.2

/-- The names that are not where they would be in order, each beside the name that
belongs there. The first of them is looked for, and then the others behind it. -/
def displaced (names : List Text) : List Row :=
  match firstDisplaced? names with
  | none => []
  | some first =>
    ((paired names).drop first).filterMap fun (actual, correct) =>
      if actual = correct then none else some ⟨actual, correct⟩

/-- Each required name beside the one that stands in its place, which is empty
past the end. -/
def aligned : (got required : List Text) → List Row
  | _, [] => []
  | [], r :: required => ⟨[], r⟩ :: aligned [] required
  | g :: got, r :: required => ⟨g, r⟩ :: aligned got required

/-- Side by side what is there and what is required, from the first difference
on. -/
def fromDifference : (got required : List Text) → List Row
  | _, [] => []
  | [], r :: required =>
    if r.isEmpty then fromDifference [] required else aligned [] (r :: required)
  | g :: got, r :: required =>
    if g = r then fromDifference got required else
      aligned (g :: got) (r :: required)

/-- How names depart from the required ones. Names that are not required do not
count. -/
def divergence (actual required : List Text) : List Row :=
  fromDifference (actual.filter fun name => required.contains name) required

end Order

end ToolLint
