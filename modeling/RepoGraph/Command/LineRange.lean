import RepoGraph.Decimal.Reading
import RepoGraph.Failure
import RepoGraph.Text.Lines
import RepoGraph.Text.Split

/-!
# Ranges of lines

A range names a first and a last line, counted from one, or a single line. `LineRange.select` takes
the lines of a range out of a text.
-/

namespace RepoGraph

open RepoGraph.Text

/-- A range of lines. -/
structure LineRange where
  /-- The first line. -/
  first : Nat
  /-- The last line. -/
  last : Nat
  /-- Lines are counted from one. -/
  one_le_first : 1 ≤ first
  /-- The range is not empty. -/
  first_le_last : first ≤ last

namespace LineRange

/-- The range from one line to another, if that is one. -/
def ofInts? (first last : Int) : Option LineRange :=
  if h : 1 ≤ first ∧ first ≤ last then
    some ⟨first.toNat, last.toNat, by omega, by omega⟩
  else none

/-- The range that a text writes, if it writes one. -/
def parse? (spec : String) : Option LineRange :=
  match cut? '-' spec.toList with
  | some (first, last) =>
    match Decimal.readInt? first, Decimal.readInt? last with
    | some m, some n => ofInts? m n
    | _, _ => none
  | none =>
    match Decimal.readInt? spec.toList with
    | some n => ofInts? n n
    | none => none

/-- The range that a text writes. -/
def parse (spec : String) : Except InputFault LineRange :=
  match parse? spec with
  | some r => .ok r
  | none => .error (.lineRange spec)

/-- The lines of a range, as far as the text has them, with line feeds between them. -/
def select (r : LineRange) (text : String) : String :=
  let chosen := ((lines text.toList).take r.last).drop (r.first - 1)
  String.ofList (joinWith '\n' chosen)

end LineRange

end RepoGraph
