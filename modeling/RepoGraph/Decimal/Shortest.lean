/-!
# The shortest decimal of a binary number

A positive number `m · 2 ^ q` stands for an interval of reals: those nearer to it than to its
neighbours, with the ends included when `m` is even. `shortest` gives the decimal with the fewest
digits in that interval, and among those the one nearest to the number, an exact tie going to the
even digit. The search walks grids `10 ^ (k - n)` for `n = 1, 2, …`: if a point of a grid lies in
the interval, so does one of the number's two neighbours on that grid.
-/

namespace RepoGraph.Decimal

/-- The value `digits · 10 ^ exponent`. -/
structure Scientific where
  /-- The digits as one number. -/
  digits : Nat
  /-- The power of ten that they count. -/
  exponent : Int
  deriving DecidableEq, Repr

/-- A positive binary number with the reals that round to it, all in units of `2 ^ (q - 2)`. -/
structure Interval where
  /-- The number. -/
  value : Nat
  /-- The lower end of the interval. -/
  low : Nat
  /-- The upper end of the interval. -/
  high : Nat
  /-- The ends belong to the interval. -/
  closed : Bool
  /-- The power of two of the unit. -/
  unit : Int

/-- The interval of `m · 2 ^ q`, where `q` is at least `least`. A power of two has its lower
neighbour at half the distance, unless it is the least of its kind. -/
def Interval.of (m : Nat) (q least : Int) : Interval :=
  { value := 4 * m
    low := if m = Nat.pow 2 52 ∧ least < q then 4 * m - 1 else 4 * m - 2
    high := 4 * m + 2
    closed := m % 2 = 0
    unit := q - 2 }

/-- The power of a base, where an exponent below zero counts as zero. -/
def power (base : Nat) (exponent : Int) : Nat := Nat.pow base exponent.toNat

/-- The quotient that scales units to a grid: `units · scale.1 / scale.2` counts grid steps. -/
def gridScale (unit exponent : Int) : Nat × Nat :=
  (power 2 unit * power 10 (-exponent), power 2 (-unit) * power 10 exponent)

/-- The best decimal of the interval on one grid, if there is any. -/
def Interval.onGrid (i : Interval) (exponent : Int) : Option Scientific :=
  let (up, down) := gridScale i.unit exponent
  let inside (d : Nat) : Bool :=
    if i.closed then i.low * up ≤ d * down && d * down ≤ i.high * up
    else i.low * up < d * down && d * down < i.high * up
  let scaled := i.value * up
  let below := scaled / down
  let above := below + 1
  match inside below && below != 0, inside above with
  | false, false => none
  | true, false => some ⟨below, exponent⟩
  | false, true => some ⟨above, exponent⟩
  | true, true =>
    let toBelow := scaled - below * down
    let toAbove := above * down - scaled
    if toBelow < toAbove || (toBelow == toAbove && below % 2 == 0) then some ⟨below, exponent⟩
    else some ⟨above, exponent⟩

/-- The number of decimal digits. -/
def digitCount (n : Nat) : Nat := (Nat.toDigits 10 n).length

/-- A power of ten not below the number: the integer part of the value has at most that many
digits. -/
def Interval.magnitude (i : Interval) : Int :=
  let (up, down) := gridScale i.unit 0
  let whole := i.value * up / down
  if whole ≠ 0 then digitCount whole
  else
    let inverse := down / (i.value * up)
    1 - (digitCount inverse : Int)

/-- The first hit on the grids of `tried + 1, tried + 2, …` digits. -/
def Interval.search (i : Interval) (magnitude : Int) : (left tried : Nat) → Scientific
  | 0, _ => ⟨i.value, 0⟩
  | left + 1, tried =>
    match i.onGrid (magnitude - (tried + 1)) with
    | some d => d
    | none => i.search magnitude left (tried + 1)

/-- The shortest decimal of `m · 2 ^ q`; seventeen digits always suffice for 53 bits, and the
value's power of ten may be one below the estimate. -/
def shortest (m : Nat) (q least : Int) : Scientific :=
  let i := Interval.of m q least
  i.search i.magnitude 19 0

end RepoGraph.Decimal
