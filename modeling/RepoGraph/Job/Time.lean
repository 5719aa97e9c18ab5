import RepoGraph.Decimal.Float

/-!
# Points in time

A time is counted in microseconds from the beginning of 1970; `Timestamp.text` writes it with date
and time of day. A time that comes from the clock tells its zone, one that was stored does not.
-/

namespace RepoGraph

/-- A point in time. -/
structure Timestamp where
  /-- The microseconds since the beginning of 1970. -/
  microseconds : Int
  /-- The text of the time tells its zone. -/
  zoned : Bool
  deriving DecidableEq, Repr

namespace Timestamp

/-- The year, month and day of a number of days since the beginning of 1970. The count goes by eras
of 400 years that begin in March, so that a leap day is the last of its year. -/
def dateOfDays (days : Int) : Int × Nat × Nat :=
  -- 719468 days lie between the first of March of year zero and the beginning of 1970.
  let z := days + 719468
  let era := Int.fdiv z 146097
  let dayOfEra : Nat := (z - era * 146097).toNat
  let yearOfEra := (dayOfEra - dayOfEra / 1460 + dayOfEra / 36524 - dayOfEra / 146096) / 365
  let dayOfYear := dayOfEra - (365 * yearOfEra + yearOfEra / 4 - yearOfEra / 100)
  let shifted := (5 * dayOfYear + 2) / 153
  let day := dayOfYear - (153 * shifted + 2) / 5 + 1
  let month := if shifted < 10 then shifted + 3 else shifted - 9
  let year := yearOfEra + era * 400 + (if month ≤ 2 then 1 else 0)
  (year, month, day)

/-- A number with zeros in front. -/
def field (width n : Nat) : String := String.ofList (Decimal.padded width n)

/-- The text of a time: date and time of day, a fraction of seconds if there is one, and the zone if
it is told. -/
def text (t : Timestamp) : String :=
  let perDay : Int := 86400000000
  let days := Int.fdiv t.microseconds perDay
  let rest : Nat := (t.microseconds - days * perDay).toNat
  let (year, month, day) := dateOfDays days
  let seconds := rest / 1000000
  let fraction := rest % 1000000
  field 4 year.toNat ++ "-" ++ field 2 month ++ "-" ++ field 2 day ++ "T" ++
    field 2 (seconds / 3600) ++ ":" ++ field 2 (seconds / 60 % 60) ++ ":" ++
    field 2 (seconds % 60) ++ (if fraction = 0 then "" else "." ++ field 6 fraction) ++
    (if t.zoned then "+00:00" else "")

end Timestamp

end RepoGraph
