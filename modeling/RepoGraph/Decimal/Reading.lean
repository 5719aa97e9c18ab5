import RepoGraph.Text.Blank
import RepoGraph.Text.DecimalDigit
import RepoGraph.Decimal.Float

/-!
# Reading numbers

`readInt?` reads a whole number and `readFloat?` a floating-point number from text: with white space
around it, with a sign, with the digits of any script, and with single underscores between digits.
-/

namespace RepoGraph.Decimal

open RepoGraph.Text

/-- White space that may stand around a number: the information separators may not. -/
def isNumberBlank (c : Char) : Bool := isBlank c && !(0x1C ≤ c.toNat && c.toNat ≤ 0x1F)

/-- The text without the white space around a number. -/
def trimNumber (s : List Char) : List Char :=
  dropRightWhile isNumberBlank (s.dropWhile isNumberBlank)

/-- The most digits of a whole number that are read or written. -/
def digitLimit : Nat := 4300

/-- The text with the digits of every script in their ordinary form. -/
def plainDigits (s : List Char) : List Char :=
  s.map fun c => match decimalValue? c with
    | some v => Char.ofNat (0x30 + v)
    | none => c

/-- The character is one of the ten ordinary digits. -/
def isDigit (c : Char) : Bool := 0x30 ≤ c.toNat && c.toNat ≤ 0x39

/-- The number that ordinary digits write. -/
def digitsValue (s : List Char) : Nat := s.foldl (fun n c => n * 10 + (c.toNat - 0x30)) 0

/-- The text without its underscores, each of which must stand between two digits; `afterDigit`
tells whether a digit stands before the text. -/
def dropUnderscores (afterDigit : Bool) : List Char → Option (List Char)
  | [] => some []
  | '_' :: c :: cs => if afterDigit && isDigit c then dropUnderscores false (c :: cs) else none
  | c :: cs => if c = '_' then none else (dropUnderscores (isDigit c) cs).map (c :: ·)

/-- A sign at the front, set for minus, and what follows it. -/
def takeSign : List Char → Bool × List Char
  | '-' :: cs => (true, cs)
  | '+' :: cs => (false, cs)
  | cs => (false, cs)

/-- The whole number that a text writes. -/
def readInt? (s : List Char) : Option Int :=
  let (negative, body) := takeSign (plainDigits (trimNumber s))
  match dropUnderscores false body with
  | none => none
  | some ds =>
    if ds.isEmpty || !ds.all isDigit || digitLimit < ds.length then none
    else
      let n : Int := digitsValue ds
      some (if negative then -n else n)

/-- The floating-point number nearest to `digits · 10 ^ exponent`; a magnitude beyond every finite
number is infinite, one below every positive number is zero. -/
def nearestFloat (digits : Nat) (exponent : Int) : Float :=
  let lead : Int := digitCount digits + exponent
  if digits = 0 then 0.0
  else if 400 < lead then 1.0 / 0.0
  else if lead < -400 then 0.0
  else if 0 ≤ exponent then Float.ofScientific digits false exponent.toNat
  else Float.ofScientific digits true (-exponent).toNat

/-- The parts of a written decimal: the digits before and after the point, and the exponent. -/
structure Written where
  /-- The digits before the point. -/
  whole : List Char
  /-- The digits after the point. -/
  fraction : List Char
  /-- The power of ten. -/
  exponent : Int

/-- The number nearest to a written decimal. -/
def Written.toFloat (w : Written) : Float :=
  nearestFloat (digitsValue (w.whole ++ w.fraction)) (w.exponent - w.fraction.length)

/-- The exponent part of a decimal, which is all of the text. -/
def readExponent? : List Char → Option Int
  | [] => some 0
  | c :: cs =>
    if c = 'e' || c = 'E' then
      let (negative, ds) := takeSign cs
      if ds.isEmpty || !ds.all isDigit then none
      else
        let n : Int := digitsValue ds
        some (if negative then -n else n)
    else none

/-- The parts of a decimal without sign: a point may stand anywhere, an exponent may follow. -/
def readDecimal? (s : List Char) : Option Written :=
  let whole := s.takeWhile isDigit
  let rest := s.dropWhile isDigit
  let (fraction, rest) := match rest with
    | '.' :: cs => (cs.takeWhile isDigit, cs.dropWhile isDigit)
    | cs => ([], cs)
  if whole.isEmpty && fraction.isEmpty then none
  else (readExponent? rest).map fun e => ⟨whole, fraction, e⟩

/-- The floating-point number that a text writes. -/
def readFloat? (s : List Char) : Option Float :=
  match dropUnderscores false (plainDigits (trimNumber s)) with
  | none => none
  | some t =>
    let (negative, body) := takeSign t
    let word := String.ofList (body.map Char.toLower)
    let magnitude :=
      if word == "inf" || word == "infinity" then some (1.0 / 0.0)
      else if word == "nan" then some (0.0 / 0.0)
      else (readDecimal? body).map Written.toFloat
    magnitude.map fun x => if negative then -x else x

end RepoGraph.Decimal
