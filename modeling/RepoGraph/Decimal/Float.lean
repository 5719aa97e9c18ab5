import RepoGraph.Decimal.Shortest

/-!
# The text of a floating-point number

`Layout.write` renders a number by its shortest decimal. A layout holds what a format decides: where
positional notation gives way to exponents, and the words for the values without digits.
-/

namespace RepoGraph.Decimal

/-- The decisions of a format for numbers. -/
structure Layout where
  /-- The least power of ten of a leading digit that is written positionally. -/
  positionalFrom : Int := -4
  /-- The least power of ten of a leading digit that needs an exponent again. -/
  exponentFrom : Int := 16
  /-- The least number of digits of an exponent. -/
  exponentDigits : Nat := 2
  /-- The word for what is not a number. -/
  notANumber : String := "nan"
  /-- The word for the infinite values, without their sign. -/
  infinity : String := "inf"

/-- The decimal digits of a number. -/
def digitsOf (n : Nat) : List Char := Nat.toDigits 10 n

/-- The digits of a number with zeros in front up to a width. -/
def padded (width n : Nat) : List Char :=
  let ds := digitsOf n
  List.replicate (width - ds.length) '0' ++ ds

/-- The digits without the zeros at their end, of which there is one fewer than digits. -/
def dropTrailingZeros : List Char → List Char
  | [] => []
  | d :: ds => d :: (ds.reverse.dropWhile (· == '0')).reverse

/-- The text of a positive decimal; a point always stands in positional notation. -/
def Layout.writePositive (l : Layout) (d : Scientific) : List Char :=
  let all := digitsOf d.digits
  let ds := dropTrailingZeros all
  let lead : Int := d.exponent + all.length - 1
  if l.positionalFrom ≤ lead && lead < l.exponentFrom then
    if lead < 0 then '0' :: '.' :: List.replicate (-lead - 1).toNat '0' ++ ds
    else
      let whole := lead.toNat + 1
      if ds.length ≤ whole then ds ++ List.replicate (whole - ds.length) '0' ++ ['.', '0']
      else ds.take whole ++ '.' :: ds.drop whole
  else
    let mantissa := match ds with
      | [] => []
      | [d] => [d]
      | d :: rest => d :: '.' :: rest
    mantissa ++ 'e' :: (if lead < 0 then '-' else '+') :: padded l.exponentDigits lead.natAbs

/-- What a floating-point number is, apart from its sign. -/
inductive Magnitude
  /-- Not a number. -/
  | notANumber
  /-- Beyond every number. -/
  | infinite
  /-- The number `m · 2 ^ q`. -/
  | finite (m : Nat) (q : Int)

/-- The sign, set for negative numbers, and the magnitude that 64 bits encode. -/
def Magnitude.ofBits (bits : Nat) : Bool × Magnitude :=
  let fraction : Nat := bits % Nat.pow 2 52
  let power : Nat := bits / Nat.pow 2 52 % Nat.pow 2 11
  let negative := bits / Nat.pow 2 63 % 2 == 1
  let magnitude :=
    if power = 2047 then (if fraction = 0 then .infinite else .notANumber)
    else if power = 0 then .finite fraction (-1074)
    else .finite (Nat.pow 2 52 + fraction) ((power : Int) - 1075)
  (negative, magnitude)

/-- The text of a floating-point number in a layout. -/
def Layout.write (l : Layout) (x : Float) : String :=
  let (negative, magnitude) := Magnitude.ofBits x.toBits.toNat
  let sign := if negative then ['-'] else []
  match magnitude with
  | .notANumber => l.notANumber
  | .infinite => String.ofList sign ++ l.infinity
  | .finite 0 _ => String.ofList (sign ++ ['0', '.', '0'])
  | .finite m q => String.ofList (sign ++ l.writePositive (shortest m q (-1074)))

/-- The plain layout: the one of messages and reports. -/
def Layout.plain : Layout := {}

/-- The text of a floating-point number in the plain layout. -/
def floatText (x : Float) : String := Layout.plain.write x

end RepoGraph.Decimal
