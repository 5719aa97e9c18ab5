import RepoGraph.Text.Octets

/-!
# UTF-16 and UTF-32

In these encodings characters are numbers of two octets or of four, with the high octet first or
last. A character beyond two octets is a pair of surrogates in UTF-16. A surrogate without its other
half stands for no character, and becomes a replacement character.
-/

namespace RepoGraph.Text.Wide

/-- Which octet of a number stands first. -/
inductive Order
  /-- The high octet stands first. -/
  | big
  /-- The low octet stands first. -/
  | little
  deriving DecidableEq, Repr

/-- The letters for an order in the names of encodings. -/
def Order.suffix : Order → String
  | big => "be"
  | little => "le"

/-- The number of some octets, the high one first. -/
def ofBig (octets : List UInt8) : Nat := octets.foldl (fun n b => n * 256 + b.toNat) 0

/-- The number of some octets. -/
def Order.number (order : Order) (octets : List UInt8) : Nat :=
  match order with
  | big => ofBig octets
  | little => ofBig octets.reverse

/-- The number is the first half of a pair. -/
def isHighHalf (n : Nat) : Bool := 0xD800 ≤ n && n ≤ 0xDBFF

/-- The number is the second half of a pair. -/
def isLowHalf (n : Nat) : Bool := 0xDC00 ≤ n && n ≤ 0xDFFF

/-- The character of a number, or a replacement character for half of a pair. -/
def charOf (n : Nat) : Char := if isHighHalf n || isLowHalf n then '\uFFFD' else Char.ofNat n

/-- The characters of UTF-16 numbers: pairs of halves are one character. -/
def charsOf : List Nat → List Char
  | [] => []
  | [n] => [charOf n]
  | m :: n :: rest =>
    if isHighHalf m && isLowHalf n then
      Char.ofNat (0x10000 + (m - 0xD800) * 0x400 + (n - 0xDC00)) :: charsOf rest
    else charOf m :: charsOf (n :: rest)

/-- The numbers of two octets each. -/
def numbers16 (order : Order) (position : Nat) : List UInt8 → Except OctetFault (List Nat)
  | [] => .ok []
  | [a] => .error ⟨"utf-16-" ++ order.suffix, position, [a], .truncated⟩
  | a :: b :: rest => (numbers16 order (position + 2) rest).map (order.number [a, b] :: ·)

/-- The text of octets in UTF-16 of which `position` were read before. -/
def decode16 (order : Order) (position : Nat) (octets : List UInt8) :
    Except OctetFault (List Char) :=
  (numbers16 order position octets).map charsOf

/-- The text of octets in UTF-32 of which `position` were read before. -/
def decode32 (order : Order) (position : Nat) : List UInt8 → Except OctetFault (List Char)
  | [] => .ok []
  | a :: b :: c :: d :: rest =>
    let n := order.number [a, b, c, d]
    if n < 0x110000 then (decode32 order (position + 4) rest).map (charOf n :: ·)
    else .error ⟨"utf-32-" ++ order.suffix, position, [a, b, c, d], .outOfRange⟩
  | short => .error ⟨"utf-32-" ++ order.suffix, position, short, .truncated⟩

end RepoGraph.Text.Wide
