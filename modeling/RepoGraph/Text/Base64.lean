/-!
# Base 64

`encode` writes octets in the standard alphabet with padding. `decode` is lenient: it skips
characters outside the alphabet, stops at a complete padded group, and fails only where the padding
is wrong or a character is left over.
-/

namespace RepoGraph.Text.Base64

/-- The character for a number below 64. -/
def digit (n : Nat) : Char :=
  if n < 26 then Char.ofNat (0x41 + n)
  else if n < 52 then Char.ofNat (0x61 + (n - 26))
  else if n < 62 then Char.ofNat (0x30 + (n - 52))
  else if n = 62 then '+' else '/'

/-- The number that a character of the alphabet stands for. -/
def value? (c : Char) : Option Nat :=
  let n := c.toNat
  if 0x41 ≤ n && n ≤ 0x5A then some (n - 0x41)
  else if 0x61 ≤ n && n ≤ 0x7A then some (n - 0x61 + 26)
  else if 0x30 ≤ n && n ≤ 0x39 then some (n - 0x30 + 52)
  else if c = '+' then some 62
  else if c = '/' then some 63
  else none

/-- The characters for some octets: four for each three, with padding at the end. -/
def encode : List UInt8 → List Char
  | [] => []
  | [a] =>
    let n := a.toNat * 16
    [digit (n / 64), digit (n % 64), '=', '=']
  | [a, b] =>
    let n := (a.toNat * 256 + b.toNat) * 4
    [digit (n / 4096), digit (n / 64 % 64), digit (n % 64), '=']
  | a :: b :: c :: rest =>
    let n := (a.toNat * 256 + b.toNat) * 256 + c.toNat
    digit (n / 262144) :: digit (n / 4096 % 64) :: digit (n / 64 % 64) :: digit (n % 64) ::
      encode rest

/-- Why characters stand for no octets. -/
inductive Fault
  /-- A single character is left over after the complete groups. -/
  | leftover
  /-- A group is incomplete and not padded. -/
  | padding
  deriving DecidableEq, Repr

/-- Where the reader stands in a group of four: how many characters of the alphabet it has read, and
their bits that are not yet written. -/
inductive Position
  /-- Between groups. -/
  | start
  /-- After one character. -/
  | one (bits : Nat)
  /-- After two. -/
  | two (bits : Nat)
  /-- After three. -/
  | three (bits : Nat)
  deriving DecidableEq, Repr

/-- Decodes characters from a position in a group; `pads` counts the padding characters met so far
in the group. -/
def decodeFrom (pos : Position) (pads : Nat) : List Char → Except Fault (List UInt8)
  | [] =>
    match pos with
    | .start => .ok []
    | .one _ => .error .leftover
    | _ => .error .padding
  | c :: cs =>
    if c = '=' then
      match pos with
      | .two _ => if 1 ≤ pads then .ok [] else decodeFrom pos (pads + 1) cs
      | .three _ => .ok []
      | _ => decodeFrom pos pads cs
    else
      match value? c with
      | none => decodeFrom pos pads cs
      | some v =>
        match pos with
        | .start => decodeFrom (.one v) 0 cs
        | .one bits =>
          (decodeFrom (.two (v % 16)) 0 cs).map (UInt8.ofNat (bits * 4 + v / 16) :: ·)
        | .two bits =>
          (decodeFrom (.three (v % 4)) 0 cs).map (UInt8.ofNat (bits * 16 + v / 4) :: ·)
        | .three bits => (decodeFrom .start 0 cs).map (UInt8.ofNat (bits * 64 + v) :: ·)

/-- The octets that the characters stand for. -/
def decode (s : List Char) : Except Fault (List UInt8) := decodeFrom .start 0 s

end RepoGraph.Text.Base64
