import RepoGraph.Text.Utf8

/-!
# Percent encoding

`encode keep` writes every octet of a text as `%` and two upper-case hexadecimal digits, except the
characters of the class `keep`, which stand for themselves.
-/

namespace RepoGraph.Text.Percent

/-- The upper-case digit of a number below sixteen. -/
def upperHexDigit (n : Nat) : Char :=
  if n < 10 then Char.ofNat (0x30 + n) else Char.ofNat (0x37 + n)

/-- An octet as `%` and two digits. -/
def octet (b : UInt8) : List Char :=
  ['%', upperHexDigit (b.toNat / 16), upperHexDigit (b.toNat % 16)]

/-- The characters that never need encoding: letters, digits and four marks. -/
def isUnreserved (c : Char) : Bool :=
  c.isAlphanum || c == '_' || c == '.' || c == '-' || c == '~'

/-- The text with all but the characters of a class encoded. -/
def encode (keep : Char → Bool) (s : List Char) : List Char :=
  s.flatMap fun c => if keep c then [c] else (String.utf8EncodeChar c).flatMap octet

end RepoGraph.Text.Percent
