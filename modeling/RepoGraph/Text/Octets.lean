import RepoGraph.Text.Hex

/-!
# Octets that are no text

Where octets in some encoding belong to no character, an `OctetFault` says which octets these are,
and why.
-/

namespace RepoGraph.Text

/-- Why octets belong to no character. -/
inductive OctetReason
  /-- No character begins with the octet. -/
  | invalidStart
  /-- The next octet cannot go on from those before it. -/
  | invalidContinuation
  /-- The octets end inside a character. -/
  | unexpectedEnd
  /-- The octets end inside a number. -/
  | truncated
  /-- The octets are of a number that no character has. -/
  | outOfRange
  deriving DecidableEq, Repr

/-- The words for a reason. -/
def OctetReason.message : OctetReason → String
  | invalidStart => "invalid start byte"
  | invalidContinuation => "invalid continuation byte"
  | unexpectedEnd => "unexpected end of data"
  | truncated => "truncated data"
  | outOfRange => "code point not in range(0x110000)"

/-- The first run of octets that belong to no character. -/
structure OctetFault where
  /-- The encoding that the octets should be in. -/
  encoding : String
  /-- How many octets stand before the run. -/
  position : Nat
  /-- The octets of the run. -/
  octets : List UInt8
  /-- Why they belong to no character. -/
  reason : OctetReason
  deriving DecidableEq, Repr

/-- The words for a fault: a single octet is shown, of several the positions are. -/
def OctetFault.message (f : OctetFault) : String :=
  let place :=
    match f.octets with
    | [b] =>
      "byte 0x" ++ String.ofList (hexText 2 b.toNat) ++ " in position " ++ toString f.position
    | bs => "bytes in position " ++ toString f.position ++ "-" ++
        toString (f.position + bs.length - 1)
  "'" ++ f.encoding ++ "' codec can't decode " ++ place ++ ": " ++ f.reason.message

end RepoGraph.Text
