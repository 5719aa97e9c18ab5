/-!
# Requests and responses

A request names a base address and a path below it, as the program writes them. The address that it
is sent to, and the text that the octets of a response stand for, are the affair of the library that
sends it. The reply is a response, of whichever status, or a fault of the transport.
-/

namespace RepoGraph

/-- Something outside failed, in a way with a name. -/
structure OutsideFault where
  /-- The name of the way. -/
  name : String
  /-- The words. -/
  text : String
  deriving DecidableEq, Repr

/-- The name and the words of a fault. -/
def OutsideFault.shown (f : OutsideFault) : String := f.name ++ ": " ++ f.text

namespace Http

/-- A request for the document at an address. -/
structure Request where
  /-- The address that the path goes below, without a slash at its end. -/
  base : String
  /-- The path, from its first slash. -/
  path : String
  /-- The parameters, as they stand after the question mark. -/
  query : Option String := none
  /-- The form in which the document is wanted. -/
  accept : String
  /-- The name of the program that asks. -/
  agent : String
  /-- The proof of being allowed to ask. -/
  authorization : Option String := none
  deriving DecidableEq, Repr

/-- A response. -/
structure Response where
  /-- The status. -/
  status : Int
  /-- The octets of the document. -/
  body : List UInt8
  /-- What the library makes of the octets as a text (`Response.text`): it reads them in the
  character set that the response declares, which may fail. -/
  text : Except OutsideFault String
  deriving Repr

/-- Why there is no response. -/
inductive Fault
  /-- The transport failed, in a way with a name. -/
  | transport (name text : String)
  /-- The address cannot be sent. -/
  | address (text : String)
  deriving DecidableEq, Repr

/-- The words for a fault. -/
def Fault.message : Fault → String
  | transport _ text => text
  | address text => text

/-- The status tells of success. -/
def Response.isSuccess (r : Response) : Bool := 200 ≤ r.status && r.status ≤ 299

end Http

end RepoGraph
