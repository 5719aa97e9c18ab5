import RepoGraph.Failure
import RepoGraph.Json.Reader
import RepoGraph.Text.Lines
import RepoGraph.Text.Wide

/-!
# Documents

Files and the bodies of responses are octets. They are read as text in UTF-8, strictly or with
replacement characters, or as JSON. A JSON document may be in UTF-16 or UTF-32 as well: it begins
with an ASCII character, so that its first octets tell the encoding even without a byte order mark.
-/

namespace RepoGraph.Document

open RepoGraph.Text

/-- The text of octets, or the failure that they are none. -/
def textOr (decoded : Except OctetFault (List Char)) : Except Failure (List Char) :=
  decoded.mapError .octets

/-- The text of a file, where each line ends with a line feed. -/
def fileText (octets : List UInt8) : Except Failure String := do
  return String.ofList (unifyLineEnds (← textOr (Utf8.decode octets)))

/-- The text of a file, where each line ends with a line feed, and with replacement characters for
what is no text. -/
def fileTextLossy (octets : List UInt8) : String :=
  String.ofList (unifyLineEnds (Utf8.decodeLossy octets))

/-- The text of a JSON document without a byte order mark: zeros among its first octets are what is
left of the first character in a wider encoding. -/
def unmarkedText (octets : List UInt8) : Except OctetFault (List Char) :=
  match octets with
  | 0 :: 0 :: _ :: _ :: _ => Wide.decode32 .big 0 octets
  | 0 :: _ :: _ :: _ :: _ => Wide.decode16 .big 0 octets
  | _ :: 0 :: 0 :: 0 :: _ => Wide.decode32 .little 0 octets
  | _ :: 0 :: _ :: _ :: _ => Wide.decode16 .little 0 octets
  | [0, _] => Wide.decode16 .big 0 octets
  | [_, 0] => Wide.decode16 .little 0 octets
  | _ => Utf8.decodeLoose octets

/-- The text of a JSON document. -/
def jsonText (octets : List UInt8) : Except OctetFault (List Char) :=
  match octets with
  | 0x00 :: 0x00 :: 0xFE :: 0xFF :: rest => Wide.decode32 .big 4 rest
  | 0xFF :: 0xFE :: 0x00 :: 0x00 :: rest => Wide.decode32 .little 4 rest
  | 0xFE :: 0xFF :: rest => Wide.decode16 .big 2 rest
  | 0xFF :: 0xFE :: rest => Wide.decode16 .little 2 rest
  | 0xEF :: 0xBB :: 0xBF :: rest => Utf8.decodeLoose rest
  | octets => unmarkedText octets

/-- The JSON value that octets write. -/
def json (octets : List UInt8) : Except Failure Json := do
  (Json.readDocument (← textOr (jsonText octets))).mapError .json

end RepoGraph.Document
