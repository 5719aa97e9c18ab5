/-!
# Faults of JSON text

What can be wrong with a text that should be JSON, where, and in which words.
-/

namespace RepoGraph.Json

/-- What a reader of JSON text complains about. -/
inductive Complaint
  /-- No value begins here. -/
  | value
  /-- The name of a member should stand here. -/
  | memberName
  /-- A colon should stand here. -/
  | colon
  /-- A comma or a closing bracket should stand here. -/
  | comma
  /-- Text follows the value. -/
  | extra
  /-- The text that begins here does not end. -/
  | unterminated
  /-- The backslash begins no escape. -/
  | escape
  /-- The escape by code lacks four hexadecimal digits. -/
  | code
  /-- A control character stands in a text. -/
  | control
  /-- The document begins with a byte order mark. -/
  | orderMark
  deriving DecidableEq, Repr

/-- The words for a complaint. -/
def Complaint.message : Complaint → String
  | value => "Expecting value"
  | memberName => "Expecting property name enclosed in double quotes"
  | colon => "Expecting ':' delimiter"
  | comma => "Expecting ',' delimiter"
  | extra => "Extra data"
  | unterminated => "Unterminated string starting at"
  | escape => "Invalid \\escape"
  | code => "Invalid \\uXXXX escape"
  | control => "Invalid control character at"
  | orderMark => "Unexpected UTF-8 BOM (decode using utf-8-sig)"

/-- Why a text has no JSON value. -/
inductive Fault
  /-- The text is not JSON from an offset on, which lies in a line and a column, both from one. -/
  | malformed (complaint : Complaint) (offset line column : Nat)
  /-- A whole number has more digits than are read. -/
  | longInteger (digits : Nat)
  deriving DecidableEq, Repr

/-- The words for a fault. -/
def Fault.message : Fault → String
  | malformed complaint offset line column =>
    complaint.message ++ ": line " ++ toString line ++ " column " ++ toString column ++
      " (char " ++ toString offset ++ ")"
  | longInteger digits =>
    "Exceeds the limit (4300 digits) for integer string conversion: value has " ++
      toString digits ++ " digits; use sys.set_int_max_str_digits() to increase the limit"

end RepoGraph.Json
