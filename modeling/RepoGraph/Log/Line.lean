import RepoGraph.Log.Event
import RepoGraph.Text.Case

/-!
# Log lines

An event becomes a line if it is grave enough. On the line, secrets among its details are blanked.
-/

namespace RepoGraph.Log

/-- How grave events of a level are, as a number. -/
def Level.rank : Level → Nat
  | debug => 10
  | info => 20
  | warning => 30
  | error => 40
  | critical => 50

/-- The least rank of events that become lines, by name. -/
def thresholds : List (String × Nat) :=
  [("DEBUG", 10), ("INFO", 20), ("WARN", 30), ("WARNING", 30), ("ERROR", 40), ("CRITICAL", 50),
    ("FATAL", 50), ("NOTSET", 0)]

/-- Why there is no least rank of a name: the library that logs knows the name, as that of something
else. -/
inductive LevelFault
  /-- The name is that of a text (`BASIC_FORMAT`). -/
  | format
  /-- The name is that of a table (`_STYLES`). -/
  | styles
  deriving DecidableEq, Repr

/-- The words for a fault. -/
def LevelFault.message : LevelFault → String
  | format => "Unknown level: '%(levelname)s:%(name)s:%(message)s'"
  | styles =>
    "Level not an integer or a valid string: \x7b" ++
      "'%': (<class 'logging.PercentStyle'>, '%(levelname)s:%(name)s:%(message)s'), " ++
      "'\x7b': (<class 'logging.StrFormatStyle'>, '\x7blevelname\x7d:\x7bname\x7d:" ++
      "\x7bmessage\x7d'), '$': (<class 'logging.StringTemplateStyle'>, '$\x7blevelname\x7d:" ++
      "$\x7bname\x7d:$\x7bmessage\x7d')\x7d"

/-- The names in capitals that the library has for other things than levels. -/
def misnomers : List (String × LevelFault) := [("BASIC_FORMAT", .format), ("_STYLES", .styles)]

/-- The least rank of events that become lines. A name in letters of either case is known, and any
other stands for the ordinary course of things, unless it is that of something else. -/
def threshold (name : String) : Except LevelFault Nat :=
  let known := String.ofList (Text.upper name.toList)
  match misnomers.lookup known with
  | some fault => .error fault
  | none => .ok ((thresholds.lookup known).getD Level.info.rank)

/-- The details that are secrets. -/
def secrets : List String := ["token", "github_token", "api_key", "authorization"]

/-- The details with secrets blanked. -/
def blankSecrets (fields : List (String × Json)) : List (String × Json) :=
  fields.map fun f => if secrets.contains f.1 then (f.1, .str "[FILTERED]") else f

/-- The members of a line: the details, and then the words for what happened, who says so, and how
grave it is, which take the place of details of the same name. -/
def lineMembers (level : Level) (logger name : String) (fields : List (String × Json)) :
    List (String × Json) :=
  let set (members : List (String × Json)) (m : String × Json) : List (String × Json) :=
    Json.setMember m.1 m.2 members
  blankSecrets
    ([("event", .str name), ("logger", .str logger), ("level", .str level.name)].foldl set fields)

/-- The line for an event, if it is grave enough. -/
def Event.line? (e : Event) (least : Nat) : Option Json :=
  if least ≤ e.level.rank then some (.obj (lineMembers e.level e.part.logger e.name e.fields))
  else none

end RepoGraph.Log
