import RepoGraph.Settings.Basic
import RepoGraph.Text.Lines
import RepoGraph.Text.Split

/-!
# Variables from a file

A file of variables holds `NAME=value` on its lines, perhaps after the word `export`. A value may
stand between quotes of either kind; outside quotes a comment may follow. `parseLine` reads one line
and `load` enters the variables of a whole file into an environment.
-/

namespace RepoGraph.Dotenv

open RepoGraph.Text

/-- The text up to a closing quote; after a backslash, if it escapes, any character stands for
itself. -/
def untilQuote (mark : Char) (escapes : Bool) : List Char → List Char
  | [] => []
  | c :: cs =>
    if escapes && c = '\\' then
      match cs with
      | [] => []
      | d :: rest => d :: untilQuote mark escapes rest
    else if c = mark then []
    else c :: untilQuote mark escapes cs

/-- The value that stands after the equals sign. -/
def parseValue (s : List Char) : List Char :=
  match trim s with
  | [] => []
  | c :: cs =>
    if c = '\'' ∨ c = '"' then untilQuote c (c = '"') cs else trim (before '#' (c :: cs))

/-- The text without the word `export` at its front. -/
def dropExport (s : List Char) : List Char :=
  match after? ['e', 'x', 'p', 'o', 'r', 't', ' '] s with
  | some rest => trimLeft rest
  | none => s

/-- The name and the value on a line, if it sets a variable. -/
def parseChars (line : List Char) : Option (List Char × List Char) :=
  match trim line with
  | [] => none
  | '#' :: _ => none
  | s =>
    match cut? '=' (dropExport s) with
    | none => none
    | some (name, rest) =>
      let name := trim name
      if name.isEmpty then none else some (name, parseValue rest)

/-- The name and the value on a line, if it sets a variable. -/
def parseLine (line : String) : Option (String × String) :=
  (parseChars line.toList).map fun p => (String.ofList p.1, String.ofList p.2)

/-- The variables that the lines of a file set, in their order. -/
def assignments (text : String) : List (String × String) :=
  (lines text.toList).filterMap fun l => parseLine (String.ofList l)

/-- A variable of a file cannot be entered: a null character stands in its name or its value. -/
inductive Fault
  /-- The null character. -/
  | null
  deriving DecidableEq, Repr

/-- A null character stands in the text. -/
def hasNull (s : String) : Bool := s.toList.contains '\x00'

/-- The environment with a variable entered, unless it is there already and may not be
overridden. -/
def enter (override : Bool) (env : Environment) (entry : String × String) :
    Except Fault Environment :=
  if !override && env.contains entry.1 then .ok env
  else if hasNull entry.1 || hasNull entry.2 then .error .null
  else .ok (env.insert entry.1 entry.2)

/-- The environment with the variables of a file entered one after another. -/
def load (override : Bool) (text : String) (env : Environment) : Except Fault Environment :=
  (assignments text).foldlM (enter override) env

end RepoGraph.Dotenv
