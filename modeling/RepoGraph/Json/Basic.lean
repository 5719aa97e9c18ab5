import RepoGraph.Decimal.Float
import RepoGraph.Table
import RepoGraph.Text.Quoted

/-!
# JSON values

`Json` keeps whole numbers apart from floating-point numbers and the members of an object in the
order in which they were first named. `truthy` and `shown` are how loosely typed data is read: what
counts as present, and the text that stands for a value in a message.
-/

namespace RepoGraph

/-- A JSON value. -/
inductive Json
  /-- No value. -/
  | null
  /-- A truth value. -/
  | bool (value : Bool)
  /-- A whole number. -/
  | int (value : Int)
  /-- A floating-point number. -/
  | float (value : Float)
  /-- A text. -/
  | str (value : String)
  /-- A list of values. -/
  | arr (items : List Json)
  /-- Named values, each name once. -/
  | obj (members : List (String × Json))
  deriving Inhabited

namespace Json

/-- The members with one of them set: in its old place, or last if it is new. -/
def setMember (name : String) (value : Json) (members : List (String × Json)) :
    List (String × Json) :=
  Table.put name value members

/-- The member of an object, if the value is an object that has it. -/
def get? : Json → String → Option Json
  | obj members, name => members.lookup name
  | _, _ => none

/-- A text, or no value. -/
def ofOption : Option String → Json
  | some s => str s
  | none => null

/-- The value counts as present: it is not empty, not zero and not false. -/
def truthy : Json → Bool
  | null => false
  | bool b => b
  | int n => n != 0
  | float x => !(x == 0.0)
  | str s => s != ""
  | arr items => !items.isEmpty
  | obj members => !members.isEmpty

mutual

/-- The text of a value inside another one, where texts are quoted. -/
def inner : Json → String
  | null => "None"
  | bool true => "True"
  | bool false => "False"
  | int n => toString n
  | float x => Decimal.floatText x
  | str s => Text.quoted s
  | arr items => "[" ++ ", ".intercalate (innerItems items) ++ "]"
  | obj members => "\x7b" ++ ", ".intercalate (innerMembers members) ++ "\x7d"

/-- The texts of the values of a list. -/
def innerItems : List Json → List String
  | [] => []
  | v :: vs => v.inner :: innerItems vs

/-- The texts of the members of an object. -/
def innerMembers : List (String × Json) → List String
  | [] => []
  | (name, v) :: rest => (Text.quoted name ++ ": " ++ v.inner) :: innerMembers rest

end

/-- The text that stands for a value: a text stands for itself. -/
def shown : Json → String
  | str s => s
  | v => v.inner

end Json

end RepoGraph
