import RepoGraph.Json.Basic

/-!
# Writing JSON

Two styles of text without white space. `compact` keeps the members of an object in their order and
writes every character outside printable ASCII as an escape; `stable` sorts the members by name and
keeps the characters, so that equal values have equal texts.
-/

namespace RepoGraph.Json

open RepoGraph.Text

/-- The layout of floating-point numbers in JSON. -/
def numberLayout : Decimal.Layout := { notANumber := "NaN", infinity := "Infinity" }

/-- The escape by code of a number below `0x10000`. -/
def codeEscape (n : Nat) : List Char := '\\' :: 'u' :: hexText 4 n

/-- The escapes that every style uses. -/
def shortEscape? (c : Char) : Option (List Char) :=
  match c with
  | '"' => some ['\\', '"']
  | '\\' => some ['\\', '\\']
  | '\n' => some ['\\', 'n']
  | '\r' => some ['\\', 'r']
  | '\t' => some ['\\', 't']
  | '\x08' => some ['\\', 'b']
  | '\x0c' => some ['\\', 'f']
  | _ => none

/-- A character with only what must be escaped as an escape. -/
def plainChar (c : Char) : List Char :=
  match shortEscape? c with
  | some e => e
  | none => if c.toNat < 0x20 then codeEscape c.toNat else [c]

/-- A character in printable ASCII: others are escapes by code, as a pair of halves where four
digits do not suffice. -/
def asciiChar (c : Char) : List Char :=
  match shortEscape? c with
  | some e => e
  | none =>
    let n := c.toNat
    if 0x20 ≤ n && n ≤ 0x7E then [c]
    else if n < 0x10000 then codeEscape n
    else codeEscape (0xD800 + (n - 0x10000) / 0x400) ++ codeEscape (0xDC00 + (n - 0x10000) % 0x400)

/-- What a style of writing decides. -/
structure Style where
  /-- How a character of a text stands between its marks. -/
  character : Char → List Char
  /-- The members of an object are sorted by name. -/
  sorted : Bool

/-- Members in their order, printable ASCII only. -/
def Style.compact : Style := ⟨asciiChar, false⟩

/-- Members sorted by name, characters kept. -/
def Style.stable : Style := ⟨plainChar, true⟩

/-- A text between its marks. -/
def writeText (style : Style) (s : String) : List Char :=
  '"' :: s.toList.flatMap style.character ++ ['"']

/-- Parts separated by commas. -/
def commaSeparated : List (List Char) → List Char
  | [] => []
  | [part] => part
  | part :: rest => part ++ ',' :: commaSeparated rest

/-- The members by name, in increasing order. -/
def sortMembers {α : Type} (members : List (String × α)) : List (String × α) :=
  members.mergeSort fun a b => decide (a.1 ≤ b.1)

/-- The members of an object in the order in which a style writes them. -/
def Style.order (style : Style) {α : Type} (members : List (String × α)) : List (String × α) :=
  if style.sorted then sortMembers members else members

mutual

/-- The text of a value. -/
def write (style : Style) : Json → List Char
  | null => ['n', 'u', 'l', 'l']
  | bool true => ['t', 'r', 'u', 'e']
  | bool false => ['f', 'a', 'l', 's', 'e']
  | int n => (toString n).toList
  | float x => (numberLayout.write x).toList
  | str s => writeText style s
  | arr items => '[' :: commaSeparated (writeItems style items) ++ [']']
  | obj members =>
    let ordered := style.order (writeMembers style members)
    '{' :: commaSeparated (ordered.map fun m => writeText style m.1 ++ ':' :: m.2) ++ ['}']

/-- The texts of the values of a list. -/
def writeItems (style : Style) : List Json → List (List Char)
  | [] => []
  | v :: vs => write style v :: writeItems style vs

/-- The names of an object with the texts of their values. -/
def writeMembers (style : Style) : List (String × Json) → List (String × List Char)
  | [] => []
  | (name, v) :: rest => (name, write style v) :: writeMembers style rest

end

/-- The text of a value with its members in order, in printable ASCII. -/
def compact (v : Json) : String := String.ofList (write .compact v)

/-- The text of a value with its members sorted. -/
def stable (v : Json) : String := String.ofList (write .stable v)

end RepoGraph.Json
