import RepoGraph.Path.Basic
import RepoGraph.Text.Blank

/-!
# From a specifier to a file

`resolve` finds the file that a specifier means, among the paths of a snapshot. A specifier may mean
one if it is relative or begins with an alias; `stem?` turns it into a path without its extension,
and the first of the `candidates` that is known is the answer. This approximates what bundlers do;
no configuration is read.
-/

namespace RepoGraph.Specifier

open RepoGraph.Text

/-- The alias of the snapshot's root. -/
def rootAlias : List Char := ['@', '/']

/-- The alias of a home directory, of which a snapshot has none. -/
def homeAlias : List Char := ['~', '/']

/-- The endings tried on a stem, in their order. -/
def candidateEndings : List String := ["", ".ts", ".tsx", ".js", "/index.ts", "/index.tsx"]

/-- The specifier may mean a file of the snapshot. -/
def isInternal (specifier : String) : Bool :=
  let s := specifier.toList
  startsWith ['.'] s || startsWith rootAlias s || startsWith homeAlias s

/-- The text with every `/./` made one slash, from left to right; occurrences do not overlap. -/
def dropCurrent : List Char → List Char
  | '/' :: '.' :: '/' :: cs => '/' :: dropCurrent cs
  | c :: cs => c :: dropCurrent cs
  | [] => []

/-- The text with every run of slashes made one slash. -/
def squeezeSlashes : List Char → List Char
  | [] => []
  | c :: cs =>
    if c = '/' ∧ cs.head? = some '/' then squeezeSlashes cs else c :: squeezeSlashes cs

/-- The segments of a path from the root, last first, after going through further segments: empty
ones and `.` stay, `..` goes up, and there is no way up from the root. -/
def walk (done : List (List Char)) : List (List Char) → Option (List (List Char))
  | [] => some done
  | s :: rest =>
    if s = [] ∨ s = ['.'] then walk done rest
    else if s = ['.', '.'] then
      match done with
      | [] => none
      | _ :: above => walk above rest
    else walk (s :: done) rest

/-- The path that a text of segments leads to from the root. -/
def foldSegments (s : List Char) : Option (List Char) :=
  (walk [] (splitOn '/' s)).map fun done => joinWith '/' done.reverse

/-- The specifier put after the directory of the file that holds it, or after the root for the
root's alias. -/
def joined (specifier source : String) : List Char :=
  match after? rootAlias specifier.toList with
  | some rest => rest
  | none =>
    match Path.parent source with
    | "" => specifier.toList
    | directory => directory.toList ++ '/' :: specifier.toList

/-- The path that a specifier in a file leads to, without its ending; there is none for the root
itself and for what lies above it. -/
def stem? (specifier source : String) : Option String :=
  match foldSegments (squeezeSlashes (dropCurrent (joined specifier source))) with
  | some (c :: cs) => some (String.ofList (c :: cs))
  | _ => none

/-- The paths that a stem may mean, in the order in which they are tried. -/
def candidates (stem : String) : List String := candidateEndings.map (stem ++ ·)

/-- The known path that a specifier in a file means. -/
def resolve (specifier source : String) (known : List String) : Option String :=
  let s := trimmed specifier
  if isInternal s then
    (stem? s source).bind fun stem => (candidates stem).find? known.contains
  else none

end RepoGraph.Specifier
