import RepoGraph.Graph.File
import RepoGraph.Reference.Extractor
import RepoGraph.Reference.Resolution

/-!
# Edges of a dependency graph

An edge says that one file refers to another. `Edge.ofFiles` gives one edge for each pair of files
of which the first has a reference that resolves to the second: in the order of the first such
references, and of their kind.
-/

namespace RepoGraph

/-- One file refers to another. -/
structure Edge where
  /-- The name of the edge. -/
  id : String
  /-- The path of the file that refers. -/
  source : String
  /-- The path of the file referred to. -/
  target : String
  /-- The kind of the reference. -/
  kind : ReferenceKind
  deriving DecidableEq, Repr

namespace Edge

/-- The sign between the two paths in the name of an edge. -/
def separator : String := "→"

/-- The edge between two files. -/
def between (source target : String) (kind : ReferenceKind) : Edge :=
  ⟨source ++ separator ++ target, source, target, kind⟩

/-- The files that an edge joins. -/
def ends (e : Edge) : String × String := (e.source, e.target)

/-- The edge of a reference in a file, if it resolves to another known file. -/
def ofReference? (known : List String) (source : String) (r : Reference) : Option Edge :=
  match Specifier.resolve r.specifier source known with
  | some target => if target = source then none else some (between source target r.kind)
  | none => none

/-- The edges of the references of one file, in their order and with repetitions. -/
def ofFile (known : List String) (f : FileRecord) : List Edge :=
  match f.text? with
  | some text => (referencesOf f.path text).filterMap (ofReference? known f.path)
  | none => []

/-- The edges whose ends are not among `seen` and not those of an earlier one. -/
def keepFirst (seen : List (String × String)) : List Edge → List Edge
  | [] => []
  | e :: es =>
    if seen.contains e.ends then keepFirst seen es else e :: keepFirst (e.ends :: seen) es

/-- The edges of a snapshot. -/
def ofFiles (files : List FileRecord) : List Edge :=
  keepFirst [] (files.flatMap (ofFile (files.map (·.path))))

end Edge

end RepoGraph
