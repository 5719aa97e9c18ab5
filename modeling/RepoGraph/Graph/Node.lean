import RepoGraph.Graph.File
import RepoGraph.Path.Role

/-!
# Nodes of a dependency graph

A node stands for a file and tells what its path shows of it.
-/

namespace RepoGraph

/-- What a node stands for. -/
inductive NodeKind
  /-- A file of the snapshot. -/
  | file
  /-- A directory. -/
  | folder
  /-- Something outside the snapshot. -/
  | external
  deriving DecidableEq, Repr

/-- The word for a kind. -/
def NodeKind.name : NodeKind → String
  | file => "file"
  | folder => "folder"
  | external => "external"

/-- The kind with a name. -/
def NodeKind.ofName? (name : String) : Option NodeKind :=
  [NodeKind.file, .folder, .external].find? fun k => k.name == name

/-- A node of a graph. -/
structure Node where
  /-- The name of the node. -/
  id : String
  /-- The text to show. -/
  label : String
  /-- What the node stands for. -/
  kind : NodeKind
  /-- The path. -/
  path : String
  /-- The language, if it is known. -/
  language : Option String
  /-- The role, if it is known. -/
  role : Option String
  /-- The size, if it is known. -/
  size : Option Int
  deriving DecidableEq, Repr

/-- The node of a file. -/
def Node.ofFile (f : FileRecord) : Node :=
  { id := f.path
    label := if Path.base f.path = "" then f.path else Path.base f.path
    kind := .file
    path := f.path
    language := Path.language? f.path
    role := some (Path.role f.path)
    size := f.size }

end RepoGraph
