import RepoGraph.Graph.Edge
import RepoGraph.Graph.Node
import RepoGraph.Graph.Tree
import RepoGraph.Table

/-!
# Artifacts

An artifact is what an analysis yields: the nodes and edges of the dependency graph, the tree of the
files and their roles. `Artifact.ofFiles` builds it from a snapshot; it depends on nothing else.
-/

namespace RepoGraph

/-- The result of an analysis. -/
structure Artifact where
  /-- The nodes of the graph. -/
  nodes : List Node
  /-- The edges of the graph. -/
  edges : List Edge
  /-- The tree of the files. -/
  tree : Tree
  /-- The roles of the files by path. -/
  roles : Table String

namespace Artifact

/-- The artifact of a snapshot. -/
def ofFiles (files : List FileRecord) : Artifact :=
  { nodes := files.map Node.ofFile
    edges := Edge.ofFiles files
    tree := Tree.ofPaths (files.map (·.path))
    roles := Table.ofList (files.map fun f => (f.path, Path.role f.path)) }

/-- The two artifacts are equal, with the roles in whichever order. -/
def same (a b : Artifact) : Bool :=
  a.nodes == b.nodes && a.edges == b.edges && a.tree == b.tree && a.roles.agrees b.roles

instance : BEq Artifact := ⟨same⟩

end Artifact

end RepoGraph
