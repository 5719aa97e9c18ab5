import RepoGraph.Graph.Artifact
import RepoGraph.Http.Basic

/-!
# Dumping nested artifacts

The library that dumps an artifact to a JSON value recurses into the file tree. It counts the nodes
on the way down, and takes a tree of too many levels for one that holds itself.
-/

namespace RepoGraph

mutual

/-- How many nodes there are on the longest way down a tree. -/
def Tree.depth : Tree → Nat
  | .bare _ => 1
  | .branch _ cs => Tree.depthOf cs + 1

/-- How many nodes there are on the longest way down several trees. -/
def Tree.depthOf : List Tree → Nat
  | [] => 0
  | t :: ts => max t.depth (Tree.depthOf ts)

end

namespace Artifact

/-- So many levels of a file tree are too many. -/
def depthLimit : Nat := 255

/-- The fault of a tree with too many levels. -/
def depthFault : OutsideFault := ⟨"ValueError", "Circular reference detected (depth exceeded)"⟩

/-- The reply of the library that is to dump an artifact. -/
def dumped (a : Artifact) : Except OutsideFault Unit :=
  if a.tree.depth < depthLimit then .ok () else .error depthFault

end Artifact

end RepoGraph
