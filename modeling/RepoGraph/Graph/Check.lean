import RepoGraph.Graph.Artifact
import RepoGraph.Graph.Names
import RepoGraph.Text.Quoted

/-!
# Checking an artifact

`Artifact.check` accepts an artifact for a snapshot's paths if its four parts tell of exactly those
paths, and each edge joins two of them once. The parts are checked in order, and the first fault is
reported.
-/

namespace RepoGraph

/-- What is wrong with an artifact. -/
inductive ArtifactFault
  /-- Several nodes have the same name. -/
  | repeatedNodes (ids : List String)
  /-- The names of the nodes are not the paths. -/
  | otherNodes (missing extra : List String)
  /-- An edge joins a file to itself. -/
  | selfEdge (id : String)
  /-- An edge ends outside the snapshot. -/
  | danglingEdge (id : String)
  /-- Two edges join the same files. -/
  | repeatedEdge (id : String)
  /-- The root of the tree is a file. -/
  | rootIsFile
  /-- Several leaves have the same path. -/
  | repeatedLeaves (paths : List String)
  /-- The leaves are not the paths. -/
  | otherLeaves
  /-- The files with a role are not the paths. -/
  | otherRoles
  deriving DecidableEq, Repr

/-- The words for a fault, with ten names at most. -/
def ArtifactFault.message : ArtifactFault → String
  | repeatedNodes ids => "Duplicate node ids: " ++ Text.quotedList (ids.take 10)
  | otherNodes missing extra =>
    "Node ids do not match snapshot paths. Missing: " ++ Text.quotedList (missing.take 10) ++
      " Extra: " ++ Text.quotedList (extra.take 10)
  | selfEdge id => "Self-referencing edge: " ++ id
  | danglingEdge id => "Dangling edge: " ++ id
  | repeatedEdge id => "Duplicate edge: " ++ id
  | rootIsFile => "File tree root must be a dir"
  | repeatedLeaves paths => "Duplicate tree leaves: " ++ Text.quotedList (paths.take 10)
  | otherLeaves => "File tree leaves do not match snapshot paths"
  | otherRoles => "fileRoles keys do not match snapshot paths"

namespace Artifact

/-- The first fault of the nodes. -/
def nodeFault? (ids paths : List String) : Option ArtifactFault :=
  match Names.repeated ids with
  | id :: more => some (.repeatedNodes (id :: more))
  | [] =>
    if Names.sameSet ids paths then none
    else some (.otherNodes (Names.lacking ids paths) (Names.lacking paths ids))

/-- The first fault of the edges after those with the ends `seen`. -/
def edgeFault? (paths : List String) (seen : List (String × String)) :
    List Edge → Option ArtifactFault
  | [] => none
  | e :: es =>
    if e.source = e.target then some (.selfEdge e.id)
    else if !paths.contains e.source || !paths.contains e.target then some (.danglingEdge e.id)
    else if seen.contains e.ends then some (.repeatedEdge e.id)
    else edgeFault? paths (e.ends :: seen) es

/-- The first fault of the tree. -/
def treeFault? (tree : Tree) (paths : List String) : Option ArtifactFault :=
  if tree.label.kind ≠ .dir then some .rootIsFile
  else
    let leaves := tree.leaves.map (·.path)
    match Names.repeated leaves with
    | path :: more => some (.repeatedLeaves (path :: more))
    | [] => if Names.sameSet leaves paths then none else some .otherLeaves

/-- The first fault of the roles. -/
def roleFault? (roles : Table String) (paths : List String) : Option ArtifactFault :=
  if Names.sameSet roles.names paths then none else some .otherRoles

/-- The first fault of an artifact for a snapshot's paths. -/
def fault? (a : Artifact) (paths : List String) : Option ArtifactFault :=
  nodeFault? (a.nodes.map (·.id)) paths <|> edgeFault? paths [] a.edges <|>
    treeFault? a.tree paths <|> roleFault? a.roles paths

/-- Accepts an artifact for a snapshot's paths, or reports its first fault. -/
def check (a : Artifact) (paths : List String) : Except ArtifactFault Unit :=
  match a.fault? paths with
  | some fault => .error fault
  | none => .ok ()

end Artifact

end RepoGraph
