import RepoGraph.Graph.Artifact
import RepoGraph.Graph.Names

/-!
# Summaries of artifacts

A summary holds what an explanation rests on: how large the graph is, its main language, the files
that most others refer to, the files where requests enter, and how many files play which role. It
depends on the contents of the artifact alone and not on their order.
-/

namespace RepoGraph

/-- The summary of an artifact. -/
structure Summary where
  /-- How many files the graph has. -/
  files : Nat
  /-- How many edges the graph has. -/
  edges : Nat
  /-- The language of the most files. -/
  language : Option String
  /-- The files that are referred to most, with how often. -/
  hubs : List (String × Nat)
  /-- The files where requests enter. -/
  entries : List String
  /-- The roles, with how many files play them. -/
  roles : List (String × Nat)
  deriving DecidableEq, Repr

namespace Summary

/-- How often each name occurs, in the order of the names. -/
def counts (names : List String) : List (String × Nat) :=
  (Names.sorted names).map fun n => (n, names.count n)

/-- A name comes before another in a ranking: it occurs more often, or as often and is less. -/
def outranks (a b : String × Nat) : Bool :=
  b.2 < a.2 || (a.2 == b.2 && decide (a.1 ≤ b.1))

/-- The names by how often they occur, the most frequent first. -/
def ranking (names : List String) : List (String × Nat) := (counts names).mergeSort outranks

/-- The first items, or, for a negative number, all but so many of the last. -/
def first {α : Type} (n : Int) (items : List α) : List α :=
  if 0 ≤ n then items.take n.toNat else items.take (items.length - (-n).toNat)

/-- What the roles of files where requests enter begin with. -/
def entryRoles : List String := ["Page", "Layout", "API Route"]

/-- The role is one of a file where requests enter. -/
def isEntryRole (role : String) : Bool :=
  entryRoles.any fun r => r.toList.isPrefixOf role.toList

/-- The paths of the files where requests enter, in increasing order. -/
def entryPaths (roles : Table String) : List String :=
  ((roles.entries.filter fun e => isEntryRole e.2).map Prod.fst).mergeSort fun a b => decide (a ≤ b)

/-- How many files are named unless said otherwise. -/
def defaultTop : Int := 5

/-- The summary of an artifact that names so many files. -/
def ofArtifact (a : Artifact) (top : Int) : Summary :=
  { files := a.nodes.length
    edges := a.edges.length
    language := (ranking ((a.nodes.filterMap Node.language).filter (· != ""))).head?.map Prod.fst
    hubs := first top (ranking (a.edges.map Edge.target))
    entries := first top (entryPaths a.roles)
    roles := counts a.roles.values }

end Summary

end RepoGraph
