import RepoGraph.Decimal.Reading
import RepoGraph.Digest.Sha256
import RepoGraph.Graph.Artifact
import RepoGraph.Json.Writer

/-!
# Artifacts as JSON

The JSON form of an artifact: an object for each part, with the members that have a value.
`Artifact.stableText` is its text with sorted members and `Artifact.digest` the digest of that text;
equal artifacts have equal texts. Whether the text of an artifact can be had is another question: a
size with too many digits cannot be written (`Artifact.IsWritable`), and the library that turns an
artifact into a JSON value may refuse it, which a program has to ask (`Action.serialize`).
-/

namespace RepoGraph

/-- A member that is left out when it has no value. -/
def Json.optional (name : String) (value : Option Json) : List (String × Json) :=
  (value.map fun v => (name, v)).toList

/-- The members of a node. -/
def Node.members (n : Node) : List (String × Json) :=
  [("id", .str n.id), ("label", .str n.label), ("type", .str n.kind.name), ("path", .str n.path)] ++
    Json.optional "language" (n.language.map .str) ++ Json.optional "role" (n.role.map .str) ++
    Json.optional "size" (n.size.map .int)

/-- The JSON form of a node. -/
def Node.toJson (n : Node) : Json := .obj n.members

/-- The members of an edge. -/
def Edge.members (e : Edge) : List (String × Json) :=
  [("id", .str e.id), ("source", .str e.source), ("target", .str e.target),
    ("type", .str e.kind.name)]

/-- The JSON form of an edge. -/
def Edge.toJson (e : Edge) : Json := .obj e.members

/-- The members of a node of a tree, given the JSON forms of its children. -/
def TreeLabel.members (l : TreeLabel) (children : Option (List Json)) : List (String × Json) :=
  [("name", .str l.name), ("path", .str l.path), ("type", .str l.kind.name)] ++
    Json.optional "children" (children.map .arr) ++
    Json.optional "language" (l.language.map .str)

mutual

/-- The JSON form of a tree. -/
def Tree.toJson : Tree → Json
  | .bare l => .obj (l.members none)
  | .branch l cs => .obj (l.members (some (Tree.allToJson cs)))

/-- The JSON forms of several trees. -/
def Tree.allToJson : List Tree → List Json
  | [] => []
  | t :: ts => t.toJson :: Tree.allToJson ts

end

namespace Artifact

/-- The members of an artifact. -/
def members (a : Artifact) : List (String × Json) :=
  [("nodes", .arr (a.nodes.map Node.toJson)), ("edges", .arr (a.edges.map Edge.toJson)),
    ("fileTree", a.tree.toJson), ("fileRoles", .obj (a.roles.entries.map fun e => (e.1, .str e.2)))]

/-- The JSON form of an artifact. -/
def toJson (a : Artifact) : Json := .obj a.members

/-- The text by which an artifact is compared and stored. -/
def stableText (a : Artifact) : String := a.toJson.stable

/-- The size of no file has more digits than are written. -/
def IsWritable (a : Artifact) : Prop :=
  ∀ n ∈ a.nodes, ∀ z ∈ n.size, Decimal.digitCount z.natAbs ≤ Decimal.digitLimit

instance (a : Artifact) : Decidable a.IsWritable :=
  inferInstanceAs <| Decidable <|
    ∀ n ∈ a.nodes, ∀ z ∈ n.size, Decimal.digitCount z.natAbs ≤ Decimal.digitLimit

/-- The digest of an artifact's text. -/
def digest (a : Artifact) : String := Digest.sha256Text a.stableText

end Artifact

end RepoGraph
