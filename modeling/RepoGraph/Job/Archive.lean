import RepoGraph.Job.Store

/-!
# The archive of a store

A store can be written as a JSON value and read back, so that jobs outlive the program.
-/

namespace RepoGraph

/-- The state that a word names. -/
def JobStatus.ofName? (word : String) : Option JobStatus :=
  [JobStatus.pending, .processing, .completed, .failed].find? fun s => s.name = word

namespace Archive

/-- The text of a member. -/
def text? (v : Json) (name : String) : Option String :=
  match v.get? name with
  | some (.str s) => some s
  | _ => none

/-- The items of a member that is a list. -/
def items (v : Json) (name : String) : List Json :=
  match v.get? name with
  | some (.arr vs) => vs
  | _ => []

/-- A job in an archive. -/
def jobToJson (id : String) (r : JobRecord) : Json :=
  .obj [
    ("id", .str id),
    ("owner", .str r.repository.owner),
    ("name", .str r.repository.name),
    ("url", .str r.url),
    ("status", .str r.status.name),
    ("error", .ofOption r.error),
    ("requested_by", .ofOption r.requestedBy),
    ("created_at", .int r.createdAt.microseconds)]

/-- A job of an archive. -/
def jobOfJson? (v : Json) : Option (String × JobRecord) := do
  let id ← text? v "id"
  let owner ← text? v "owner"
  let name ← text? v "name"
  let url ← text? v "url"
  let status ← (text? v "status").bind JobStatus.ofName?
  match v.get? "created_at" with
  | some (.int microseconds) =>
    return (id, {
      repository := ⟨owner, name⟩
      url, status
      error := text? v "error"
      requestedBy := text? v "requested_by"
      createdAt := ⟨microseconds, false⟩ })
  | _ => none

/-- An artifact in an archive. -/
def artifactToJson (id : String) (a : StoredArtifact) : Json :=
  .obj [("id", .str id), ("artifact", a.document), ("digest", .str a.digest)]

/-- An artifact of an archive. -/
def artifactOfJson? (v : Json) : Option (String × StoredArtifact) := do
  return (← text? v "id", ⟨← v.get? "artifact", ← text? v "digest"⟩)

end Archive

namespace Store

/-- The archive of a store. -/
def toJson (s : Store) : Json :=
  .obj [
    ("jobs", .arr (s.jobs.entries.map fun e => Archive.jobToJson e.1 e.2)),
    ("artifacts", .arr (s.artifacts.entries.map fun e => Archive.artifactToJson e.1 e.2))]

/-- The store of an archive, if each of its items is one of a store. -/
def ofJson? (v : Json) : Option Store := do
  let jobs ← (Archive.items v "jobs").mapM Archive.jobOfJson?
  let artifacts ← (Archive.items v "artifacts").mapM Archive.artifactOfJson?
  return ⟨.ofList jobs, .ofList artifacts⟩

end Store

end RepoGraph
