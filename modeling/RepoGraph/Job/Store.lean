import RepoGraph.Failure
import RepoGraph.Graph.Encoding
import RepoGraph.Job.Basic

/-!
# The store of jobs and artifacts

The store holds two tables: the records of the jobs, and the artifact of each job that was completed
with the digest of its text. It is changed by transactions only, each of which happens as a whole
or, if it fails, not at all. Two guarantees rest on that: a job is claimed by an update that takes
effect only while the job is pending, so that one claim of it succeeds at most; and completing a job
sets its artifact, so that completing it again replaces the artifact.
-/

namespace RepoGraph

/-- A stored artifact. -/
structure StoredArtifact where
  /-- The JSON form of the artifact. -/
  document : Json
  /-- The digest of the artifact's text. -/
  digest : String

/-- The jobs and artifacts. -/
structure Store where
  /-- The records of the jobs by name, in the order in which they were made. -/
  jobs : Table JobRecord
  /-- The artifacts by the name of their job. -/
  artifacts : Table StoredArtifact

/-- What can be done with the store in one step. -/
inductive Transaction
  /-- Enter a new job. -/
  | insert (id : String) (record : JobRecord)
  /-- Look up a job. -/
  | find (id : String)
  /-- Make a pending job a processing one. -/
  | claim (id : String)
  /-- Look up which pending job is the oldest. -/
  | oldestPending
  /-- Set the artifact of a job and make the job a completed one. -/
  | complete (id : String) (artifact : Artifact)
  /-- Make a job a failed one. -/
  | fail (id : String) (message : String)
  /-- Look up the artifact of a job. -/
  | artifact (id : String)
  /-- Look up the digest of a job's artifact. -/
  | digest (id : String)

/-- What a transaction yields. -/
abbrev Transaction.Result : Transaction → Type
  | insert .. => Unit
  | find _ => Option Job
  | claim _ => Bool
  | oldestPending => Option String
  | complete .. => Unit
  | fail .. => Unit
  | artifact _ => Option Artifact
  | digest _ => Option String

namespace Store

/-- The store without jobs. -/
def empty : Store := ⟨.empty, .empty⟩

instance : Inhabited Store := ⟨empty⟩

/-- The job with a name. -/
def job? (s : Store) (id : String) : Option Job :=
  (s.jobs.lookup? id).map fun record => { record with id }

/-- A failure that says that there is no job with a name. -/
def notFound (id : String) : Failure := .store ("Analysis " ++ id ++ " not found")

/-- The store with the record of a job changed, if there is such a job. -/
def update (s : Store) (id : String) (change : JobRecord → JobRecord) : Store :=
  match s.jobs.lookup? id with
  | some record => { s with jobs := s.jobs.insert id (change record) }
  | none => s

/-- The record is older than another one, or of the same age with a lesser name. -/
def isOlder (a b : String × JobRecord) : Bool :=
  a.2.createdAt.microseconds < b.2.createdAt.microseconds ||
    (a.2.createdAt.microseconds == b.2.createdAt.microseconds && decide (a.1 < b.1))

/-- The older of two records. -/
def older (a b : String × JobRecord) : String × JobRecord := if isOlder b a then b else a

/-- The pending jobs, in the order in which they were made. -/
def pending (s : Store) : List (String × JobRecord) :=
  s.jobs.entries.filter fun e => e.2.status == .pending

/-- The name of the oldest pending job. -/
def oldestPending? (s : Store) : Option String :=
  match s.pending with
  | [] => none
  | e :: es => some (es.foldl older e).1

/-- The artifact of a job, decoded from its JSON form. -/
def artifact? (s : Store) (id : String) : Except Failure (Option Artifact) :=
  match s.artifacts.lookup? id with
  | none => .ok none
  | some stored =>
    match Artifact.decode stored.document with
    | .ok a => .ok (some a)
    | .error faults => .error (.mismatch "Artifact" faults)

/-- What a transaction yields, and the store after it. -/
def perform (s : Store) : (t : Transaction) → Except Failure t.Result × Store
  | .insert id record =>
    if s.jobs.contains id then (.error .database, s)
    else (.ok (), { s with jobs := s.jobs.insert id record.stored })
  | .find id => (.ok (s.job? id), s)
  | .claim id =>
    match s.jobs.lookup? id with
    | some record =>
      if record.status = .pending then
        (.ok true, s.update id JobRecord.claimed)
      else (.ok false, s)
    | none => (.ok false, s)
  | .oldestPending => (.ok s.oldestPending?, s)
  | .complete id a =>
    if s.jobs.contains id then
      let stored := { s with artifacts := s.artifacts.insert id ⟨a.toJson, a.digest⟩ }
      (.ok (), stored.update id JobRecord.completed)
    else (.error (notFound id), s)
  | .fail id message =>
    if s.jobs.contains id then
      (.ok (), s.update id (JobRecord.failed message))
    else (.error (notFound id), s)
  | .artifact id => (s.artifact? id, s)
  | .digest id => (.ok ((s.artifacts.lookup? id).map (·.digest)), s)

end Store

end RepoGraph
