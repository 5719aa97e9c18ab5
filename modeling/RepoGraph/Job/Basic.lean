import RepoGraph.Job.Time
import RepoGraph.Repository.Url

/-!
# Jobs

A job is a request to analyse a repository. It is made pending, is processed by the one who claims
it, and ends completed or failed.
-/

namespace RepoGraph

/-- The states of a job. -/
inductive JobStatus
  /-- Nobody has claimed the job. -/
  | pending
  /-- The job was claimed and has not ended. -/
  | processing
  /-- The job ended with an artifact. -/
  | completed
  /-- The job ended with an error. -/
  | failed
  deriving DecidableEq, Repr

namespace JobStatus

/-- The word for a state. -/
def name : JobStatus → String
  | pending => "PENDING"
  | processing => "PROCESSING"
  | completed => "COMPLETED"
  | failed => "FAILED"

/-- The job has ended. -/
def isTerminal : JobStatus → Bool
  | completed => true
  | failed => true
  | _ => false

end JobStatus

/-- What is recorded of a job. -/
structure JobRecord where
  /-- The repository. -/
  repository : Repository
  /-- The URL that the job was asked for with. -/
  url : String
  /-- The state. -/
  status : JobStatus := .pending
  /-- What went wrong. -/
  error : Option String := none
  /-- Who asked for the job. -/
  requestedBy : Option String := none
  /-- When the job was made. -/
  createdAt : Timestamp
  deriving DecidableEq, Repr

namespace JobRecord

/-- The record of a job that was claimed. -/
def claimed (r : JobRecord) : JobRecord := { r with status := .processing }

/-- The record of a job that ended with an artifact. -/
def completed (r : JobRecord) : JobRecord := { r with status := .completed, error := none }

/-- The record of a job that ended with an error. -/
def failed (message : String) (r : JobRecord) : JobRecord :=
  { r with status := .failed, error := some message }

/-- The record as the database keeps it, which is without the zone of its time. -/
def stored (r : JobRecord) : JobRecord :=
  { r with createdAt := { r.createdAt with zoned := false } }

end JobRecord

/-- A job: its name and its record. -/
structure Job extends JobRecord where
  /-- The name of the job. -/
  id : String
  deriving DecidableEq, Repr

end RepoGraph
