import RepoGraph.Analysis.Analyser
import RepoGraph.Service.Waiting

/-!
# The service

The service is how jobs look from outside: they are submitted, looked at, run, and waited for. What
is seen of a job has an artifact once the job is completed and an error once it failed. Waiting for
a job is looking at it again and again; it changes nothing about the job.
-/

namespace RepoGraph

/-- What is seen of a job. -/
structure JobView where
  /-- The job. -/
  job : Job
  /-- The artifact, if the job is completed. -/
  artifact : Option Artifact

namespace JobView

/-- What went wrong, if the job failed. -/
def error? (v : JobView) : Option String :=
  if v.job.status = .failed then v.job.error else none

/-- The job has ended. -/
def isFinal (v : JobView) : Bool := v.job.status.isTerminal

/-- The members of a view in JSON. -/
def members (v : JobView) : List (String × Json) :=
  [("id", .str v.job.id),
    ("status", .str v.job.status.name),
    ("error", .ofOption v.error?),
    ("artifact", (v.artifact.map Artifact.toJson).getD .null),
    ("repo", .obj [
      ("owner", .str v.job.repository.owner),
      ("name", .str v.job.repository.name),
      ("fullName", .str v.job.repository.fullName)]),
    ("createdAt", .str v.job.createdAt.text)]

end JobView

/-- The members of a view that was waited for, in JSON. -/
def Waited.members (w : Waited JobView) : List (String × Json) :=
  w.view.members ++ [("timedOut", .bool w.timedOut)]

/-- How jobs are dealt with from outside. -/
structure Service where
  /-- The settings. -/
  settings : Settings

namespace Service

/-- Submits the repository at a URL to be analysed. -/
def submit (url : String) (requestedBy : Option String) : Action Job :=
  Lifecycle.create url requestedBy

/-- The members of a submitted job in JSON. -/
def submitted (job : Job) : List (String × Json) :=
  [("jobId", .str job.id), ("status", .str job.status.name)]

/-- Looks at a job. -/
def poll (id : String) : Action JobView := do
  match ← Lifecycle.find id with
  | none => throw (.unknownJob id)
  | some job =>
    if job.status = .completed then return ⟨job, ← Lifecycle.artifact id⟩
    else return ⟨job, none⟩

/-- Claims a job and analyses it. -/
def run (s : Service) (id : String) : Activity Outcome := (Analyser.ofSettings s.settings).run id

/-- How many seconds pass between two looks at a job unless said otherwise. -/
def defaultInterval : Float := 1.0

/-- The clock of the world, and its way to let time pass. -/
def timer : Timer Action Float :=
  ⟨Action.always (Activity.query .clock), fun s => Action.always (Activity.query (.sleep s))⟩

/-- Looks at a job until it has ended or the budget is used up, with at most so many pauses. -/
def await (s : Service) (id : String) (budget : Option Float) (interval : Float) (pauses : Nat) :
    Action (Waited JobView) := do
  let budget := budget.getD s.settings.inlineBudgetSeconds
  let waited ← Waited.within timer (poll id) JobView.isFinal interval budget pauses
  if waited.timedOut then
    Action.log .info .service "inline_budget_exhausted"
      [("job_id", .str id), ("status", .str waited.view.job.status.name),
        ("budget_seconds", .float budget)]
  return waited

/-- Submits the repository at a URL, lets it be analysed beside this program, and waits for it. -/
def analyseInline (s : Service) (url : String) (requestedBy : Option String)
    (budget : Option Float) (interval : Float) (pauses : Nat) : Action (Waited JobView) := do
  let job ← submit url requestedBy
  Action.always (Activity.query (.background s.settings job.id))
  s.await job.id budget interval pauses

end Service

end RepoGraph
