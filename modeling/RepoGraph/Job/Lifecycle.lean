import RepoGraph.World.Basic

/-!
# The life of a job

A job is created for a URL, claimed by one program, and ends completed or failed. Each step is one
transaction; `claimOldest` takes two, so that somebody else may claim the job in between, and goes
on to the next one then.
-/

namespace RepoGraph.Lifecycle

/-- Creates a pending job for the repository at a URL. -/
def create (url : String) (requestedBy : Option String) : Action Job := do
  match Repository.ofUrl? url with
  | none => throw (.url url)
  | some repository =>
    let (id, now) ← Action.always (Activity.query .newJob)
    let record : JobRecord := { repository, url, requestedBy, createdAt := now }
    Action.transact (.insert id record)
    Action.log .info .store "job_created"
      [("job_id", .str id), ("repo", .str repository.fullName)]
    return { record with id }

/-- Looks up a job. -/
def find (id : String) : Action (Option Job) := Action.transact (.find id)

/-- Makes a pending job a processing one, unless it is none: whether it was. -/
def claim (id : String) : Action Bool := do
  let claimed ← Action.transact (.claim id)
  if claimed then Action.log .info .store "job_claimed" [("job_id", .str id)]
  return claimed

/-- How many jobs are tried in turn when others claim them first. -/
def maxClaimAttempts : Nat := 5

/-- Claims the oldest pending job, trying so many times. -/
def claimOldestWithin : (attempts : Nat) → Action (Option Job)
  | 0 => return none
  | attempts + 1 => do
    match ← Action.transact .oldestPending with
    | none => return none
    | some id =>
      if ← claim id then find id
      else
        Action.log .info .store "job_claim_lost" [("job_id", .str id)]
        claimOldestWithin attempts

/-- Claims the oldest pending job, if there is one. -/
def claimOldest : Action (Option Job) := claimOldestWithin maxClaimAttempts

/-- Makes a job a completed one, with its artifact, which must be one that can be serialized. -/
def complete (id : String) (a : Artifact) : Action Unit := do
  let _ ← Action.serialize a
  Action.transact (.complete id a)

/-- Makes a job a failed one, with what went wrong. -/
def fail (id message : String) : Action Unit := Action.transact (.fail id message)

/-- Looks up the artifact of a job. -/
def artifact (id : String) : Action (Option Artifact) := Action.transact (.artifact id)

/-- Looks up the digest of a job's artifact. -/
def digest (id : String) : Action (Option String) := Action.transact (.digest id)

end RepoGraph.Lifecycle
