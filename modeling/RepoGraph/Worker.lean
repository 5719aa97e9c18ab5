import RepoGraph.Analysis.Analyser

/-!
# Workers

A worker analyses pending jobs, the oldest first, one at a time. As long as there are jobs it goes
on without a pause; when there are none, or when something failed, it waits before it looks again.
Several workers may share a store, since each job is claimed by one of them only.
-/

namespace RepoGraph

/-- Who analyses pending jobs. -/
structure Worker where
  /-- How jobs are analysed. -/
  analyser : Analyser
  /-- How many seconds to wait when there is nothing to do. -/
  pollInterval : Float

namespace Worker

/-- The worker that settings describe. -/
def ofSettings (s : Settings) : Worker := ⟨.ofSettings s, s.pollIntervalSeconds⟩

/-- Claims the oldest pending job and analyses it, if there is one. -/
def runOnce (w : Worker) : Action (Option Outcome) := do
  match ← Lifecycle.claimOldest with
  | none => return none
  | some job =>
    Action.log .info .worker "worker_processing"
      [("job_id", .str job.id), ("repo", .str job.repository.fullName)]
    return some (← Action.always (w.analyser.runClaimed job.id))

/-- Looks for a job once; whether one was analysed. A failure is logged. -/
def poll (w : Worker) : Activity Bool := do
  match ← w.runOnce.run with
  | .ok outcome => return outcome.isSome
  | .error f =>
    Activity.log .error .worker "worker_poll_failed" [("error", .str f.message)]
    return false

/-- Looks for jobs at most so many times, until a stop is requested: how many were analysed in all,
after `analysed` before. An interruption of a wait leaves no number. -/
def loop (w : Worker) : (limit : Nat) → (analysed : Nat) → Activity (Option Nat)
  | 0, analysed => return some analysed
  | limit + 1, analysed => do
    if ← Activity.query .stopRequested then return some analysed
    else if ← w.poll then w.loop limit (analysed + 1)
    else
      match ← Activity.query (.wait w.pollInterval) with
      | .ready => w.loop limit analysed
      | .interrupted => return none

/-- Looks for jobs at most so many times, until a stop is requested: how many were analysed, unless
the worker was interrupted. -/
def run (w : Worker) (limit : Nat) : Activity (Option Nat) := do
  Activity.log .info .worker "worker_started" [("poll_interval_seconds", .float w.pollInterval)]
  let analysed ← w.loop limit 0
  if let some n := analysed then
    Activity.log .info .worker "worker_stopped" [("processed", .int n)]
  return analysed

end Worker

end RepoGraph
