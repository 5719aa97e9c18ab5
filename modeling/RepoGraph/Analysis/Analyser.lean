import RepoGraph.Analysis.Outcome
import RepoGraph.Graph.Check
import RepoGraph.Graph.Names
import RepoGraph.Job.Lifecycle
import RepoGraph.Snapshot.GitHub

/-!
# The analysis of a job

An `Analyser` takes a job through the stages of its analysis: it looks the job up, fetches a
snapshot, builds the graph, checks it, stores it, and copies it to a bucket if there is one.
The first failure ends the analysis, and the job is made a failed one with the words of the failure.
A job that is not there, or that somebody else has, is left as it is, and a copy that fails changes
nothing about the job. What says that a job is not there is the failure, at whichever stage it comes
up (`Failure.disownsJob`), so that a source that fails in that way leaves its job processing.
-/

namespace RepoGraph

/-- Who analyses jobs. -/
structure Analyser where
  /-- Where snapshots come from. -/
  source : Source
  /-- Where artifacts are copied to, if they are. -/
  bucket : Option Bucket
  /-- How many files a snapshot has at most. -/
  maxFiles : Int
  /-- How many texts are fetched at the same time. -/
  fetchConcurrency : Int

namespace Analyser

/-- The analyser that settings describe. -/
def ofSettings (s : Settings) : Analyser :=
  { source := (GitHub.ofSettings s).source
    bucket := Bucket.ofSettings? s
    maxFiles := s.maxFiles
    fetchConcurrency := s.fetchConcurrency }

/-- A failure at a stage. -/
structure Halt where
  /-- The stage. -/
  stage : Stage
  /-- The failure. -/
  cause : Failure
  deriving DecidableEq, Repr

/-- What an analysis does, up to its first failure. -/
abbrev Steps := ExceptT Halt Activity

/-- An action as a stage. -/
def stage {α : Type} (s : Stage) (a : Action α) : Steps α :=
  ExceptT.mk do return (← a.run).mapError (Halt.mk s)

/-- Looks up the job, which must be a processing one. -/
def load (id : String) : Action Job := do
  match ← Lifecycle.find id with
  | none => throw (.jobMissing id)
  | some job =>
    if job.status = .processing then return job else throw (.jobState job.id job.status.name)

/-- Writes to the log what a snapshot is to hold. -/
def logListed (job : Job) (info : RepositoryInfo) (listed selected : List TreeEntry) :
    Action Unit :=
  Action.log .info .analysis "snapshot_listed"
    [("job_id", .str job.id), ("repo", .str info.fullName), ("ref", .str info.branch),
      ("files_listed", .int listed.length), ("files_selected", .int selected.length)]

/-- Describes the repository of a job and lists the files of the snapshot. -/
def list (a : Analyser) (job : Job) : Action (RepositoryInfo × List TreeEntry) := do
  let info ← a.source.describe job.repository
  let listed ← a.source.list job.repository info.branch
  let entries := Path.select TreeEntry.path a.maxFiles listed
  logListed job info listed entries
  return (info, entries)

/-- The paths whose texts could not be fetched, each once. -/
def failedPaths (outcomes : List FetchOutcome) : List String :=
  Names.sorted ((outcomes.filter fun o => o.error?.isSome).map fun o => o.entry.path)

/-- How many files have a text. -/
def textCount (files : List FileRecord) : Nat := files.countP fun f => f.text?.isSome

/-- A snapshot with its texts. -/
structure Collected where
  /-- The files. -/
  files : List FileRecord
  /-- The paths whose texts could not be fetched. -/
  failed : List String

/-- Writes to the log what came of fetching texts. -/
def logCollected (job : Job) (c : Collected) : Action Unit := do
  unless c.failed.isEmpty do
    Action.log .warning .analysis "content_fetch_partial"
      [("job_id", .str job.id), ("failed", .int c.failed.length),
        ("sample", .arr ((c.failed.take 5).map .str))]
  Action.log .info .analysis "content_fetched"
    [("job_id", .str job.id), ("files", .int c.files.length),
      ("with_content", .int (textCount c.files))]

/-- Fetches the texts of a snapshot. -/
def collect (a : Analyser) (job : Job) (entries : List TreeEntry) : Action Collected := do
  let outcomes ← a.source.contents job.repository entries a.fetchConcurrency
  let collected := ⟨outcomes.map FetchOutcome.file, failedPaths outcomes⟩
  logCollected job collected
  return collected

/-- Builds the graph of a snapshot, which must be one that can be serialized. -/
def build (files : List FileRecord) : Action Artifact := do
  let artifact := Artifact.ofFiles files
  let _ ← Action.serialize artifact
  return artifact

/-- The artifact fits its snapshot. -/
def check (a : Artifact) (files : List FileRecord) : Action Unit :=
  Action.ofExcept ((a.check (files.map FileRecord.path)).mapError .artifact)

/-- Copies an artifact to the bucket: the address of the copy, unless there is none. -/
def copy (a : Analyser) (id : String) (artifact : Artifact) : Activity (Option String) := do
  match a.bucket with
  | none => return none
  | some bucket =>
    let object := bucket.artifactObject id artifact
    match ← Activity.query (.put object) with
    | .ok () => return some object.uri
    | .error f =>
      Activity.log .warning .analysis "artifact_mirror_failed"
        [("job_id", .str id), ("error", .str f.shown)]
      return none

/-- Stores an artifact, which completes the job, and copies it. -/
def persist (a : Analyser) (id : String) (artifact : Artifact) : Action (Option String) := do
  Lifecycle.complete id artifact
  Action.always (a.copy id artifact)

/-- The stages of the analysis of a claimed job. -/
def process (a : Analyser) (id : String) : Steps Report := do
  let job ← stage .loadJob (load id)
  let (info, entries) ← stage .fetchRepository (a.list job)
  let collected ← stage .fetchContents (a.collect job entries)
  let artifact ← stage .buildGraph (build collected.files)
  stage .validate (check artifact collected.files)
  let copyUri ← stage .persist (a.persist job.id artifact)
  return {
    job := job.id
    fullName := info.fullName
    branch := info.branch
    files := collected.files.length
    filesWithText := textCount collected.files
    failedFetches := collected.failed.length
    nodes := artifact.nodes.length
    edges := artifact.edges.length
    digest := artifact.digest
    copyUri }

/-- The words for a failure in a stage, which are never none. -/
def haltMessage (f : Failure) : String := if f.message = "" then "PipelineStageError" else f.message

/-- Makes a job a failed one; whether that was recorded. -/
def recordFailure (id : String) (s : Stage) (message : String) : Activity Bool := do
  match ← (Lifecycle.fail id message).run with
  | .ok () => return true
  | .error f =>
    Activity.log .critical .analysis "job_failure_not_recorded"
      [("job_id", .str id), ("alarm", .bool true), ("stage", .str s.name),
        ("error", .str message), ("record_error", .str f.message)]
    return false

/-- How the analysis of a claimed job ends after a failure. -/
def halted (id : String) (halt : Halt) : Activity Ending := do
  let message := haltMessage halt.cause
  if halt.cause.disownsJob then
    -- The job is taken for somebody else's, so that nothing is written about it.
    Activity.log .warning .analysis "job_not_processable"
      [("job_id", .str id), ("error", .str message)]
    return .notProcessable halt.stage message
  else
    Activity.log .error .analysis "job_failed"
      [("job_id", .str id), ("stage", .str halt.stage.name), ("error", .str message)]
    return .failed halt.stage message (← recordFailure id halt.stage message)

/-- Analyses a job that was claimed. -/
def runClaimed (a : Analyser) (id : String) : Activity Outcome := do
  match ← (a.process id).run with
  | .ok report =>
    Activity.log .info .analysis "job_completed"
      [("job_id", .str id), ("nodes", .int report.nodes), ("edges", .int report.edges)]
    return ⟨id, .completed report⟩
  | .error halt => return ⟨id, ← halted id halt⟩

/-- Claims a job and analyses it. -/
def run (a : Analyser) (id : String) : Activity Outcome := do
  match ← (Lifecycle.claim id).run with
  | .error f =>
    Activity.log .error .analysis "job_claim_failed"
      [("job_id", .str id), ("error", .str f.message)]
    return ⟨id, .notClaimed (some f.message)⟩
  | .ok false =>
    Activity.log .info .analysis "job_not_claimable" [("job_id", .str id)]
    return ⟨id, .notClaimed none⟩
  | .ok true => a.runClaimed id

end Analyser

end RepoGraph
