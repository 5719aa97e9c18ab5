import RepoGraph.Json.Basic
import RepoGraph.Job.Basic

/-!
# Outcomes of analyses

An analysis goes through stages. Its outcome says which job it was, in which state it left the job,
and, depending on that, what was found or what went wrong at which stage.
-/

namespace RepoGraph

/-- The stages of an analysis. -/
inductive Stage
  /-- The job is claimed. -/
  | claim
  /-- The job is looked up. -/
  | loadJob
  /-- The repository is described and its files are listed. -/
  | fetchRepository
  /-- The texts of the files are fetched. -/
  | fetchContents
  /-- The graph is built. -/
  | buildGraph
  /-- The graph is checked against the files. -/
  | validate
  /-- The graph is stored. -/
  | persist
  /-- The analysis is done. -/
  | done
  deriving DecidableEq, Repr

/-- The name of a stage. -/
def Stage.name : Stage → String
  | claim => "claim"
  | loadJob => "load_job"
  | fetchRepository => "fetch_repo"
  | fetchContents => "fetch_contents"
  | buildGraph => "build_graph"
  | validate => "validate"
  | persist => "persist"
  | done => "done"

/-- What an analysis found. -/
structure Report where
  /-- The job. -/
  job : String
  /-- The full name of the repository. -/
  fullName : String
  /-- The branch that was looked at. -/
  branch : String
  /-- How many files the snapshot has. -/
  files : Nat
  /-- How many of them have a text. -/
  filesWithText : Nat
  /-- The texts of how many paths could not be fetched. -/
  failedFetches : Nat
  /-- How many nodes the graph has. -/
  nodes : Nat
  /-- How many edges the graph has. -/
  edges : Nat
  /-- The digest of the artifact's text. -/
  digest : String
  /-- The address of the artifact's copy, if there is one. -/
  copyUri : Option String
  deriving DecidableEq, Repr

/-- A report in JSON. -/
def Report.toJson (r : Report) : Json :=
  .obj [
    ("ok", .bool true),
    ("stage", .str Stage.done.name),
    ("job_id", .str r.job),
    ("repo", .str r.fullName),
    ("ref", .str r.branch),
    ("counts", .obj [
      ("files", .int r.files),
      ("files_with_content", .int r.filesWithText),
      ("content_fetch_failures", .int r.failedFetches),
      ("nodes", .int r.nodes),
      ("edges", .int r.edges)]),
    ("artifact_sha256", .str r.digest),
    ("s3_uri", .ofOption r.copyUri)]

/-- How an analysis ended. -/
inductive Ending
  /-- The job could not be claimed: it is not pending, or, with the words, the store failed. -/
  | notClaimed (error : Option String)
  /-- At a stage the job was said not to be there or not to be processing, in these words. -/
  | notProcessable (stage : Stage) (error : String)
  /-- A stage failed, with these words; the job may or may not have been made a failed one. -/
  | failed (stage : Stage) (error : String) (recorded : Bool)
  /-- The job was completed. -/
  | completed (report : Report)
  deriving DecidableEq, Repr

/-- The outcome of the analysis of a job. -/
structure Outcome where
  /-- The job. -/
  job : String
  /-- How the analysis ended. -/
  ending : Ending
  deriving DecidableEq, Repr

namespace Outcome

/-- The state in which the analysis left the job, if it had the job. -/
def status? (o : Outcome) : Option JobStatus :=
  match o.ending with
  | .failed .. => some .failed
  | .completed _ => some .completed
  | _ => none

/-- The analysis had the job. -/
def isClaimed (o : Outcome) : Bool := o.status?.isSome

/-- What went wrong. -/
def error? (o : Outcome) : Option String :=
  match o.ending with
  | .notClaimed error => error
  | .notProcessable _ error => some error
  | .failed _ error _ => some error
  | .completed _ => none

/-- The stage at which the analysis ended. -/
def stage? (o : Outcome) : Option Stage :=
  match o.ending with
  | .notClaimed none => none
  | .notClaimed (some _) => some .claim
  | .notProcessable stage _ => some stage
  | .failed stage _ _ => some stage
  | .completed _ => some .done

/-- What the analysis did to the job was recorded. -/
def isRecorded (o : Outcome) : Bool :=
  match o.ending with
  | .failed _ _ recorded => recorded
  | _ => true

/-- What was found. -/
def report? (o : Outcome) : Option Report :=
  match o.ending with
  | .completed report => some report
  | _ => none

/-- An outcome in JSON. -/
def toJson (o : Outcome) : Json :=
  .obj [
    ("job_id", .str o.job),
    ("status", .ofOption (o.status?.map JobStatus.name)),
    ("claimed", .bool o.isClaimed),
    ("error", .ofOption o.error?),
    ("stage", .ofOption (o.stage?.map Stage.name)),
    ("failure_recorded", .bool o.isRecorded),
    ("result", (o.report?.map Report.toJson).getD .null)]

end Outcome

end RepoGraph
