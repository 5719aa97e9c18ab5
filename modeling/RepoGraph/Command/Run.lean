import RepoGraph.Command.Answer
import RepoGraph.Command.LineRange
import RepoGraph.Command.LocalPath
import RepoGraph.Explain.Explanation
import RepoGraph.Service.Basic
import RepoGraph.Settings.Dotenv
import RepoGraph.Worker

/-!
# Carrying out commands

`Arguments.perform` loads variables, reads the settings off the environment, opens the log, and
carries out the command. Whatever goes wrong in the command itself becomes an answer; only a file of
variables that cannot be read or entered leaves none, and a level that nothing can be logged from.
-/

namespace RepoGraph

/-- The octets of a file. -/
def readOctets (path : String) : Action (List UInt8) :=
  Action.demand (.file (LocalPath.tidy path)) fun reply => reply.mapError .file

namespace Command

/-- More pauses than anybody waits for. -/
def maxPauses : Nat := Nat.pow 2 64

/-- More polls than a worker makes. -/
def maxPolls : Nat := Nat.pow 2 64

/-- The members of a value that is an object. -/
def membersOf : Json → List (String × Json)
  | .obj members => members
  | _ => []

/-- The files that a document lists. -/
def snapshotOf (text : String) : Except Failure (List FileRecord) := do
  match ← (Json.read text).mapError .json with
  | .arr items =>
    items.mapM fun item => (FileRecord.decode item).mapError (.mismatch "FileRecord")
  | _ => throw (.input .snapshot)

/-- Builds the graph of the files that a document lists. -/
def buildSnapshot (path : String) : Action Answer := do
  let octets ← readOctets path
  let text ← Action.ofExcept (Document.fileText octets)
  let files ← Action.ofExcept (snapshotOf text)
  let artifact := Artifact.ofFiles files
  let _ ← Action.serialize artifact
  return .ofArtifact artifact

/-- The answer to the analysis of a job. -/
def answerOutcome (o : Outcome) : Answer :=
  match o.ending with
  | .completed report => .success (membersOf report.toJson)
  | .failed stage error _ => .failure stage.name error
  | .notClaimed error => notClaimed (error.getD "")
  | .notProcessable _ error => notClaimed error
where
  /-- The answer for a job that was not claimed. -/
  notClaimed (error : String) : Answer :=
    .failure Stage.claim.name
      (if error = "" then "Analysis " ++ o.job ++ " is not PENDING" else error)

/-- Analyses one pending job. -/
def workOnce (w : Worker) : Action Answer := do
  match ← w.runOnce with
  | none => return .success [("processed", .int 0), ("outcome", .null)]
  | some outcome => return .success [("processed", .int 1), ("outcome", outcome.toJson)]

/-- Analyses pending jobs until a stop is requested or a wait is interrupted. -/
def workOn (w : Worker) : Action Answer := do
  match ← Action.always (w.run maxPolls) with
  | some n => return .success [("processed", .int n)]
  | none => return .success [("processed", .null)]

/-- The text of a file of a repository: of a local copy, or else from the server. -/
def sourceText (s : Settings) (job : Job) (path : String) (copy : Option String) :
    Action String := do
  match copy with
  | some copy => return Document.fileTextLossy (← readOctets copy)
  | none => (GitHub.ofSettings s).file job.repository path

/-- Explains a file of a repository, or some lines of it. -/
def explainFile (s : Settings) (job : Job) (path : String) (copy lines : Option String) :
    Action String := do
  let code ← sourceText s job path copy
  let access := Explain.Access.withKey s.openaiApiKey
  match lines with
  | none => Explain.file path code job.repository.fullName s.llmModel access
  | some spec =>
    let range ← Action.ofExcept ((LineRange.parse spec).mapError .input)
    Explain.snippet path (range.select code) job.repository.fullName s.llmModel access

/-- Explains the repository of a job. -/
def explainRepository (s : Settings) (job : Job) : Action String := do
  match ← Lifecycle.artifact job.id with
  | none => throw (.noArtifact job.id job.status.name)
  | some a => Explain.repository a job.repository.fullName s.llmModel (.withKey s.openaiApiKey)

/-- Explains the repository of a job, a file of it, or some lines of the file. Words that are empty
count as missing. -/
def explainJob (s : Settings) (id : String) (file copy lines : Option String) : Action Answer := do
  let present (word : Option String) : Option String := word.filter (· != "")
  match ← Lifecycle.find id with
  | none => throw (.unknownJob id)
  | some job =>
    let text ←
      match present file, present lines with
      | none, some _ => throw (.input .linesWithoutFile)
      | none, none => explainRepository s job
      | some path, lines => explainFile s job path (present copy) lines
    return .success [("job_id", .str job.id), ("explanation", .str text)]

/-- Carries out a command. -/
def carryOut (s : Settings) (c : Command) : Action Answer := do
  let service : Service := ⟨s⟩
  let openStore : Action Unit := Action.demand (.openStore s.databaseUrl) id
  match c with
  | build snapshot => buildSnapshot snapshot
  | submit url requestedBy =>
    openStore
    return .success (Service.submitted (← Service.submit url requestedBy))
  | poll id =>
    openStore
    return .success (← Service.poll id).members
  | analyse url budget requestedBy =>
    openStore
    let waited ←
      service.analyseInline url requestedBy budget Service.defaultInterval maxPauses
    return .success waited.members
  | run id =>
    openStore
    return answerOutcome (← Action.always (service.run id))
  | worker once =>
    openStore
    if once then workOnce (.ofSettings s) else workOn (.ofSettings s)
  | explain id file copy lines =>
    openStore
    explainJob s id file copy lines

/-- The answer to a command, whatever goes wrong. -/
def answer (s : Settings) (c : Command) : Activity Answer := do
  match ← (c.carryOut s).run with
  | .ok a => return a
  | .error f => return .ofFailure c f

end Command

/-- Opens the log. A level that nothing can be logged from is a failure. -/
def Settings.openLog (s : Settings) : Action Unit := do
  let least ← Action.ofExcept ((Log.threshold s.logLevel).mapError .logLevel)
  Action.always (Activity.query (.openLog least s.logJson))

namespace Arguments

/-- The environment with the variables of a file entered, unless there is no such file. -/
def entered (overrides : Bool) (env : Environment) (reply : Except FileFault (List UInt8)) :
    Except Failure Environment :=
  match reply with
  | .error (.other text) => throw (.file (.other text))
  | .error _ => return env
  | .ok octets => do
    let text ← Document.fileText octets
    (Dotenv.load overrides text env).mapError fun _ => .nullInVariable

/-- Enters the variables of a file. -/
def loadVariables (overrides : Bool) (path : String) (env : Environment) : Action Environment :=
  Action.demand (.file (LocalPath.tidy path)) (entered overrides env)

/-- Carries out a command line with settings. -/
def performWith (args : Arguments) (settings : Settings) : Action Answer := do
  settings.openLog
  Action.always (args.command.answer settings)

/-- Carries out a command line. -/
def perform (args : Arguments) (env : Environment) : Action Answer := do
  let env ←
    match args.variablesFile.filter (· != "") with
    | some path => loadVariables args.overrides path env
    | none => pure env
  args.performWith (.ofEnvironment env)

/-- A command line that names no file of variables is carried out with the environment as it is. -/
theorem perform_of_none {args : Arguments} (h : args.variablesFile.filter (· != "") = none)
    (env : Environment) : args.perform env = args.performWith (.ofEnvironment env) := by
  unfold perform
  rw [h]
  exact pure_bind env fun env => args.performWith (.ofEnvironment env)

/-- A command line that names a file of variables is carried out after they were entered. -/
theorem perform_of_some {args : Arguments} {path : String}
    (h : args.variablesFile.filter (· != "") = some path) (env : Environment) :
    args.perform env = (loadVariables args.overrides path env >>=
      fun env => args.performWith (.ofEnvironment env)) := by
  unfold perform
  rw [h]

end Arguments

end RepoGraph
