import RepoGraph.Graph.Check
import RepoGraph.Graph.Decoding
import RepoGraph.Http.Basic
import RepoGraph.Json.Fault
import RepoGraph.Log.Line
import RepoGraph.Repository.Url
import RepoGraph.Text.Utf8

/-!
# Failures

Whatever can end an operation early, as causes. `Failure.message` has the words, and
`Failure.summary` words that are never none.
-/

namespace RepoGraph

/-- Why a snapshot could not be fetched. -/
inductive FetchFault
  /-- The request for the repository or a file failed. -/
  | request (text : String)
  /-- The request for the list of files failed. -/
  | listRequest (text : String)
  /-- There is no such repository. -/
  | noRepository (owner name : String)
  /-- No more requests are allowed for now. -/
  | rateLimit
  /-- The repository was answered with another status. -/
  | status (status : Int)
  /-- The repository was answered with something else. -/
  | payload
  /-- The list of files was answered with another status. -/
  | listStatus (status : Int)
  /-- The list of files was answered with something else. -/
  | noTree
  /-- The file was answered with another status. -/
  | fileStatus (path : String) (status : Int)
  /-- The path is that of a directory. -/
  | directory (path : String)
  /-- The file has no text. -/
  | noText (path : String)
  deriving DecidableEq, Repr

/-- The words for a fault. -/
def FetchFault.message : FetchFault → String
  | request text => "GitHub API request failed: " ++ text
  | listRequest text => "GitHub Tree API request failed: " ++ text
  | noRepository owner name => "Repository " ++ owner ++ "/" ++ name ++ " not found"
  | rateLimit => "GitHub API rate limit exceeded"
  | status n => "GitHub API error: " ++ toString n
  | payload => "GitHub API returned an unexpected repository payload"
  | listStatus n => "GitHub Tree API error: " ++ toString n
  | noTree => "GitHub Tree API returned no tree"
  | fileStatus path n => "File " ++ path ++ " not found on GitHub (HTTP " ++ toString n ++ ")"
  | directory path => path ++ " is a directory"
  | noText path => path ++ " is a binary or empty file"

/-- Why no explanation was made. -/
inductive ExplainFault
  /-- There is no key for the language model. -/
  | noKey
  /-- The language model's client cannot be used. -/
  | noClient (text : String)
  /-- The call failed. -/
  | call (text : String)
  /-- The answer holds no text. -/
  | noAnswer
  deriving DecidableEq, Repr

/-- The words for a fault. -/
def ExplainFault.message : ExplainFault → String
  | noKey => "OPENAI_API_KEY is not set; cannot generate explanations."
  | noClient text => "openai python SDK not available: " ++ text
  | call text => "OpenAI Responses API call failed: " ++ text
  | noAnswer => "OpenAI response was empty."

/-- What is wrong with the input of a command. -/
inductive InputFault
  /-- The snapshot is no list. -/
  | snapshot
  /-- The range of lines is not one. -/
  | lineRange (spec : String)
  /-- A range of lines needs a file. -/
  | linesWithoutFile
  deriving DecidableEq, Repr

/-- The words for a fault. -/
def InputFault.message : InputFault → String
  | snapshot => "Snapshot must be a JSON list of \x7bpath, content?, size?\x7d objects."
  | lineRange spec => "Invalid line range " ++ Text.quoted spec ++ "; expected START-END."
  | linesWithoutFile => "--lines needs --file."

/-- Why a file cannot be read. -/
inductive FileFault
  /-- There is none at the path. -/
  | missing (path : String)
  /-- The path is that of a directory. -/
  | directory (path : String)
  /-- The path goes through a file that is no directory. -/
  | notDirectory (path : String)
  /-- Something else, with its words. -/
  | other (text : String)
  deriving DecidableEq, Repr

/-- The words for a fault. -/
def FileFault.message : FileFault → String
  | missing path => "[Errno 2] No such file or directory: " ++ Text.quoted path
  | directory path => "[Errno 21] Is a directory: " ++ Text.quoted path
  | notDirectory path => "[Errno 20] Not a directory: " ++ Text.quoted path
  | other text => text

/-- Whatever can end an operation early. -/
inductive Failure
  /-- The URL is not one of a repository. -/
  | url (url : String)
  /-- The snapshot could not be fetched. -/
  | fetch (fault : FetchFault)
  /-- A document is not JSON. -/
  | json (fault : Json.Fault)
  /-- Octets are no text. -/
  | octets (fault : Text.OctetFault)
  /-- A text that should be of octets in base 64 has other characters than ASCII. -/
  | notAscii
  /-- An address cannot be sent. -/
  | address (text : String)
  /-- A value is not what it should be; `title` names what. -/
  | mismatch (title : String) (faults : List DecodingFault)
  /-- An artifact does not fit its snapshot. -/
  | artifact (fault : ArtifactFault)
  /-- A job that should be processed is not there. -/
  | jobMissing (id : String)
  /-- A job that should be processed is in another state. -/
  | jobState (id status : String)
  /-- Jobs or artifacts could not be stored or read, in words of the store. -/
  | store (text : String)
  /-- The database refused, in words of its own. -/
  | database
  /-- Something outside failed. -/
  | outside (fault : OutsideFault)
  /-- There is no such job. -/
  | unknownJob (id : String)
  /-- The job has no artifact. -/
  | noArtifact (id status : String)
  /-- The input of a command is wrong. -/
  | input (fault : InputFault)
  /-- No explanation was made. -/
  | explain (fault : ExplainFault)
  /-- A file cannot be read. -/
  | file (fault : FileFault)
  /-- A variable cannot be entered into the environment. -/
  | nullInVariable
  /-- Events cannot be logged from a level on. -/
  | logLevel (fault : Log.LevelFault)
  /-- An integer has too many digits to be written. -/
  | longInteger
  deriving DecidableEq, Repr

namespace Failure

/-- The words for faults of decoding: how many there are, and in what. -/
def mismatchMessage (title : String) (count : Nat) : String :=
  toString count ++ (if count = 1 then " validation error" else " validation errors") ++ " for " ++
    title

/-- The words for a failure. -/
def message : Failure → String
  | url u => Repository.invalidUrlMessage u
  | fetch f => f.message
  | json f => f.message
  | octets f => f.message
  | notAscii => "string argument should contain only ASCII characters"
  | address text => text
  | mismatch title faults => mismatchMessage title faults.length
  | artifact f => f.message
  | jobMissing id => "Analysis " ++ id ++ " not found"
  | jobState id status => "Analysis " ++ id ++ " is " ++ status ++ ", expected PROCESSING"
  | store text => text
  | database => "database error"
  | outside f => f.text
  | unknownJob id => "Analysis " ++ id ++ " not found"
  | noArtifact id status => "Analysis " ++ id ++ " has no artifact (status " ++ status ++ ")"
  | input f => f.message
  | explain f => f.message
  | file f => f.message
  | nullInVariable => "embedded null byte"
  | logLevel f => f.message
  | longInteger => "Exceeds the limit (" ++ toString Decimal.digitLimit ++
      " digits) for integer string conversion; " ++
      "use sys.set_int_max_str_digits() to increase the limit"

/-- The failure says that a job is not there to be processed, or somebody else's. -/
def disownsJob : Failure → Bool
  | jobMissing _ => true
  | jobState .. => true
  | _ => false

/-- What stands for the words of a failure where there are none. -/
def kind : Failure → String
  | store _ => "PersistenceError"
  | outside f => f.name
  | address _ => "InvalidURL"
  | file _ => "OSError"
  | _ => "Error"

/-- The words for a failure, or what stands for them where there are none. -/
def summary (f : Failure) : String := if f.message = "" then f.kind else f.message

end Failure

/-- If the result is a failure, it is not one about a job. -/
def SparesJob {α : Type} (r : Except Failure α) : Prop := ∀ f, r = .error f → f.disownsJob = false

namespace SparesJob

variable {α β : Type}

/-- A value is no failure. -/
theorem ok (a : α) : SparesJob (.ok a) := by
  intro f h
  cases h

/-- A failure that is not about a job. -/
theorem error {f : Failure} (hf : f.disownsJob = false) :
    SparesJob (.error f : Except Failure α) := by
  intro g h
  cases h
  exact hf

/-- One result after another. -/
theorem bind {r : Except Failure α} {next : α → Except Failure β} (hr : SparesJob r)
    (hnext : ∀ a, SparesJob (next a)) : SparesJob (r >>= next) := by
  cases r with
  | ok a => exact hnext a
  | error f => exact error (hr f rfl)

/-- A result with failures of another sort, none of which is made one about a job. -/
theorem mapError {ε : Type} (r : Except ε α) {cause : ε → Failure}
    (hcause : ∀ e, (cause e).disownsJob = false) : SparesJob (r.mapError cause) := by
  cases r with
  | ok a => exact ok a
  | error e => exact error (hcause e)

end SparesJob

end RepoGraph
