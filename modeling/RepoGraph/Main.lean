import RepoGraph.Command.Run
import RepoGraph.Job.Archive
import RepoGraph.Log.Line
import RepoGraph.World.Dump
import Std.Time.DateTime.Timestamp

/-!
# The program

The outer layer. It reads the command line and the environment, answers the questions of the command
from the machine that it runs on, and prints the answer. Jobs are archived in the file that the
address of the store names. There is no network here: requests and copies are answered with faults,
as they are where no server can be reached.
-/

namespace RepoGraph

/-- What the machine keeps while the program runs. -/
structure Machine where
  /-- The jobs and artifacts. -/
  store : IO.Ref Store
  /-- The file of the archive, if there is one. -/
  archive : IO.Ref (Option String)
  /-- The least rank of events that are logged. -/
  least : IO.Ref Nat
  /-- The analyses beside the program. -/
  analyses : IO.Ref (List (Task (Except IO.Error Unit)))

namespace Machine

/-- A machine that has done nothing. -/
def start : IO Machine := do
  return ⟨← IO.mkRef .empty, ← IO.mkRef none, ← IO.mkRef 0, ← IO.mkRef []⟩

/-- The words for an absent network. -/
def noNetwork : String := "no network"

/-- The time of day. -/
def now : IO Timestamp := do
  let t ← Std.Time.Timestamp.now
  return ⟨t.toNanosecondsSinceUnixEpoch.toInt / 1000, true⟩

/-- A name that no other job has. -/
def freshName : IO String := do
  let halves ← (List.replicate 8 ()).mapM fun _ => IO.rand 0 0xFFFF
  return String.ofList (halves.flatMap fun n => Text.hexText 4 n)

/-- The file that the address of a store names, unless the store is kept in memory alone. -/
def archivePath? (url : String) : Except Failure (Option String) :=
  if url = "sqlite://" || url = "sqlite:///:memory:" then .ok none
  else
    match Text.after? "sqlite:///".toList url.toList with
    | some path => .ok (some (String.ofList path))
    | none => .error (.store ("Unknown kind of store: " ++ url))

/-- The octets of a file, or why there are none. -/
def octetsOf (path : String) : IO (Except FileFault (List UInt8)) := do
  try return .ok (← IO.FS.readBinFile path).toList
  catch e =>
    match e with
    | .noFileOrDirectory .. => return .error (.missing path)
    | .inappropriateType _ code _ =>
      return .error (if code = 20 then .notDirectory path else .directory path)
    | e => return .error (.other (toString e))

/-- Reads the archive of a store, which is empty where there is none. -/
def openStore (m : Machine) (url : String) : IO (Except Failure Unit) := do
  match archivePath? url with
  | .error f => return .error f
  | .ok none => return .ok ()
  | .ok (some path) =>
    m.archive.set (some path)
    match ← octetsOf path with
    | .error (.missing _) => return .ok ()
    | .error f => return .error (.file f)
    | .ok octets =>
      match Document.json octets with
      | .error f => return .error f
      | .ok v =>
        match Store.ofJson? v with
        | some s =>
          m.store.set s
          return .ok ()
        | none => return .error .database

/-- Performs a transaction and writes the archive. -/
def transact (m : Machine) (t : Transaction) : IO (Except Failure t.Result) := do
  let r ← m.store.modifyGet fun s => s.perform t
  if let some path ← m.archive.get then
    IO.FS.writeFile path (← m.store.get).toJson.compact
  return r

/-- Writes an event to the log. -/
def log (m : Machine) (e : Log.Event) : IO Unit := do
  if let some (.obj members) := e.line? (← m.least.get) then
    let time := { ← now with zoned := false }
    let line := Json.obj (members ++ [("timestamp", .str (time.text ++ "Z"))])
    IO.eprintln line.compact

/-- Lets some seconds pass. -/
def sleep (seconds : Float) : IO Unit := IO.sleep (seconds * 1000.0).toUInt32

/-- Runs a program to its end, with replies to its questions. -/
def runWith (reply : (q : Question) → IO q.Reply) {α : Type} : Activity α → IO α
  | Program.done a => return a
  | Program.ask q next => do runWith reply (next (← reply q))

/-- The reply of the machine to a question. -/
partial def reply (m : Machine) : (q : Question) → IO q.Reply
  | .newJob => do return (← freshName, ← now)
  | .openStore url => m.openStore url
  | .transact t => m.transact t
  | .fetch _ => return .error (.transport "ConnectError" noNetwork)
  | .fetchAll _ requests =>
    return Vector.replicate requests.length (.error (.transport "ConnectError" noNetwork))
  | .dump a => return a.dumped
  | .put _ => return .error ⟨"ConnectError", noNetwork⟩
  | .openLog least _ => m.least.set least
  | .log e => m.log e
  | .background settings id => do
    let analysis := (Analyser.ofSettings settings).run id
    let task ← IO.asTask do
      let _ ← runWith m.reply analysis
    m.analyses.modify (task :: ·)
  | .clock => do return Float.ofNat (← IO.monoMsNow) / 1000.0
  | .sleep seconds => sleep seconds
  | .stopRequested => return false
  | .wait seconds => do
    sleep seconds
    return .ready
  | .openModel => return .error noNetwork
  | .explain _ => return .error noNetwork
  | .file path => octetsOf path

/-- Waits for the analyses beside the program. -/
def finish (m : Machine) : IO Unit := do
  for task in ← m.analyses.get do
    let _ ← IO.wait task

end Machine

/-- The variables of the process that settings are read off. -/
def processEnvironment : IO Environment := do
  let mut env : Environment := .empty
  for name in Settings.variableNames do
    if let some value ← IO.getEnv name then env := env.insert name value
  return env

/-- Carries out a command line that fits the grammar: the status to end with. -/
def carryOut (args : Arguments) : IO UInt32 := do
  let machine ← Machine.start
  let env ← processEnvironment
  match ← Machine.runWith machine.reply (args.perform env).run with
  | .ok answer =>
    IO.println answer.line
    machine.finish
    return answer.exitCode.toUInt32
  | .error f =>
    IO.eprintln f.summary
    return 1

end RepoGraph

/-- Carries out a command line. -/
def main (args : List String) : IO UInt32 := do
  match RepoGraph.Arguments.parse args with
  | .ok args => RepoGraph.carryOut args
  | .error .help =>
    IO.println RepoGraph.Command.usage
    return 0
  | .error .version =>
    IO.println RepoGraph.Command.version
    return 0
  | .error .usage =>
    IO.eprintln RepoGraph.Command.usage
    return 2
