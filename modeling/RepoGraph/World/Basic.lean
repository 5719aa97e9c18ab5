import RepoGraph.Explain.Request
import RepoGraph.Job.Store
import RepoGraph.Log.Event
import RepoGraph.Bucket.Object
import RepoGraph.Program

/-!
# The world

What lies outside the program is asked for: the store, the network, the clock, files, and whoever
reads the log. `Question` lists what can be asked and `Question.Reply` what comes back. An `Action`
is a program that asks such questions and may fail.

A question about the store is one transaction, and takes effect as a whole. Whatever happens between
two questions of a program is up to the world, so that several programs may share a store. An action
may keep to what lies outside the store (`Action.AsksOutside`), and may besides never fail as the
loading of a job does (`Action.IsDetached`).

The library that dumps an artifact to a JSON value belongs to the world too: what it dumps is
`Artifact.toJson`, but it may refuse an artifact, such as one whose tree is nested too deep.
-/

namespace RepoGraph

/-- How a wait ended. -/
inductive Wake
  /-- The time has passed, or a stop was requested. -/
  | ready
  /-- The program was interrupted. -/
  | interrupted
  deriving DecidableEq, Repr

/-- What a program asks of the world. -/
inductive Question
  /-- A name for a new job and the time. -/
  | newJob
  /-- Open the store at an address. -/
  | openStore (url : String)
  /-- Perform a transaction on the open store. -/
  | transact (t : Transaction)
  /-- Send a request. -/
  | fetch (request : Http.Request)
  /-- Send requests, so many at a time. -/
  | fetchAll (limit : Nat) (requests : List Http.Request)
  /-- Dump an artifact to its JSON form. -/
  | dump (artifact : Artifact)
  /-- Put an object into its bucket. -/
  | put (object : BucketObject)
  /-- Write log events from now on, if they have at least a rank, in lines of JSON or not. -/
  | openLog (least : Nat) (json : Bool)
  /-- Write an event to the log. -/
  | log (event : Log.Event)
  /-- Analyse a job beside this program. -/
  | background (settings : Settings) (id : String)
  /-- The seconds on a clock that only goes forward. -/
  | clock
  /-- Let some seconds pass. -/
  | sleep (seconds : Float)
  /-- Whether a stop was requested. -/
  | stopRequested
  /-- Let some seconds pass, or fewer if a stop is requested. -/
  | wait (seconds : Float)
  /-- Make a client of the language model. -/
  | openModel
  /-- Let the language model answer. -/
  | explain (request : Explain.Request)
  /-- The octets of a file. -/
  | file (path : String)

/-- What the world replies to a question. -/
abbrev Question.Reply : Question → Type
  | newJob => String × Timestamp
  | openStore _ => Except Failure Unit
  | transact t => Except Failure t.Result
  | fetch _ => Except Http.Fault Http.Response
  | fetchAll _ requests => Vector (Except Http.Fault Http.Response) requests.length
  | dump _ => Except OutsideFault Unit
  | put _ => Except OutsideFault Unit
  | openLog .. => Unit
  | log _ => Unit
  | background .. => Unit
  | clock => Float
  | sleep _ => Unit
  | stopRequested => Bool
  | wait _ => Wake
  | openModel => Except String Unit
  | explain _ => Except String Json
  | file _ => Except FileFault (List UInt8)

/-- The question is about what lies outside the store. -/
def Question.isOutside : Question → Bool
  | openStore _ => false
  | transact _ => false
  | background .. => false
  | _ => true

/-- A program in the world, which always ends with a value. -/
abbrev Activity := Program Question Question.Reply

/-- A program in the world that may fail. -/
abbrev Action := ExceptT Failure Activity

namespace Activity

/-- Ask a question. -/
def query (q : Question) : Activity q.Reply := Program.query q

/-- Write an event to the log. -/
def log (level : Log.Level) (part : Log.Part) (name : String) (fields : List (String × Json)) :
    Activity Unit :=
  query (.log ⟨level, part, name, fields⟩)

/-- Write to the log that the database refused, if it did. -/
def logRefusal {α : Type} (reply : Except Failure α) : Activity Unit :=
  match reply with
  | .error .database =>
    log .warning .store "db_transaction_rolled_back" [("error", .str Failure.database.message)]
  | _ => pure ()

end Activity

namespace Action

/-- A program that always ends, as one that may fail. -/
def always {α : Type} (a : Activity α) : Action α := ExceptT.lift a

/-- The value of a result, or its failure. -/
def ofExcept {α : Type} (r : Except Failure α) : Action α := ExceptT.mk (pure r)

/-- Ask a question whose reply is a result. -/
def demand (q : Question) {α : Type} (as : q.Reply → Except Failure α) : Action α :=
  ExceptT.mk do return as (← Activity.query q)

/-- Perform a transaction. A refusal of the database is logged. -/
def transact (t : Transaction) : Action t.Result :=
  ExceptT.mk do
    let reply ← Activity.query (.transact t)
    Activity.logRefusal reply
    return reply

/-- Write an event to the log. -/
def log (level : Log.Level) (part : Log.Part) (name : String) (fields : List (String × Json)) :
    Action Unit :=
  always (Activity.log level part name fields)

/-- The text of an artifact, given the reply of the library that is to dump it. -/
def serialized (a : Artifact) (reply : Except OutsideFault Unit) : Except Failure String := do
  reply.mapError .outside
  if a.IsWritable then return a.stableText else throw .longInteger

/-- The text of an artifact, which the library must dump. -/
def serialize (a : Artifact) : Action String := demand (.dump a) (serialized a)

/-- Whatever is replied, the action asks nothing about the store. -/
def AsksOutside {α : Type} (a : Action α) : Prop :=
  a.run.Within (·.isOutside = true) fun _ => True

/-- Whatever is replied, the action asks nothing about the store, and does not fail as the loading
of a job does (`Failure.disownsJob`). -/
def IsDetached {α : Type} (a : Action α) : Prop :=
  a.run.Within (·.isOutside = true) SparesJob

variable {α β : Type}

/-- One action after another. -/
theorem AsksOutside.bind {a : Action α} {f : α → Action β} (ha : a.AsksOutside)
    (hf : ∀ x, (f x).AsksOutside) : (a >>= f).AsksOutside := by
  refine Program.Within.bind ha fun r _ => ?_
  cases r with
  | ok x => exact hf x
  | error failure => trivial

namespace IsDetached

/-- A detached action asks nothing about the store. -/
theorem asksOutside {a : Action α} (ha : a.IsDetached) : a.AsksOutside :=
  ha.mono (fun _ h => h) fun _ _ => trivial

/-- One action after another. -/
theorem bind {a : Action α} {f : α → Action β} (ha : a.IsDetached) (hf : ∀ x, (f x).IsDetached) :
    (a >>= f).IsDetached := by
  refine Program.Within.bind ha fun r hr => ?_
  cases r with
  | ok x => exact hf x
  | error failure => exact .error (hr failure rfl)

/-- A result that is known asks nothing. -/
theorem ofExcept {r : Except Failure α} (hr : SparesJob r) : (Action.ofExcept r).IsDetached := hr

/-- A value asks nothing. -/
theorem pure (x : α) : (Pure.pure x : Action α).IsDetached := SparesJob.ok x

/-- A question about what lies outside the store. -/
theorem demand {q : Question} {as : q.Reply → Except Failure α} (hq : q.isOutside = true)
    (has : ∀ reply, SparesJob (as reply)) : (Action.demand q as).IsDetached := ⟨hq, has⟩

/-- Writing to the log. -/
theorem log (level : Log.Level) (part : Log.Part) (name : String) (fields : List (String × Json)) :
    (Action.log level part name fields).IsDetached := ⟨rfl, fun _ => .ok ()⟩

/-- Serializing an artifact. -/
theorem serialize (a : Artifact) : (Action.serialize a).IsDetached := by
  refine .demand rfl fun reply => .bind (.mapError reply fun _ => rfl) fun _ => ?_
  split
  · exact .ok _
  · exact .error rfl

end IsDetached

end Action

end RepoGraph
