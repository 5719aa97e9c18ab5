import RepoGraph.Json.Basic

/-!
# Log events

An event says what happened in which part of the program, how grave it is, and with which details.
-/

namespace RepoGraph.Log

/-- How grave an event is. -/
inductive Level
  /-- Of use when looking for a fault. -/
  | debug
  /-- The ordinary course of things. -/
  | info
  /-- Something was lost, but the work goes on. -/
  | warning
  /-- Something failed. -/
  | error
  /-- Somebody has to see to it. -/
  | critical
  deriving DecidableEq, Repr

/-- The word for a level. -/
def Level.name : Level → String
  | debug => "debug"
  | info => "info"
  | warning => "warning"
  | error => "error"
  | critical => "critical"

/-- The parts of the program that log. -/
inductive Part
  /-- The store of jobs. -/
  | store
  /-- The fetching of snapshots. -/
  | snapshot
  /-- The analysis of a job. -/
  | analysis
  /-- The worker. -/
  | worker
  /-- The service. -/
  | service
  /-- The explanations. -/
  | explain
  deriving DecidableEq, Repr

/-- The name under which a part logs. -/
def Part.logger : Part → String
  | store => "graphyy.store"
  | snapshot => "graphyy.github"
  | analysis => "graphyy.pipeline"
  | worker => "graphyy.worker"
  | service => "graphyy.service"
  | explain => "graphyy.explain"

/-- An event. -/
structure Event where
  /-- How grave it is. -/
  level : Level
  /-- Where it happened. -/
  part : Part
  /-- What happened. -/
  name : String
  /-- The details. -/
  fields : List (String × Json)

end RepoGraph.Log
