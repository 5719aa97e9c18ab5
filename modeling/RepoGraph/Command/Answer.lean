import RepoGraph.Command.Arguments
import RepoGraph.Failure
import RepoGraph.Graph.Encoding
import RepoGraph.Json.Writer

/-!
# Answers to commands

A command is answered by one line of JSON, which says first whether all went well. If it did not,
the line says at which stage, with a code for the stage and with words that are never none.
-/

namespace RepoGraph

/-- The answer to a command. -/
inductive Answer
  /-- All went well, and this came of it. -/
  | success (members : List (String × Json))
  /-- Something went wrong at a stage. -/
  | failure (stage message : String)

namespace Answer

/-- The answer that an artifact was built. -/
def ofArtifact (a : Artifact) : Answer := .success [("artifact", a.toJson)]

/-- The code for a failure at a stage. -/
def code (stage : String) : String :=
  "GRAPHYY_FAILED_" ++ String.ofList (Text.upper stage.toList)

/-- The members of an answer in JSON. What came of a command may repeat that all went well. -/
def members : Answer → List (String × Json)
  | success ms => ("ok", .bool true) :: ms.filter fun m => m.1 != "ok"
  | failure stage message =>
    [("ok", .bool false), ("stage", .str stage), ("error_code", .str (code stage)),
      ("error_message", .str message)]

/-- The line for an answer. -/
def line (a : Answer) : String := (Json.obj a.members).compact

/-- The status with which the program ends. -/
def exitCode : Answer → Nat
  | success _ => 0
  | failure .. => 1

/-- The stage of failures that lie in the input of a command. -/
def inputStage : String := "parse_args"

/-- The failure lies in the input of a command. -/
def isInputFailure : Failure → Bool
  | .input _ => true
  | .url _ => true
  | .json (.malformed ..) => true
  | .mismatch .. => true
  | _ => false

/-- The answer to a command that failed. -/
def ofFailure (c : Command) (f : Failure) : Answer :=
  .failure (if isInputFailure f then inputStage else c.name) f.summary

end Answer

end RepoGraph
