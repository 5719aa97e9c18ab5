import RepoGraph.Explain.Prompt
import RepoGraph.World.Basic

/-!
# Explanations

An explanation is the answer of a language model to a prompt, without white space at its ends. There
is none without a key, without a client, or when the call fails or is answered with nothing.
-/

namespace RepoGraph.Explain

/-- How the language model is reached. -/
inductive Access
  /-- Through a client that is at hand. -/
  | given
  /-- Through a client that is made with a key. -/
  | withKey (key : Option String)
  deriving DecidableEq, Repr

/-- Makes the client, if it is not at hand: the key that it sends. -/
def openAccess : Access → Action (Option String)
  | .given => return none
  | .withKey key =>
    match key.filter (· != "") with
    | none => throw (.explain .noKey)
    | some key =>
      Action.demand .openModel fun reply =>
        match reply with
        | .ok () => .ok (some key)
        | .error text => .error (.explain (.noClient text))

/-- The text of an answer without white space at its ends, if any is left. -/
def readAnswer (reply : Except String Json) : Except Failure String :=
  match reply with
  | .error text => .error (.explain (.call text))
  | .ok answer =>
    let text := Text.trimmed (answerText answer)
    if text = "" then .error (.explain .noAnswer) else .ok text

/-- Lets the language model answer. -/
def complete (key : Option String) (model prompt : String) : Action String :=
  Action.demand (.explain ⟨key, model, prompt⟩) readAnswer

/-- Explains a repository. -/
def repository (a : Artifact) (fullName model : String) (access : Access) : Action String := do
  let key ← openAccess access
  let summary := Summary.ofArtifact a Summary.defaultTop
  Action.log .info .explain "explain_repository"
    [("repo", .str fullName), ("files", .int summary.files), ("edges", .int summary.edges)]
  complete key model (Prompt.ofRepository summary fullName)

/-- Explains a file. -/
def file (path code fullName model : String) (access : Access) : Action String := do
  complete (← openAccess access) model (Prompt.ofFile path code fullName)

/-- Explains some lines of a file. -/
def snippet (path lines fullName model : String) (access : Access) : Action String := do
  complete (← openAccess access) model (Prompt.ofSnippet path lines fullName)

end RepoGraph.Explain
