import RepoGraph.Json.Basic
import RepoGraph.Text.Blank

/-!
# Requests to a language model

A request carries two messages, one that says how to answer and one that asks. The text of an answer
stands either in one place of it or in parts.
-/

namespace RepoGraph.Explain

/-- How to answer. -/
def instructions : String :=
  "You are an expert code analyst. Explain code clearly and concisely for developers. " ++
    "Use markdown with ## headers and **bold** for emphasis and \x60backticks\x60 for " ++
    "code references. " ++
    "Be direct, insightful, and practical."

/-- How long an answer may be. -/
def maxOutputTokens : Int := 1024

/-- A request. -/
structure Request where
  /-- The key that pays for the answer, if the program brings one. -/
  key : Option String
  /-- The language model. -/
  model : String
  /-- What is asked. -/
  prompt : String
  deriving DecidableEq, Repr

/-- The messages of a request, each with the role of who speaks. -/
def Request.messages (r : Request) : List (String × String) :=
  [("system", instructions), ("user", r.prompt)]

/-- The text in a part of an answer, if it has one. -/
def partText? (part : Json) : Option String :=
  match part.get? "text" with
  | some (.str s) => some s
  | _ => none

/-- The texts in the parts of an item. -/
def itemTexts (item : Json) : List String :=
  match item.get? "content" with
  | some (.arr parts) => parts.filterMap partText?
  | _ => []

/-- The text of an answer: the one given as its text if that is not blank, or else the texts of its
parts put together. -/
def answerText (answer : Json) : String :=
  let parts :=
    match answer.get? "output" with
    | some (.arr items) => String.join (items.flatMap itemTexts)
    | _ => ""
  match answer.get? "output_text" with
  | some (.str s) => if Text.trimmed s = "" then parts else s
  | _ => parts

end RepoGraph.Explain
