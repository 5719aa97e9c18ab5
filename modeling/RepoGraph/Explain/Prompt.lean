import RepoGraph.Explain.Summary

/-!
# Prompts

What the language model is asked about a repository, a file, or some lines of a file. Of long code
only the beginning is shown.
-/

namespace RepoGraph.Prompt

/-- How many characters of a file are shown. -/
def maxFileCharacters : Nat := 8000

/-- How many characters of some lines are shown. -/
def maxSnippetCharacters : Nat := 3000

/-- Words, or other words where there are none. -/
def orWords (words fallback : String) : String := if words = "" then fallback else words

/-- A file with how often it is referred to. -/
def hubText (hub : String × Nat) : String := hub.1 ++ " (" ++ toString hub.2 ++ ")"

/-- A line about a role. -/
def roleText (role : String × Nat) : String := "- " ++ role.1 ++ ": " ++ toString role.2

/-- A heading with what should stand under it. -/
def topic (heading wish : String) : String := "## " ++ heading ++ "\n" ++ wish

/-- Topics one after another. -/
def topics (ts : List (String × String)) : String :=
  "\n\n".intercalate (ts.map fun t => topic t.1 t.2)

/-- The first characters of some code, between fences. -/
def fenced (limit : Nat) (code : String) : String :=
  "\x60\x60\x60\n" ++ String.ofList (code.toList.take limit) ++ "\n\x60\x60\x60\n\n"

/-- What is asked about a repository. -/
def ofRepository (s : Summary) (fullName : String) : String :=
  "Analyze the dependency graph of **" ++ fullName ++ "**:\n\n" ++
    "Repository stats:\n" ++
    "- " ++ toString s.files ++ " source files analyzed\n" ++
    "- " ++ toString s.edges ++ " dependency relationships\n" ++
    "- Primary language: " ++ orWords (s.language.getD "") "unknown" ++ "\n" ++
    "- Most imported files: " ++ orWords (", ".intercalate (s.hubs.map hubText)) "none" ++ "\n" ++
    "- Entry points: " ++ orWords (", ".intercalate s.entries) "none" ++ "\n\n" ++
    "File roles detected:\n" ++
    orWords ("\n".intercalate (s.roles.map roleText)) "no role data" ++ "\n\n" ++
    "Provide a structured codebase analysis:\n\n" ++
    topics [
      ("Project Overview", "What kind of project is this and what does it do?"),
      ("Architecture", "How is the codebase structured? (MVC, layered, modular, etc.)"),
      ("Core Modules", "The 3-5 most important files and their purpose."),
      ("Data Flow", "How does data move through the system?"),
      ("Quality Notes", "Observations about code organization, patterns, and health.")]

/-- What is asked about a file. -/
def ofFile (path code fullName : String) : String :=
  "Analyze this file \x60" ++ path ++ "\x60 from \x60" ++ fullName ++ "\x60:\n\n" ++
    fenced maxFileCharacters code ++
    "Provide a structured analysis:\n\n" ++
    topics [
      ("Purpose", "What this file does and its role in the codebase."),
      ("Key Exports", "The most important functions, classes, or components exported."),
      ("Architecture", "Design patterns and paradigms used."),
      ("Dependencies", "Why it imports what it does and what each dependency contributes."),
      ("Concerns", "Any TODOs, potential issues, or improvement opportunities.")]

/-- What is asked about some lines of a file. -/
def ofSnippet (path snippet fullName : String) : String :=
  "Explain this code snippet from \x60" ++ path ++ "\x60 (" ++ fullName ++ "):\n\n" ++
    fenced maxSnippetCharacters snippet ++
    "Provide:\n\n" ++
    topics [
      ("What It Does", "Clear explanation in 1-2 sentences."),
      ("How It Works", "Key logic explained step by step."),
      ("Pattern", "Design pattern or technique used."),
      ("Notes", "Any gotchas, edge cases, or important considerations.")]

end RepoGraph.Prompt
