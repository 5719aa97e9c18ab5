import RepoGraph.Path.Basic
import RepoGraph.Text.Expression

/-!
# Roles of files

`role` tells what a file is for by the way its path is written. The rules stand in order and the
first that applies decides; a path that no rule fits is a module if its extension is one of a script
and a plain file otherwise. A rule looks for an expression at the end of the path, and the rule for
files of the environment anywhere in it.
-/

namespace RepoGraph.Path

open RepoGraph.Text (Expression)

/-- A rule for the role of a file. -/
structure RoleRule where
  /-- What the rule looks for in the path. -/
  expression : Expression
  /-- The path ends with it. -/
  atEnd : Bool := true
  /-- The case of ASCII letters does not matter. -/
  anyCase : Bool := false
  /-- The role of the files that the rule fits. -/
  role : String

/-- The path may end before the rest: that is nothing, or a line feed alone. -/
def isEnd (rest : List Char) : Bool := rest == [] || rest == ['\n']

/-- What the rule tells characters apart by. -/
def RoleRule.fold (r : RoleRule) : Char → Char := if r.anyCase then Char.toLower else id

/-- The rule fits the path. -/
def RoleRule.fits (r : RoleRule) (path : List Char) : Bool :=
  r.expression.isFound r.fold (fun rest => !r.atEnd || isEnd rest) (path.map r.fold)

/-- A stem, a point and an extension. -/
def dotted (stem extension : Expression) : Expression := .seq stem (.seq (.text ".") extension)

/-- The word in the singular or in the plural. -/
def plural (word : String) : Expression := .seq (.text word) (.maybe (.text "s"))

/-- The extensions of typed scripts. -/
def typedExtension : Expression := .seq (.text "ts") (.maybe (.text "x"))

/-- The extensions of scripts without types. -/
def plainExtension : Expression := .seq (.text "js") (.maybe (.text "x"))

/-- The role of files that set variables of the environment. -/
def environmentRole : String := "Environment config — Runtime variables"

/-- The rule for files of the environment, which are known by any part of their path. -/
def environmentRule : RoleRule :=
  { expression := .text ".env", atEnd := false, role := environmentRole }

/-- The rules in the order in which they are tried. -/
def roleRules : List RoleRule :=
  [{ expression := dotted (.text "layout") (.either typedExtension plainExtension)
     role := "Layout — Wraps all pages in this route segment" },
   { expression := dotted (.text "page") (.either typedExtension plainExtension)
     role := "Page — Renders the route UI" },
   { expression := dotted (.text "route") (.either typedExtension (.text "ts"))
     role := "API Route — Handles HTTP requests" },
   { expression := dotted (.text "middleware") (.either typedExtension (.text "ts"))
     role := "Middleware — Intercepts requests" },
   { expression := .text "schema.prisma", role := "Database Schema — Defines all data models" },
   { expression := dotted (.seq (.text ".") (.either (.text "test") (.text "spec")))
       (.either typedExtension (.either plainExtension (.text "py")))
     role := "Test — Unit or integration tests" },
   { expression := dotted (.text "index")
       (.either typedExtension (.either plainExtension (.text "py")))
     role := "Module index — Entry point for this directory" },
   { expression := dotted (plural "hook") (.either typedExtension (.text "ts"))
     role := "Custom hook — Reusable React logic" },
   { expression := dotted (.text "context") (.either typedExtension (.text "ts"))
     role := "React Context — Shared state provider" },
   { expression := dotted (.text "store") (.either typedExtension (.text "ts"))
     role := "State store — Application state management" },
   { expression := dotted (.text "config")
       (.either typedExtension (.either (.text "ts") (.text "js")))
     role := "Configuration — App or tool settings" },
   { expression := dotted (plural "type") (.either typedExtension (.text "ts"))
     role := "Type definitions — TypeScript interfaces" },
   { expression := dotted (plural "util")
       (.either typedExtension (.either (.text "ts") (.text "js")))
     role := "Utilities — Helper functions" },
   { expression := dotted (plural "constant")
       (.either typedExtension (.either (.text "ts") (.text "js")))
     role := "Constants — Shared constant values" },
   { expression := dotted (plural "provider") (.either typedExtension (.text "ts"))
     role := "Provider — Wraps app with context" },
   { expression := .text "README.md", anyCase := true, role := "Documentation — Project readme" },
   { expression := .text "package.json", role := "Package manifest — Dependencies and scripts" },
   environmentRule]

/-- The extensions of scripts. -/
def scripts : List String := ["ts", "tsx", "js", "jsx"]

/-- The role of a script that no rule fits. -/
def moduleRole : String := "Module — A JavaScript/TypeScript module"

/-- The role of any other file. -/
def fileRole : String := "File"

/-- The role of a file. -/
def role (path : String) : String :=
  match roleRules.find? (·.fits path.toList) with
  | some rule => rule.role
  | none => if scripts.contains (extension path) then moduleRole else fileRole

end RepoGraph.Path
