/-!
# References

A reference is what a file says about another one: the specifier it names, and the kind of statement
that names it.
-/

namespace RepoGraph

/-- The kinds of statements that refer to another file. -/
inductive ReferenceKind
  /-- The statement brings names in. -/
  | imports
  /-- The expression loads a module. -/
  | requires
  /-- The statement passes names on. -/
  | exports
  deriving DecidableEq, Repr

/-- The word for a kind. -/
def ReferenceKind.name : ReferenceKind → String
  | imports => "import"
  | requires => "require"
  | exports => "export"

/-- The kinds, in the order in which a file's references are listed. -/
def ReferenceKind.all : List ReferenceKind := [imports, requires, exports]

/-- The kind with a name. -/
def ReferenceKind.ofName? (name : String) : Option ReferenceKind :=
  all.find? fun k => k.name == name

/-- A reference of a file. -/
structure Reference where
  /-- The text that names the file referred to. -/
  specifier : String
  /-- The kind of statement. -/
  kind : ReferenceKind
  deriving DecidableEq, Repr

end RepoGraph
