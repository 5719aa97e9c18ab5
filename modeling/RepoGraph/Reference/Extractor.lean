import RepoGraph.Path.Basic
import RepoGraph.Reference.Basic
import RepoGraph.Reference.Pattern

/-!
# Extracting the references of a file

An extractor is a list of patterns, each for one kind of reference. `Extractor.references` gathers
the specifiers pattern by pattern and in the order of the text; the first occurrence of a specifier
fixes its place and kind, and what carries a URL scheme is never a reference. A `Registry` chooses
the extractor by the extension of the file.
-/

namespace RepoGraph

open RepoGraph.Text

/-- The character may stand in a URL scheme after its first letter. -/
def isSchemeChar (c : Char) : Bool := c.isAlphanum || c == '+' || c == '.' || c == '-'

/-- The specifier begins with a URL scheme and two slashes. -/
def hasUrlScheme : List Char → Bool
  | c :: cs => c.isAlpha && startsWith [':', '/', '/'] (cs.dropWhile isSchemeChar)
  | [] => false

/-- The ways to look for references. -/
inductive Extractor
  /-- Imports and module loading of scripts. -/
  | script
  /-- Imports, module loading and exports of typed scripts. -/
  | typedScript
  /-- Import lines of Python. -/
  | python
  /-- Nothing is a reference. -/
  | none
  deriving DecidableEq, Repr

/-- The patterns of an extractor with the kinds they stand for. -/
def Extractor.patterns : Extractor → List (ReferenceKind × Pattern)
  | script => [(.imports, .importFrom), (.requires, .requireCall)]
  | typedScript => [(.imports, .importFrom), (.requires, .requireCall), (.exports, .exportFrom)]
  | python => [(.imports, .fromImportLine), (.imports, .importLine)]
  | none => []

/-- The references found, in their order, before repetitions and URLs are dropped. -/
def Extractor.occurrences (e : Extractor) (text : String) : List Reference :=
  e.patterns.flatMap fun p =>
    (p.2.findAll text.toList).map fun specifier => ⟨String.ofList specifier, p.1⟩

/-- The references whose specifier is not among `seen` and not that of an earlier one. -/
def keepFirst (seen : List String) : List Reference → List Reference
  | [] => []
  | r :: rs =>
    if seen.contains r.specifier then keepFirst seen rs
    else r :: keepFirst (r.specifier :: seen) rs

/-- The references of a text. -/
def Extractor.references (e : Extractor) (text : String) : List Reference :=
  keepFirst [] ((e.occurrences text).filter fun r => !hasUrlScheme r.specifier.toList)

/-- The extractors by extension; files of other extensions are read as scripts. -/
structure Registry where
  /-- The extensions with their extractors, the latest first. -/
  entries : List (String × Extractor)

/-- The registry before anything is registered. -/
def Registry.standard : Registry :=
  ⟨[("ts", .typedScript), ("tsx", .script), ("js", .script), ("jsx", .script), ("py", .python)]⟩

/-- The registry with an extractor for an extension, in whichever case and with or without points
in front. -/
def Registry.register (r : Registry) (extension : String) (e : Extractor) : Registry :=
  ⟨(String.ofList ((lower extension.toList).dropWhile (· == '.')), e) :: r.entries⟩

/-- The extractor for a file. -/
def Registry.extractorFor (r : Registry) (path : String) : Extractor :=
  (r.entries.lookup (Path.extension path)).getD .script

/-- The references of a file. -/
def Registry.references (r : Registry) (path text : String) : List Reference :=
  (r.extractorFor path).references text

/-- The references of a file under the standard registry. -/
def referencesOf (path text : String) : List Reference := Registry.standard.references path text

end RepoGraph
