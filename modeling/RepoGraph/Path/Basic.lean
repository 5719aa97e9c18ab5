import RepoGraph.Text.Case
import RepoGraph.Text.Split

/-!
# Repository paths

A path is a text of segments separated by slashes; any text is one. `base` is its last segment,
`parent` what stands before it, `extension` the lower-case text after the last point of the last
segment, which is the whole segment when it has no point, and `language?` looks the extension up.
-/

namespace RepoGraph.Path

open RepoGraph.Text

/-- The segments of a path; a path has at least one. -/
def segments (path : String) : List String := (splitOn '/' path.toList).map String.ofList

/-- The last segment of a path. -/
def base (path : String) : String := String.ofList (afterLast '/' path.toList)

/-- The path before its last slash, which is empty for a path of one segment. -/
def parent (path : String) : String := String.ofList ((beforeLast? '/' path.toList).getD [])

/-- The lower-case text after the last point of the last segment. -/
def extension (path : String) : String :=
  String.ofList (lower (afterLast '.' (afterLast '/' path.toList)))

/-- The languages by extension. -/
def languages : List (String × String) :=
  [("ts", "TypeScript"), ("tsx", "TypeScript"), ("js", "JavaScript"), ("jsx", "JavaScript"),
   ("py", "Python"), ("go", "Go"), ("rs", "Rust"), ("rb", "Ruby"), ("java", "Java"), ("cs", "C#"),
   ("cpp", "C++"), ("c", "C"), ("md", "Markdown"), ("json", "JSON"), ("yaml", "YAML"),
   ("yml", "YAML"), ("css", "CSS"), ("scss", "SCSS"), ("html", "HTML")]

/-- The language of a file, if its extension tells it. -/
def language? (path : String) : Option String := languages.lookup (extension path)

end RepoGraph.Path
