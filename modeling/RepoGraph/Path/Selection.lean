import RepoGraph.Path.Basic

/-!
# Which files belong to a snapshot

`isExcluded` drops what lies in directories of tools and build products, `select` keeps the first
files of what is left, and `isFetched` tells whether a file's text is worth fetching.
-/

namespace RepoGraph.Path

/-- The greatest size of a file whose text is fetched. -/
def maxContentSize : Int := 100000

/-- How many files a snapshot has at most unless settings say otherwise. -/
def defaultMaxFiles : Int := 200

/-- The extensions of files whose text is scanned for references. -/
def scannedExtensions : List String :=
  ["ts", "tsx", "js", "jsx", "mjs", "cjs", "py", "go", "rs", "rb", "java", "cs", "cpp", "c"]

/-- The names of directories that are never looked into, at any depth. -/
def excludedDirectories : List String :=
  [".git", "node_modules", "dist", "build", ".next", "vendor", "__pycache__"]

/-- The text of the file is fetched: it can be scanned and is not known to be too large. -/
def isFetched (path : String) (size : Option Int) : Bool :=
  (match size with
    | some n => n ≤ maxContentSize
    | none => true) && scannedExtensions.contains (extension path)

/-- A directory of the path is one that is never looked into. -/
def isExcluded (path : String) : Bool :=
  (segments path).dropLast.any excludedDirectories.contains

/-- The file may belong to a snapshot. -/
def isSelectable (path : String) : Bool := path != "" && !isExcluded path

/-- The first `maxFiles` entries whose paths may belong to a snapshot, in their order. -/
def select {α : Type} (pathOf : α → String) (maxFiles : Int) (entries : List α) : List α :=
  (entries.filter fun e => isSelectable (pathOf e)).take maxFiles.toNat

end RepoGraph.Path
