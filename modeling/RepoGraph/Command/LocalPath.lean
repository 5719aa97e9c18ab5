import RepoGraph.Text.Split

/-!
# Paths of local files

A path is tidied before a file is looked for, and messages show it tidied: empty segments and
segments of one dot are left out, and a path of nothing else is one dot.
-/

namespace RepoGraph.LocalPath

open RepoGraph.Text

/-- What a path begins with: two slashes are more than one, and three are as good as one. -/
def root (path : List Char) : List Char :=
  match path.takeWhile (· == '/') with
  | [] => []
  | ['/', '/'] => ['/', '/']
  | _ => ['/']

/-- The segments of a path that say something. -/
def segments (path : List Char) : List (List Char) :=
  (splitOn '/' path).filter fun s => !s.isEmpty && s != ['.']

/-- The path without what says nothing. -/
def tidy (path : String) : String :=
  match root path.toList ++ joinWith '/' (segments path.toList) with
  | [] => "."
  | cs => String.ofList cs

end RepoGraph.LocalPath
