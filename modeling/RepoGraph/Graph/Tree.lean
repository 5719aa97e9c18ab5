import RepoGraph.Path.Basic

/-!
# File trees

A tree nests the paths of a snapshot into directories. `Tree.ofPaths` plants the distinct paths one
after another in increasing order, and makes a directory where a path first needs it; a directory is
known by its whole path. `Tree.leaves` walks the tree from left to right.

A tree that was read from elsewhere may be odd: a file may list children and a directory may list
none. What a node lists is therefore told apart from what it is.
-/

namespace RepoGraph

open RepoGraph.Text

/-- What a node of a tree is. -/
inductive TreeKind
  /-- A file. -/
  | file
  /-- A directory. -/
  | dir
  deriving DecidableEq, Repr, Inhabited

/-- The word for a kind. -/
def TreeKind.name : TreeKind → String
  | file => "file"
  | dir => "dir"

/-- The kind with a name. -/
def TreeKind.ofName? (name : String) : Option TreeKind :=
  [TreeKind.file, .dir].find? fun k => k.name == name

/-- What a node of a tree tells of itself. -/
structure TreeLabel where
  /-- The last segment of its path. -/
  name : String
  /-- Its path. -/
  path : String
  /-- What it is. -/
  kind : TreeKind
  /-- The language, if it is known. -/
  language : Option String
  deriving DecidableEq, Repr, Inhabited

/-- A tree of files. -/
inductive Tree
  /-- A node that lists no children. -/
  | bare (label : TreeLabel)
  /-- A node that lists children, perhaps none of them. -/
  | branch (label : TreeLabel) (children : List Tree)
  deriving Inhabited

namespace Tree

/-- What the root tells of itself. -/
def label : Tree → TreeLabel
  | bare l => l
  | branch l _ => l

mutual

/-- The files of a tree, from left to right; what lies below a file is not looked at. -/
def leaves : Tree → List TreeLabel
  | bare l => if l.kind = .file then [l] else []
  | branch l cs => if l.kind = .file then [l] else leavesOf cs

/-- The files of several trees, from left to right. -/
def leavesOf : List Tree → List TreeLabel
  | [] => []
  | t :: ts => leaves t ++ leavesOf ts

end

mutual

/-- The two trees are the same. -/
def same : Tree → Tree → Bool
  | bare l, bare m => l == m
  | branch l cs, branch m ds => l == m && sameAll cs ds
  | _, _ => false

/-- The two lists of trees are the same. -/
def sameAll : List Tree → List Tree → Bool
  | [], [] => true
  | t :: ts, u :: us => same t u && sameAll ts us
  | _, _ => false

end

instance : BEq Tree := ⟨same⟩

/-- A file of a snapshot. -/
def file (path : String) : Tree :=
  let name := Path.base path
  bare ⟨name, path, .file, Path.language? name⟩

/-- A directory of a snapshot. -/
def directory (name path : String) (children : List Tree) : Tree :=
  branch ⟨name, path, .dir, none⟩ children

/-- The root is the directory with a path. -/
def isDirectory (path : String) (t : Tree) : Bool := t.label.kind == .dir && t.label.path == path

/-- The tree with its list of children changed. -/
def mapChildren (change : List Tree → List Tree) : Tree → Tree
  | bare l => branch l (change [])
  | branch l cs => branch l (change cs)

/-- The trees with the children of a directory changed; if it is not among them it is added. -/
def plantIn (change : List Tree → List Tree) (name path : String) : List Tree → List Tree
  | [] => [directory name path (change [])]
  | t :: ts =>
    if t.isDirectory path then t.mapChildren change :: ts else t :: plantIn change name path ts

/-- The trees with one more, below directories given by name and path from the outermost on. -/
def plant (tree : Tree) : List (String × String) → List Tree → List Tree
  | [] => (· ++ [tree])
  | d :: ds => plantIn (plant tree ds) d.1 d.2

/-- The directories below the root on the way to a file, given the path so far and the segments from
there on; the file itself, the last segment, is none. -/
def directoriesFrom (above : List Char) : List (List Char) → List (String × String)
  | s :: next :: rest =>
    let path := above ++ s
    (String.ofList s, String.ofList path) :: directoriesFrom (path ++ ['/']) (next :: rest)
  | _ => []

/-- The directories below the root on the way to a file: the empty path is the root itself. -/
def directories (path : String) : List (String × String) :=
  (directoriesFrom [] (splitOn '/' path.toList)).filter fun d => d.2 != ""

/-- The distinct paths that are not empty, in increasing order. -/
def distinctPaths (paths : List String) : List String :=
  (paths.filter (· != "")).eraseDups.mergeSort fun a b => decide (a ≤ b)

/-- The tree of a snapshot's paths. -/
def ofPaths (paths : List String) : Tree :=
  directory "/" "" ((distinctPaths paths).foldl (fun ts p => plant (file p) (directories p) ts) [])

end Tree

end RepoGraph
