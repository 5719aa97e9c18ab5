import RepoGraph.Graph.File
import RepoGraph.World.Basic

/-!
# Snapshots of repositories

A snapshot is a list of files at the default branch of a repository, some of them with their texts.
A `Source` is where snapshots come from: it tells about a repository, lists its files and fetches
their texts. A text that cannot be fetched is no failure of the whole.
-/

namespace RepoGraph

/-- What a source tells about a repository. -/
structure RepositoryInfo where
  /-- The repository, under the name that the source has for it. -/
  repository : Repository
  /-- The full name of the repository. -/
  fullName : String
  /-- The branch that is looked at. -/
  branch : String
  deriving DecidableEq, Repr

/-- A file in the list of a source. -/
structure TreeEntry where
  /-- The path of the file. -/
  path : String
  /-- The size of the file, if the source tells it. -/
  size : Option Int := none
  deriving DecidableEq, Repr

/-- A file with what came of fetching its text. -/
structure FetchOutcome where
  /-- The file. -/
  entry : TreeEntry
  /-- The text, if it was asked for and is not empty. -/
  content? : Option String := none
  /-- Why the text could not be fetched. -/
  error? : Option String := none
  deriving DecidableEq, Repr

/-- The file for the graph. -/
def FetchOutcome.file (o : FetchOutcome) : FileRecord :=
  { path := o.entry.path, content := o.content?, size := o.entry.size }

/-- Where snapshots come from. A source is not given the store, and so it asks nothing about it; how
it fails is its own affair. -/
structure Source where
  /-- Tells about a repository. -/
  describe : Repository → Action RepositoryInfo
  /-- Lists the files of a repository at a branch. -/
  list : Repository → String → Action (List TreeEntry)
  /-- Fetches the texts of files, so many at a time. -/
  contents : Repository → List TreeEntry → Int → Action (List FetchOutcome)
  /-- Telling about a repository asks nothing about the store. -/
  outside_describe : ∀ r, (describe r).AsksOutside
  /-- Listing files asks nothing about the store. -/
  outside_list : ∀ r branch, (list r branch).AsksOutside
  /-- Fetching texts asks nothing about the store. -/
  outside_contents : ∀ r entries limit, (contents r entries limit).AsksOutside

/-- The source does not fail as the loading of a job does, whatever it is told. -/
structure Source.SparesJobs (source : Source) : Prop where
  /-- Nor does telling about a repository. -/
  describe : ∀ r, (source.describe r).IsDetached
  /-- Nor does listing files. -/
  list : ∀ r branch, (source.list r branch).IsDetached
  /-- Nor does fetching texts. -/
  contents : ∀ r entries limit, (source.contents r entries limit).IsDetached

end RepoGraph
