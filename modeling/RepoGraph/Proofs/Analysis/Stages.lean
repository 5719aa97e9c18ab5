import RepoGraph.Analysis.Analyser
import RepoGraph.Proofs.World

/-!
# The stages of an analysis

Between looking the job up and storing the artifact an analysis leaves the store alone, whatever its
source does (`outside_list`, `outside_collect`, `detached_build`, `detached_check`), and so does the
copy of the artifact (`within_copy`). The simplest sources ask nothing at all: `Source.listing`
never fails, and `Source.failing` cannot tell about any repository.
-/

namespace RepoGraph

namespace Analyser

variable (a : Analyser)

/-! ## Stages that leave the store alone -/

/-- Writing to the log what a snapshot is to hold leaves the store alone. -/
theorem detached_logListed (job : Job) (info : RepositoryInfo) (listed selected : List TreeEntry) :
    (logListed job info listed selected).IsDetached := .log ..

/-- Describing a repository and listing its files asks nothing about the store. -/
theorem outside_list (job : Job) : (a.list job).AsksOutside :=
  .bind (a.source.outside_describe _) fun _ =>
    .bind (a.source.outside_list _ _) fun _ => .bind (detached_logListed ..).asksOutside fun _ =>
      trivial

/-- Writing to the log what came of fetching texts leaves the store alone. -/
theorem detached_logCollected (job : Job) (c : Collected) : (logCollected job c).IsDetached := by
  unfold logCollected
  split
  · exact .log ..
  · exact .bind (.log ..) fun _ => .log ..

/-- Fetching texts asks nothing about the store. -/
theorem outside_collect (job : Job) (entries : List TreeEntry) :
    (a.collect job entries).AsksOutside :=
  .bind (a.source.outside_contents _ _ _) fun _ =>
    .bind (detached_logCollected _ _).asksOutside fun _ => trivial

/-- Building a graph leaves the store alone. -/
theorem detached_build (files : List FileRecord) : (build files).IsDetached :=
  .bind (.serialize _) fun _ => .pure _

/-- Checking an artifact leaves the store alone. -/
theorem detached_check (artifact : Artifact) (files : List FileRecord) :
    (check artifact files).IsDetached :=
  .ofExcept (.mapError _ fun _ => rfl)

/-- Copying an artifact leaves the store alone. -/
theorem within_copy (id : String) (artifact : Artifact) :
    (a.copy id artifact).Within (·.isOutside = true) fun _ => True := by
  unfold copy
  split
  · trivial
  · refine ⟨rfl, fun reply => ?_⟩
    cases reply with
    | ok => trivial
    | error f => exact ⟨rfl, fun _ => trivial⟩

/-- The words for a failure in a stage are never none. -/
theorem haltMessage_ne_empty (f : Failure) : haltMessage f ≠ "" := by
  unfold haltMessage
  split
  · decide
  · rename_i h
    exact h

end Analyser

/-! ## Sources that ask nothing -/

/-- A source that lists the same files of every repository, and has no texts of them. -/
def Source.listing (entries : List TreeEntry) : Source where
  describe repository := pure ⟨repository, repository.owner ++ "/" ++ repository.name, "main"⟩
  list _ _ := pure entries
  contents _ entries _ := pure (entries.map fun e => { entry := e })
  outside_describe _ := trivial
  outside_list _ _ := trivial
  outside_contents _ _ _ := trivial

/-- A source that fails to tell about any repository. -/
def Source.failing (f : Failure) : Source where
  describe _ := .ofExcept (.error f)
  list _ _ := pure []
  contents _ _ _ := pure []
  outside_describe _ := trivial
  outside_list _ _ := trivial
  outside_contents _ _ _ := trivial

/-- A source that lists the same files never fails. -/
theorem Source.sparesJobs_listing (entries : List TreeEntry) : (listing entries).SparesJobs :=
  ⟨fun _ => .pure _, fun _ _ => .pure _, fun _ _ _ => .pure _⟩

end RepoGraph
