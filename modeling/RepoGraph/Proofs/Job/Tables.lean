import RepoGraph.Proofs.Graph.Decoding
import RepoGraph.Proofs.Job.Store

/-!
# What the two tables keep

`Store.Step` is how the tables may change if jobs are entered as new ones; claims, completions and
failures may come in any order, also of jobs that have ended. Whatever the order, the tables fit
together (`Step.isConsistent`), and each job remains the one that was entered and does not become
pending again (`Step.evolves`).
-/

namespace RepoGraph

/-- The record of a job may become another one: of the same job, which is not pending again once it
is not. -/
structure JobRecord.Evolves (r r' : JobRecord) : Prop where
  /-- The repository stays. -/
  repository : r'.repository = r.repository
  /-- The URL stays. -/
  url : r'.url = r.url
  /-- Who asked for the job stays. -/
  requestedBy : r'.requestedBy = r.requestedBy
  /-- When the job was made stays. -/
  createdAt : r'.createdAt = r.createdAt
  /-- A job that is not pending does not become so. -/
  notPending : r.status ≠ .pending → r'.status ≠ .pending

/-- A record may stay as it is. -/
theorem JobRecord.Evolves.refl (r : JobRecord) : r.Evolves r := ⟨rfl, rfl, rfl, rfl, id⟩

/-- What may become of a record in two steps. -/
theorem JobRecord.Evolves.trans {r r' r'' : JobRecord} (h : r.Evolves r') (h' : r'.Evolves r'') :
    r.Evolves r'' where
  repository := h'.repository.trans h.repository
  url := h'.url.trans h.url
  requestedBy := h'.requestedBy.trans h.requestedBy
  createdAt := h'.createdAt.trans h.createdAt
  notPending hr := h'.notPending (h.notPending hr)

namespace Store

/-- `Step s t`: in one transaction of `Lifecycle` the tables `s` may become `t`. -/
inductive Step (s : Store) : Store → Prop
  /-- The tables stay as they are. -/
  | stay : Step s s
  /-- A new job is entered, which is pending. -/
  | entered (id : String) (record : JobRecord) (hpending : record.status = .pending)
      (herror : record.error = none) (h : s.jobs.lookup? id = none) :
    Step s { s with jobs := s.jobs.insert id record.stored }
  /-- A pending job is claimed. -/
  | claimed (id : String) (r : JobRecord) (h : s.jobs.lookup? id = some r)
      (hpending : r.status = .pending) : Step s { s with jobs := s.jobs.insert id r.claimed }
  /-- A job is completed. -/
  | completed (id : String) (a : Artifact) (r : JobRecord) (h : s.jobs.lookup? id = some r) :
    Step s ⟨s.jobs.insert id r.completed, s.artifacts.insert id ⟨a.toJson, a.digest⟩⟩
  /-- A job is made a failed one. -/
  | failed (id message : String) (r : JobRecord) (h : s.jobs.lookup? id = some r) :
    Step s { s with jobs := s.jobs.insert id (r.failed message) }

/-- The invariant of the two tables, which each `Step` keeps. -/
structure IsConsistent (s : Store) : Prop where
  /-- There is an error of the failed jobs and no others. -/
  error_iff : ∀ id r, s.jobs.lookup? id = some r → (r.error ≠ none ↔ r.status = .failed)
  /-- A completed job has an artifact. -/
  completed : ∀ id r, s.jobs.lookup? id = some r → r.status = .completed →
    ∃ stored, s.artifacts.lookup? id = some stored
  /-- Only jobs that have ended have an artifact. -/
  ended : s.KeepsArtifactsOfEnded
  /-- What is stored of an artifact is its JSON form and its digest. -/
  stored : ∀ id stored, s.artifacts.lookup? id = some stored →
    ∃ a : Artifact, stored = ⟨a.toJson, a.digest⟩

/-- Each job of `s` is in `s'` too, with a record that `Evolves` from its record in `s`. -/
def Evolves (s s' : Store) : Prop :=
  ∀ id r, s.jobs.lookup? id = some r → ∃ r', s'.jobs.lookup? id = some r' ∧ r.Evolves r'

variable {s s' s'' : Store}

/-- The jobs of a store are there. -/
theorem Evolves.refl (s : Store) : s.Evolves s := fun _ r hr => ⟨r, hr, .refl r⟩

/-- The jobs of a store are there after two steps. -/
theorem Evolves.trans (h : s.Evolves s') (h' : s'.Evolves s'') : s.Evolves s'' := by
  intro id r hr
  obtain ⟨r', hr', hevolves⟩ := h id r hr
  obtain ⟨r'', hr'', hevolves'⟩ := h' id r' hr'
  exact ⟨r'', hr'', hevolves.trans hevolves'⟩

/-- A job that is there and not pending remains so. -/
theorem Evolves.exists_notPending (h : s.Evolves s') {id : String}
    (hid : ∃ status, s.status? id = some status ∧ status ≠ .pending) :
    ∃ status, s'.status? id = some status ∧ status ≠ .pending := by
  obtain ⟨status, hstatus, hne⟩ := hid
  obtain ⟨r, hr, rfl⟩ := Option.map_eq_some_iff.mp hstatus
  obtain ⟨r', hr', hevolves⟩ := h id r hr
  exact ⟨r'.status, status?_eq_some hr', hevolves.notPending hne⟩

/-- The jobs are there after the record of one was set to what may become of it. -/
theorem evolves_of_jobs_eq {id : String} {r' : JobRecord} (h : s'.jobs = s.jobs.insert id r')
    (hr : ∀ r, s.jobs.lookup? id = some r → r.Evolves r') : s.Evolves s' := by
  intro other r hother
  rw [h, Table.lookup?_insert]
  split
  · rename_i heq
    subst heq
    exact ⟨r', rfl, hr r hother⟩
  · exact ⟨r, hother, .refl r⟩

/-- The jobs are there after a step. -/
theorem Step.evolves (h : s.Step s') : s.Evolves s' := by
  cases h with
  | stay => exact .refl s
  | entered id record hpending herror hnew =>
    refine evolves_of_jobs_eq rfl fun r hr => ?_
    rw [hnew] at hr
    cases hr
  | claimed id r hr hpending =>
    refine evolves_of_jobs_eq rfl fun r' hr' => ?_
    obtain rfl := Option.some.inj (hr.symm.trans hr')
    exact ⟨rfl, rfl, rfl, rfl, fun _ => by simp [JobRecord.claimed]⟩
  | completed id a r hr =>
    refine evolves_of_jobs_eq rfl fun r' hr' => ?_
    obtain rfl := Option.some.inj (hr.symm.trans hr')
    exact ⟨rfl, rfl, rfl, rfl, fun _ => by simp [JobRecord.completed]⟩
  | failed id message r hr =>
    refine evolves_of_jobs_eq rfl fun r' hr' => ?_
    obtain rfl := Option.some.inj (hr.symm.trans hr')
    exact ⟨rfl, rfl, rfl, rfl, fun _ => by simp [JobRecord.failed]⟩

/-- Empty tables fit together. -/
theorem isConsistent_empty : IsConsistent empty where
  error_iff _ _ hr := nomatch hr
  completed _ _ hr := nomatch hr
  ended _ _ hstored := nomatch hstored
  stored _ _ hstored := nomatch hstored

/-- Errors are those of the failed jobs after a step. -/
theorem Step.error_iff (h : s.Step s') (hs : s.IsConsistent) :
    ∀ id r, s'.jobs.lookup? id = some r → (r.error ≠ none ↔ r.status = .failed) := by
  have hothers (id other : String) (r : JobRecord) (_ : other ≠ id) := hs.error_iff other r
  cases h with
  | stay => exact hs.error_iff
  | entered id record hpending herror hnew =>
    refine Table.forall_lookup?_insert ?_ (hothers id)
    simp [JobRecord.stored, hpending, herror]
  | claimed id r hr hpending =>
    refine Table.forall_lookup?_insert ?_ (hothers id)
    -- A pending job has no error, and is given none.
    have hr := hs.error_iff id r hr
    rw [hpending] at hr
    simp [JobRecord.claimed, not_not.mp (mt hr.mp (by decide))]
  | completed id a r hr =>
    exact Table.forall_lookup?_insert (by simp [JobRecord.completed]) (hothers id)
  | failed id message r hr =>
    exact Table.forall_lookup?_insert (by simp [JobRecord.failed]) (hothers id)

/-- Completed jobs have an artifact after a step. -/
theorem Step.completed_artifact (h : s.Step s') (hs : s.IsConsistent) :
    ∀ id r, s'.jobs.lookup? id = some r → r.status = .completed →
      ∃ stored, s'.artifacts.lookup? id = some stored := by
  have hothers (id other : String) (r : JobRecord) (_ : other ≠ id) := hs.completed other r
  cases h with
  | stay => exact hs.completed
  | entered id record hpending herror hnew =>
    refine Table.forall_lookup?_insert (fun hcompleted => ?_) (hothers id)
    simp [JobRecord.stored, hpending] at hcompleted
  | claimed id r hr hpending =>
    exact Table.forall_lookup?_insert (fun hcompleted => nomatch hcompleted) (hothers id)
  | completed id a r hr =>
    refine Table.forall_lookup?_insert (fun _ => ⟨_, Table.lookup?_insert_self ..⟩) ?_
    intro other r' hne hr' hcompleted
    obtain ⟨stored, hstored⟩ := hothers id other r' hne hr' hcompleted
    exact ⟨stored, (Table.lookup?_insert_of_ne _ _ hne).trans hstored⟩
  | failed id message r hr =>
    exact Table.forall_lookup?_insert (fun hcompleted => nomatch hcompleted) (hothers id)

/-- A step is the effect of a transaction. -/
theorem Step.exists_effect (h : s.Step s') : ∃ t reply, s.Effect t reply s' := by
  cases h with
  | stay => exact ⟨_, _, .oldest⟩
  | entered id record hpending herror hnew => exact ⟨_, _, .inserted id record hnew⟩
  | claimed id r hr hpending => exact ⟨_, _, .claimed id r hr hpending⟩
  | completed id a r hr => exact ⟨_, _, .completed id a r hr⟩
  | failed id message r hr => exact ⟨_, _, .failed id message r hr⟩

/-- The tables fit together after a step. -/
theorem Step.isConsistent (h : s.Step s') (hs : s.IsConsistent) : s'.IsConsistent where
  error_iff := h.error_iff hs
  completed := h.completed_artifact hs
  ended := by
    obtain ⟨_, _, heffect⟩ := h.exists_effect
    exact heffect.keepsArtifactsOfEnded hs.ended
  stored := by
    cases h with
    | stay | entered | claimed | failed => exact hs.stored
    | completed id a r hr =>
      exact Table.forall_lookup?_insert ⟨a, rfl⟩ fun other stored _ => hs.stored other stored

/-- The artifact of a job is read back, and its digest is that of its text. -/
theorem IsConsistent.exists_artifact (hs : s.IsConsistent) {id : String} {stored : StoredArtifact}
    (h : s.artifacts.lookup? id = some stored) :
    ∃ a, s.artifact? id = .ok (some a) ∧ stored.digest = Digest.sha256Text a.stableText := by
  obtain ⟨a, rfl⟩ := hs.stored id stored h
  refine ⟨a, ?_, rfl⟩
  rw [artifact?, h]
  simp only [Artifact.decode_toJson]

end Store

end RepoGraph
