import RepoGraph.Proofs.Sharing.Rules

/-!
# Who was granted which job

A `Ledger` is a store together with the grants that claims made and the artifacts that were written,
each with the party. `Change` lists what a party that follows the rules can do to it. Each change
moves jobs forward only (`Change.moves`), keeps the ledger sound (`Change.sound`), keeps what the
party holds (`Change.holds`) and what the other parties hold (`Change.holds_of_ne`); the last two
rest on each job being granted once.
-/

namespace RepoGraph

/-- How `Store.status?` of a job may change in one step. -/
inductive JobStatus.Moves : Option JobStatus → Option JobStatus → Prop
  /-- The job stays as it is, or stays absent. -/
  | stay (status : Option JobStatus) : Moves status status
  /-- The job is entered. -/
  | enter : Moves none (some .pending)
  /-- The job is claimed. -/
  | claim : Moves (some .pending) (some .processing)
  /-- The job ends with an artifact. -/
  | complete : Moves (some .processing) (some .completed)
  /-- The job ends with an error. -/
  | fail : Moves (some .processing) (some .failed)

namespace Sharing

/-- A store, the claims that were granted (`grants`) and the artifacts that were written (`writes`)
on the way to it, each with the number of the party. -/
structure Ledger where
  /-- The store. -/
  store : Store
  /-- The parties that were granted a job, each with the job. -/
  grants : List (Nat × String)
  /-- The parties that wrote an artifact, each with its job and the artifact. -/
  writes : List (Nat × String × Artifact)

namespace Ledger

/-- The invariant of a ledger, which each `Change` keeps. -/
structure Sound (l : Ledger) : Prop where
  /-- There is an artifact of the completed jobs and no others. -/
  artifact_iff : ∀ id,
    (∃ stored, l.store.artifacts.lookup? id = some stored) ↔ l.store.status? id = some .completed
  /-- There is an error of the failed jobs and no others. -/
  error_iff : ∀ id r, l.store.jobs.lookup? id = some r → (r.error ≠ none ↔ r.status = .failed)
  /-- No job was granted twice. -/
  nodup_grants : (l.grants.map Prod.snd).Nodup
  /-- A job that was granted is there and is not pending. -/
  granted : ∀ g ∈ l.grants, ∃ status, l.store.status? g.2 = some status ∧ status ≠ .pending
  /-- No artifact was written twice. -/
  nodup_writes : (l.writes.map (·.2.1)).Nodup
  /-- An artifact was written by the party that was granted the job, and is stored. -/
  written : ∀ i id a, (i, id, a) ∈ l.writes →
    (i, id) ∈ l.grants ∧ l.store.artifacts.lookup? id = some ⟨a.toJson, a.digest⟩
  /-- An artifact that is stored was written. -/
  stored : ∀ id stored, l.store.artifacts.lookup? id = some stored → ∃ i a, (i, id, a) ∈ l.writes

/-- In the phase `.holding id` the party has a grant of `id`, and the job is processing; in other
phases nothing is said. -/
def Holds (l : Ledger) (i : Nat) : Phase → Prop
  | .holding id => (i, id) ∈ l.grants ∧ l.store.status? id = some .processing
  | _ => True

/-- `Change i phase l phase' l'`: what a party `i` that obeys `Phase.rules` can do to a ledger in
one transaction, and the phase after it. -/
inductive Change (i : Nat) : Phase → Ledger → Phase → Ledger → Prop
  /-- Nothing changes. -/
  | quiet (phase : Phase) (l : Ledger) : Change i phase l phase l
  /-- A job is entered. -/
  | entered (phase : Phase) (l : Ledger) (id : String) (record : JobRecord)
      (hpending : record.status = .pending) (herror : record.error = none)
      (hnew : l.store.jobs.lookup? id = none) :
    Change i phase l phase
      { l with store := { l.store with jobs := l.store.jobs.insert id record } }
  /-- A pending job is claimed. -/
  | claimed (l : Ledger) (id : String) (r : JobRecord) (hr : l.store.jobs.lookup? id = some r)
      (hpending : r.status = .pending) :
    Change i .seeking l (.holding id)
      { l with
        store := { l.store with jobs := l.store.jobs.insert id r.claimed }
        grants := (i, id) :: l.grants }
  /-- The job that the party holds is completed. -/
  | completed (l : Ledger) (id : String) (a : Artifact) (r : JobRecord)
      (hr : l.store.jobs.lookup? id = some r) (hprocessing : r.status = .processing) :
    Change i (.holding id) l .ended
      { l with
        store := ⟨l.store.jobs.insert id r.completed,
          l.store.artifacts.insert id ⟨a.toJson, a.digest⟩⟩
        writes := (i, id, a) :: l.writes }
  /-- The job that the party holds is made a failed one. -/
  | failed (l : Ledger) (id message : String) (r : JobRecord)
      (hr : l.store.jobs.lookup? id = some r) (hprocessing : r.status = .processing) :
    Change i (.holding id) l .ended
      { l with store := { l.store with jobs := l.store.jobs.insert id (r.failed message) } }

variable {i : Nat} {phase phase' : Phase} {l l' : Ledger}

/-- Setting the record of one job moves all jobs by one step at most if it does so with that one. -/
theorem moves_of_jobs_eq {s s' : Store} {id : String} {r : JobRecord}
    (h : s'.jobs = s.jobs.insert id r) (hmove : JobStatus.Moves (s.status? id) (some r.status))
    (other : String) : JobStatus.Moves (s.status? other) (s'.status? other) := by
  rw [Store.status?_of_jobs_eq h]
  split
  · rename_i hother
    rw [hother]
    exact hmove
  · exact .stay _

/-- A change moves each job by one step at most. -/
theorem Change.moves (h : Change i phase l phase' l') (id : String) :
    JobStatus.Moves (l.store.status? id) (l'.store.status? id) := by
  cases h with
  | quiet => exact .stay _
  | entered _ _ id' record hpending herror hnew =>
    refine moves_of_jobs_eq (s := l.store) rfl ?_ id
    rw [Store.status?, hnew, hpending]
    exact .enter
  | claimed _ id' r hr hpending =>
    refine moves_of_jobs_eq (s := l.store) rfl ?_ id
    rw [Store.status?_eq_some hr, hpending]
    exact .claim
  | completed _ id' a r hr hprocessing =>
    refine moves_of_jobs_eq (s := l.store) rfl ?_ id
    rw [Store.status?_eq_some hr, hprocessing]
    exact .complete
  | failed _ id' message r hr hprocessing =>
    refine moves_of_jobs_eq (s := l.store) rfl ?_ id
    rw [Store.status?_eq_some hr, hprocessing]
    exact .fail

/-- A job that is there and not pending remains so. -/
theorem exists_status_of_moves {before after : Option JobStatus} (h : JobStatus.Moves before after)
    (hbefore : ∃ status, before = some status ∧ status ≠ .pending) :
    ∃ status, after = some status ∧ status ≠ .pending := by
  obtain ⟨status, hstatus, hne⟩ := hbefore
  cases h with
  | stay => exact ⟨status, hstatus, hne⟩
  | enter => cases hstatus
  | claim => exact ⟨.processing, rfl, by decide⟩
  | complete => exact ⟨.completed, rfl, by decide⟩
  | fail => exact ⟨.failed, rfl, by decide⟩

/-! ## What a change keeps -/

/-- The party that was granted a job is one. -/
theorem Sound.eq_of_mem_grants (h : l.Sound) {j : Nat} {id : String} (hi : (i, id) ∈ l.grants)
    (hj : (j, id) ∈ l.grants) : i = j :=
  congrArg Prod.fst (List.inj_on_of_nodup_map h.nodup_grants hi hj rfl)

/-- A job that a party holds remains so where the record of another job is set. -/
theorem holds_of_jobs_eq {j : Nat} (hholds : l.Holds j phase) {id : String} {r : JobRecord}
    (hjobs : l'.store.jobs = l.store.jobs.insert id r) (hgrants : l.grants ⊆ l'.grants)
    (hother : phase ≠ .holding id) : l'.Holds j phase := by
  cases phase with
  | seeking | ended => trivial
  | holding id' =>
    obtain ⟨hgrant, hstatus⟩ := hholds
    have hne : id' ≠ id := fun heq => hother (congrArg Phase.holding heq)
    refine ⟨hgrants hgrant, ?_⟩
    rw [Store.status?_of_jobs_eq hjobs, if_neg hne]
    exact hstatus

/-- A party holds no job that is in another state than a processing one. -/
theorem Holds.ne_holding {j : Nat} (hholds : l.Holds j phase) {id : String}
    (hstatus : l.store.status? id ≠ some .processing) : phase ≠ .holding id := by
  rintro rfl
  exact hstatus hholds.2

/-- A change lets the party hold what its new phase says. -/
theorem Change.holds (h : Change i phase l phase' l') (hholds : l.Holds i phase) :
    l'.Holds i phase' := by
  cases h with
  | quiet => exact hholds
  | entered _ _ id record hpending herror hnew =>
    refine holds_of_jobs_eq hholds rfl (List.Subset.refl _) (hholds.ne_holding ?_)
    simp [Store.status?, hnew]
  | claimed _ id r hr hpending =>
    refine ⟨List.mem_cons_self, ?_⟩
    rw [Store.status?_of_jobs_eq (s := l.store) rfl, if_pos rfl]
    rfl
  | completed | failed => trivial

/-- A change lets the other parties hold what they held: the party changes only a job that nobody
holds, or its own. -/
theorem Change.holds_of_ne (h : Change i phase l phase' l') (hsound : l.Sound)
    (hholds : l.Holds i phase) {j : Nat} (hne : j ≠ i) {other : Phase}
    (hother : l.Holds j other) : l'.Holds j other := by
  -- The job that the party holds is held by no other, as it was granted once.
  have hown {id : String} (hphase : phase = .holding id) : other ≠ .holding id := by
    rintro rfl
    subst hphase
    exact hne (hsound.eq_of_mem_grants hother.1 hholds.1)
  cases h with
  | quiet => exact hother
  | entered _ _ id record hpending herror hnew =>
    refine holds_of_jobs_eq hother rfl (List.Subset.refl _) (hother.ne_holding ?_)
    simp [Store.status?, hnew]
  | claimed _ id r hr hpending =>
    refine holds_of_jobs_eq hother rfl (List.subset_cons_self _ _) (hother.ne_holding ?_)
    simp [Store.status?_eq_some hr, hpending]
  | completed _ id a r hr hprocessing =>
    exact holds_of_jobs_eq hother rfl (List.Subset.refl _) (hown rfl)
  | failed _ id message r hr hprocessing =>
    exact holds_of_jobs_eq hother rfl (List.Subset.refl _) (hown rfl)

/-! ## A change keeps the ledger sound -/

/-- Errors remain those of the failed jobs where a record is set of which that is so. -/
theorem Sound.error_iff_of_jobs_eq (hsound : l.Sound) {s' : Store} {id : String} {r : JobRecord}
    (hjobs : s'.jobs = l.store.jobs.insert id r) (hr : r.error ≠ none ↔ r.status = .failed)
    (other : String) (r' : JobRecord) (hr' : s'.jobs.lookup? other = some r') :
    r'.error ≠ none ↔ r'.status = .failed := by
  rw [hjobs, Table.lookup?_insert] at hr'
  split at hr'
  · obtain rfl := Option.some.inj hr'
    exact hr
  · exact hsound.error_iff other r' hr'

/-- Artifacts remain those of the completed jobs where a job is set that was not completed and is
not. -/
theorem Sound.artifact_iff_of_jobs_eq (hsound : l.Sound) {id : String} {r : JobRecord}
    (hbefore : l.store.status? id ≠ some .completed) (hr : r.status ≠ .completed) (other : String) :
    (∃ stored, l.store.artifacts.lookup? other = some stored) ↔
      Store.status? { l.store with jobs := l.store.jobs.insert id r } other = some .completed := by
  have hafter : Store.status? { l.store with jobs := l.store.jobs.insert id r } other =
      if other = id then some r.status else l.store.status? other :=
    Store.status?_of_jobs_eq rfl other
  rw [hsound.artifact_iff, hafter]
  split
  · rename_i heq
    subst heq
    constructor
    · exact fun h => absurd h hbefore
    · exact fun h => absurd (Option.some.inj h) hr
  · exact Iff.rfl

/-- Jobs that were granted remain there and are not pending after a change. -/
theorem Sound.granted_of_change (hsound : l.Sound) (h : Change i phase l phase' l')
    (g : Nat × String) (hg : g ∈ l.grants) :
    ∃ status, l'.store.status? g.2 = some status ∧ status ≠ .pending :=
  exists_status_of_moves (h.moves g.2) (hsound.granted g hg)

/-- A job that is not completed has no artifact. -/
theorem Sound.artifact_eq_none (hsound : l.Sound) {id : String}
    (h : l.store.status? id ≠ some .completed) : l.store.artifacts.lookup? id = none := by
  refine Option.eq_none_iff_forall_ne_some.mpr fun stored hstored => ?_
  exact h ((hsound.artifact_iff id).mp ⟨stored, hstored⟩)

/-- Nobody wrote an artifact of a job that is not completed. -/
theorem Sound.notMem_writes (hsound : l.Sound) {id : String}
    (h : l.store.status? id ≠ some .completed) : id ∉ l.writes.map (·.2.1) := by
  intro hmem
  obtain ⟨⟨j, id', a⟩, hwrite, rfl⟩ := List.mem_map.mp hmem
  obtain ⟨-, hstored⟩ := hsound.written j id' a hwrite
  exact h ((hsound.artifact_iff id').mp ⟨_, hstored⟩)

/-- A pending job was granted to nobody. -/
theorem Sound.notMem_grants (hsound : l.Sound) {id : String}
    (h : l.store.status? id = some .pending) : id ∉ l.grants.map Prod.snd := by
  intro hmem
  obtain ⟨g, hg, rfl⟩ := List.mem_map.mp hmem
  obtain ⟨status, hstatus, hne⟩ := hsound.granted g hg
  rw [h] at hstatus
  exact hne (Option.some.inj hstatus).symm

/-- Setting the record of a job that was not completed and is not keeps the ledger sound. -/
theorem Sound.set_job (hsound : l.Sound) {id : String} {r : JobRecord}
    (hbefore : l.store.status? id ≠ some .completed) (hr : r.status ≠ .completed)
    (herror : r.error ≠ none ↔ r.status = .failed)
    (hgranted : ∀ g ∈ l.grants, ∃ status,
      Store.status? { l.store with jobs := l.store.jobs.insert id r } g.2 = some status ∧
        status ≠ .pending) :
    Sound { l with store := { l.store with jobs := l.store.jobs.insert id r } } where
  artifact_iff := hsound.artifact_iff_of_jobs_eq hbefore hr
  error_iff := hsound.error_iff_of_jobs_eq rfl herror
  nodup_grants := hsound.nodup_grants
  granted := hgranted
  nodup_writes := hsound.nodup_writes
  written := hsound.written
  stored := hsound.stored

/-- Granting a job that was granted to nobody and is not pending keeps the ledger sound. -/
theorem Sound.grant (hsound : l.Sound) (i : Nat) {id : String} {status : JobStatus}
    (hnew : id ∉ l.grants.map Prod.snd) (hstatus : l.store.status? id = some status)
    (hne : status ≠ .pending) : Sound { l with grants := (i, id) :: l.grants } where
  artifact_iff := hsound.artifact_iff
  error_iff := hsound.error_iff
  nodup_grants := List.nodup_cons.mpr ⟨hnew, hsound.nodup_grants⟩
  granted := List.forall_mem_cons.mpr ⟨⟨status, hstatus, hne⟩, hsound.granted⟩
  nodup_writes := hsound.nodup_writes
  written j id' a hwrite := by
    obtain ⟨hgrant, hstored⟩ := hsound.written j id' a hwrite
    exact ⟨List.mem_cons_of_mem _ hgrant, hstored⟩
  stored := hsound.stored

/-- Completing a processing job with an artifact by the party that was granted it keeps the ledger
sound. -/
theorem Sound.complete (hsound : l.Sound) {id : String} {r : JobRecord} (a : Artifact)
    (hgrant : (i, id) ∈ l.grants) (hbefore : l.store.status? id ≠ some .completed)
    (hgranted : ∀ g ∈ l.grants, ∃ status,
      Store.status? ⟨l.store.jobs.insert id r.completed,
        l.store.artifacts.insert id ⟨a.toJson, a.digest⟩⟩ g.2 = some status ∧ status ≠ .pending) :
    Sound
      { l with
        store := ⟨l.store.jobs.insert id r.completed,
          l.store.artifacts.insert id ⟨a.toJson, a.digest⟩⟩
        writes := (i, id, a) :: l.writes } where
  artifact_iff other := by
    rw [Store.status?_of_jobs_eq (s := l.store) rfl, Table.lookup?_insert]
    split
    · simp [JobRecord.completed]
    · exact hsound.artifact_iff other
  error_iff := hsound.error_iff_of_jobs_eq rfl (by simp [JobRecord.completed])
  nodup_grants := hsound.nodup_grants
  granted := hgranted
  nodup_writes := List.nodup_cons.mpr ⟨hsound.notMem_writes hbefore, hsound.nodup_writes⟩
  written j id' a' hwrite := by
    rw [Table.lookup?_insert]
    rcases List.mem_cons.mp hwrite with heq | hearlier
    · cases heq
      exact ⟨hgrant, if_pos rfl⟩
    · -- An artifact that was written earlier is that of another job.
      have hne : id' ≠ id := fun heq =>
        hsound.notMem_writes hbefore (List.mem_map.mpr ⟨(j, id', a'), hearlier, heq⟩)
      rw [if_neg hne]
      exact hsound.written j id' a' hearlier
  stored other stored hstored := by
    rw [Table.lookup?_insert] at hstored
    split at hstored
    · rename_i heq
      subst heq
      exact ⟨i, a, List.mem_cons_self⟩
    · obtain ⟨j, a', hwrite⟩ := hsound.stored other stored hstored
      exact ⟨j, a', List.mem_cons_of_mem _ hwrite⟩

/-- A change by a party that holds what its phase says keeps the ledger sound. -/
theorem Change.sound (h : Change i phase l phase' l') (hsound : l.Sound)
    (hholds : l.Holds i phase) : l'.Sound := by
  have hgranted := hsound.granted_of_change h
  cases h with
  | quiet => exact hsound
  | entered _ _ id record hpending herror hnew =>
    have hstatus : l.store.status? id = none := by rw [Store.status?, hnew, Option.map_none]
    exact hsound.set_job (by simp [hstatus]) (by simp [hpending]) (by simp [hpending, herror])
      hgranted
  | claimed _ id r hr hpending =>
    have hstatus : l.store.status? id = some .pending := by
      rw [Store.status?_eq_some hr, hpending]
    -- A pending job has no error, and is granted to nobody.
    have herror : r.error = none := by
      have hiff := hsound.error_iff id r hr
      rw [hpending] at hiff
      simpa using hiff
    have hafter : Store.status? { l.store with jobs := l.store.jobs.insert id r.claimed } id =
        some .processing := by
      rw [Store.status?_of_jobs_eq (s := l.store) rfl, if_pos rfl]
      rfl
    have hset := hsound.set_job (r := r.claimed) (by simp [hstatus]) (by simp [JobRecord.claimed])
      (by simp [JobRecord.claimed, herror]) hgranted
    exact hset.grant i (hsound.notMem_grants hstatus) hafter (by decide)
  | completed _ id a r hr hprocessing =>
    have hstatus : l.store.status? id ≠ some .completed := by
      simp [Store.status?_eq_some hr, hprocessing]
    exact hsound.complete a hholds.1 hstatus hgranted
  | failed _ id message r hr hprocessing =>
    have hstatus : l.store.status? id ≠ some .completed := by
      simp [Store.status?_eq_some hr, hprocessing]
    exact hsound.set_job hstatus (by simp [JobRecord.failed]) (by simp [JobRecord.failed]) hgranted

end Ledger

end Sharing

end RepoGraph
