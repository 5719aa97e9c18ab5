import RepoGraph.Job.Store
import RepoGraph.Proofs.Table

/-!
# What transactions do to the store

`Store.Effect` lists all that a transaction can do: most of them leave the store as it is, and the
others change the record of one job, or enter one, and set the artifact of that job only where it is
completed. `perform_effect` says that nothing else happens. From it follow the frame of a
transaction (`Effect.lookup?_of_ne`) and, for every store that transactions lead to, that only a job
that has ended has an artifact (`Reachable.keepsArtifactsOfEnded`).
-/

namespace RepoGraph

/-- The job that a transaction enters or changes, if any. -/
def Transaction.changed? : Transaction → Option String
  | insert id _ => some id
  | claim id => some id
  | complete id _ => some id
  | fail id _ => some id
  | _ => none

namespace Store

/-- What a transaction yields and does, case by case. -/
inductive Effect (s : Store) : (t : Transaction) → Except Failure t.Result → Store → Prop
  /-- A job is looked up. -/
  | found (id : String) : Effect s (.find id) (.ok (s.job? id)) s
  /-- The oldest pending job is looked up. -/
  | oldest : Effect s .oldestPending (.ok s.oldestPending?) s
  /-- The artifact of a job is looked up. -/
  | artifact (id : String) : Effect s (.artifact id) (s.artifact? id) s
  /-- The digest of a job's artifact is looked up. -/
  | digest (id : String) :
    Effect s (.digest id) (.ok ((s.artifacts.lookup? id).map (·.digest))) s
  /-- A job of the name is there already. -/
  | present (id : String) (record : JobRecord) : Effect s (.insert id record) (.error .database) s
  /-- A new job is entered. -/
  | inserted (id : String) (record : JobRecord) (h : s.jobs.lookup? id = none) :
    Effect s (.insert id record) (.ok ()) { s with jobs := s.jobs.insert id record.stored }
  /-- A job that is not pending is not claimed. -/
  | unclaimed (id : String) (h : ∀ r, s.jobs.lookup? id = some r → r.status ≠ .pending) :
    Effect s (.claim id) (.ok false) s
  /-- A pending job is claimed. -/
  | claimed (id : String) (r : JobRecord) (h : s.jobs.lookup? id = some r)
      (hpending : r.status = .pending) :
    Effect s (.claim id) (.ok true) { s with jobs := s.jobs.insert id r.claimed }
  /-- A job that is not there is not completed. -/
  | uncompleted (id : String) (a : Artifact) (h : s.jobs.lookup? id = none) :
    Effect s (.complete id a) (.error (notFound id)) s
  /-- A job is completed. -/
  | completed (id : String) (a : Artifact) (r : JobRecord) (h : s.jobs.lookup? id = some r) :
    Effect s (.complete id a) (.ok ())
      ⟨s.jobs.insert id r.completed, s.artifacts.insert id ⟨a.toJson, a.digest⟩⟩
  /-- A job that is not there is not made a failed one. -/
  | unfailed (id message : String) (h : s.jobs.lookup? id = none) :
    Effect s (.fail id message) (.error (notFound id)) s
  /-- A job is made a failed one. -/
  | failed (id message : String) (r : JobRecord) (h : s.jobs.lookup? id = some r) :
    Effect s (.fail id message) (.ok ()) { s with jobs := s.jobs.insert id (r.failed message) }

variable {s s' : Store}

/-- Changing the record of a job that is there. -/
theorem update_eq {id : String} {r : JobRecord} (h : s.jobs.lookup? id = some r)
    (change : JobRecord → JobRecord) :
    s.update id change = { s with jobs := s.jobs.insert id (change r) } := by
  rw [update, h]

/-- No job of the name is there. -/
theorem lookup?_eq_none_of_contains {id : String} (h : ¬s.jobs.contains id = true) :
    s.jobs.lookup? id = none := by
  rw [Table.contains_eq_true_iff] at h
  exact Option.eq_none_iff_forall_ne_some.mpr fun r hr => h ⟨r, hr⟩

/-- There is no job of a name that is not found. -/
theorem not_contains_of_lookup? {id : String} (h : s.jobs.lookup? id = none) :
    ¬s.jobs.contains id = true := by
  rw [Table.contains, h]
  exact Bool.false_ne_true

/-- Entering a job of a name that is not taken. -/
theorem perform_insert {id : String} (h : s.jobs.lookup? id = none) (r : JobRecord) :
    s.perform (.insert id r) = (.ok (), { s with jobs := s.jobs.insert id r.stored }) := by
  rw [perform, if_neg (not_contains_of_lookup? h)]

/-- Claiming a pending job. -/
theorem perform_claim {id : String} {r : JobRecord} (h : s.jobs.lookup? id = some r)
    (hpending : r.status = .pending) :
    s.perform (.claim id) = (.ok true, { s with jobs := s.jobs.insert id r.claimed }) := by
  simp only [perform, h, hpending, if_true, update_eq h]

/-- Claiming a job that is not pending, or not there. -/
theorem perform_claim_of_ne {id : String}
    (h : ∀ r, s.jobs.lookup? id = some r → r.status ≠ .pending) :
    s.perform (.claim id) = (.ok false, s) := by
  cases hr : s.jobs.lookup? id with
  | none => simp only [perform, hr]
  | some r => simp only [perform, hr, h r hr, if_false]

/-- Completing a job that is there. -/
theorem perform_complete {id : String} {r : JobRecord} (h : s.jobs.lookup? id = some r)
    (a : Artifact) :
    s.perform (.complete id a) = (.ok (),
      ⟨s.jobs.insert id r.completed, s.artifacts.insert id ⟨a.toJson, a.digest⟩⟩) := by
  have hcontains : s.jobs.contains id = true := (Table.contains_eq_true_iff s.jobs id).mpr ⟨r, h⟩
  have hjobs : (⟨s.jobs, s.artifacts.insert id ⟨a.toJson, a.digest⟩⟩ : Store).jobs.lookup? id =
      some r := h
  simp only [perform, hcontains, if_true, update_eq hjobs]

/-- Making a job that is there a failed one. -/
theorem perform_fail {id : String} {r : JobRecord} (h : s.jobs.lookup? id = some r)
    (message : String) :
    s.perform (.fail id message) =
      (.ok (), { s with jobs := s.jobs.insert id (r.failed message) }) := by
  have hcontains : s.jobs.contains id = true := (Table.contains_eq_true_iff s.jobs id).mpr ⟨r, h⟩
  simp only [perform, hcontains, if_true, update_eq h]

/-- A transaction does what its effect says. -/
theorem perform_effect (s : Store) (t : Transaction) :
    Effect s t (s.perform t).1 (s.perform t).2 := by
  cases t with
  | insert id record =>
    by_cases h : s.jobs.contains id = true
    · rw [perform, if_pos h]
      exact .present id record
    · rw [perform, if_neg h]
      exact .inserted id record (lookup?_eq_none_of_contains h)
  | find id => exact .found id
  | claim id =>
    cases h : s.jobs.lookup? id with
    | none =>
      rw [perform, h]
      exact .unclaimed id fun r hr => by simp [h] at hr
    | some r =>
      by_cases hpending : r.status = .pending
      · rw [perform_claim h hpending]
        exact .claimed id r h hpending
      · simp only [perform, h, hpending, if_false]
        refine .unclaimed id fun r' hr' => ?_
        rw [h] at hr'
        exact Option.some.inj hr' ▸ hpending
  | oldestPending => exact .oldest
  | complete id a =>
    by_cases h : s.jobs.contains id = true
    · obtain ⟨r, hr⟩ := (Table.contains_eq_true_iff s.jobs id).mp h
      rw [perform_complete hr]
      exact .completed id a r hr
    · rw [perform, if_neg h]
      exact .uncompleted id a (lookup?_eq_none_of_contains h)
  | fail id message =>
    by_cases h : s.jobs.contains id = true
    · obtain ⟨r, hr⟩ := (Table.contains_eq_true_iff s.jobs id).mp h
      rw [perform_fail hr]
      exact .failed id message r hr
    · rw [perform, if_neg h]
      exact .unfailed id message (lookup?_eq_none_of_contains h)
  | artifact id => exact .artifact id
  | digest id => exact .digest id

/-! ## The states of jobs -/

/-- The state of a job, if it is there. -/
def status? (s : Store) (id : String) : Option JobStatus :=
  (s.jobs.lookup? id).map (·.status)

/-- The state of a job whose record is known. -/
theorem status?_eq_some {id : String} {r : JobRecord} (h : s.jobs.lookup? id = some r) :
    s.status? id = some r.status := by
  rw [status?, h, Option.map_some]

/-- The states of jobs after the record of one was set. -/
theorem status?_of_jobs_eq {id : String} {r : JobRecord} (h : s'.jobs = s.jobs.insert id r)
    (other : String) :
    s'.status? other = if other = id then some r.status else s.status? other := by
  rw [status?, h, Table.lookup?_insert]
  split
  · rfl
  · rfl

/-! ## The frame of a transaction -/

/-- A transaction leaves all jobs and artifacts as they are but those of the job that it changes. -/
theorem Effect.lookup?_of_ne {t : Transaction} {reply : Except Failure t.Result}
    (h : Effect s t reply s') {other : String} (hother : t.changed? ≠ some other) :
    s'.jobs.lookup? other = s.jobs.lookup? other ∧
      s'.artifacts.lookup? other = s.artifacts.lookup? other := by
  cases h with
  | found | oldest | artifact | digest | present | unclaimed | uncompleted | unfailed =>
    exact ⟨rfl, rfl⟩
  | inserted id record hnew =>
    have hne : other ≠ id := fun heq => hother (congrArg some heq.symm)
    exact ⟨Table.lookup?_insert_of_ne _ _ hne, rfl⟩
  | claimed id r hr hpending =>
    have hne : other ≠ id := fun heq => hother (congrArg some heq.symm)
    exact ⟨Table.lookup?_insert_of_ne _ _ hne, rfl⟩
  | completed id a r hr =>
    have hne : other ≠ id := fun heq => hother (congrArg some heq.symm)
    exact ⟨Table.lookup?_insert_of_ne _ _ hne, Table.lookup?_insert_of_ne _ _ hne⟩
  | failed id message r hr =>
    have hne : other ≠ id := fun heq => hother (congrArg some heq.symm)
    exact ⟨Table.lookup?_insert_of_ne _ _ hne, rfl⟩

/-! ## The stores that transactions lead to -/

/-- The store is what transactions make of the empty one. -/
inductive Reachable : Store → Prop
  /-- There is nothing in the store. -/
  | empty : Reachable empty
  /-- One more transaction was performed. -/
  | perform (s : Store) (t : Transaction) (h : Reachable s) : Reachable (s.perform t).2

/-- Only jobs that have ended have an artifact. -/
def KeepsArtifactsOfEnded (s : Store) : Prop :=
  ∀ id stored, s.artifacts.lookup? id = some stored →
    ∃ r, s.jobs.lookup? id = some r ∧ r.status.isTerminal = true

/-- A transaction gives no artifact to a job that has not ended: a job that has one is not entered
again, and is not claimed. -/
theorem Effect.keepsArtifactsOfEnded {t : Transaction} {reply : Except Failure t.Result}
    (h : Effect s t reply s') (hs : s.KeepsArtifactsOfEnded) : s'.KeepsArtifactsOfEnded := by
  intro id stored hstored
  by_cases hid : t.changed? = some id
  · cases h with
    | found | oldest | artifact | digest => cases hid
    | present | unclaimed | uncompleted | unfailed => exact hs id stored hstored
    | inserted _ record hnew =>
      obtain rfl := Option.some.inj hid
      -- A job that has an artifact is there, and cannot be entered.
      obtain ⟨r, hr, -⟩ := hs _ stored hstored
      rw [hnew] at hr
      cases hr
    | claimed _ r hr hpending =>
      obtain rfl := Option.some.inj hid
      -- A job that has an artifact has ended, and cannot be claimed.
      obtain ⟨r', hr', hended⟩ := hs _ stored hstored
      rw [hr] at hr'
      obtain rfl := Option.some.inj hr'
      rw [hpending] at hended
      cases hended
    | completed _ a r hr =>
      obtain rfl := Option.some.inj hid
      exact ⟨r.completed, Table.lookup?_insert_self .., rfl⟩
    | failed _ message r hr =>
      obtain rfl := Option.some.inj hid
      exact ⟨r.failed message, Table.lookup?_insert_self .., rfl⟩
  · obtain ⟨hjobs, hartifacts⟩ := h.lookup?_of_ne hid
    rw [hartifacts] at hstored
    rw [hjobs]
    exact hs id stored hstored

/-- In a store that transactions lead to only jobs that have ended have an artifact. -/
theorem Reachable.keepsArtifactsOfEnded (h : Reachable s) : s.KeepsArtifactsOfEnded := by
  induction h with
  | empty =>
    intro id stored hstored
    cases hstored
  | perform s t _ ih => exact (perform_effect s t).keepsArtifactsOfEnded ih

/-- A job that has not ended has no artifact. -/
theorem Reachable.artifact_eq_none (h : Reachable s) {id : String} {r : JobRecord}
    (hr : s.jobs.lookup? id = some r) (hended : r.status.isTerminal = false) :
    s.artifacts.lookup? id = none := by
  refine Option.eq_none_iff_forall_ne_some.mpr fun stored hstored => ?_
  obtain ⟨r', hr', hended'⟩ := h.keepsArtifactsOfEnded id stored hstored
  rw [hr] at hr'
  obtain rfl := Option.some.inj hr'
  rw [hended] at hended'
  cases hended'

end Store

end RepoGraph
