import Mathlib.Data.Prod.Lex
import Mathlib.Data.String.Basic
import RepoGraph.Proofs.Job.Store

/-!
# The queue of pending jobs

Pending jobs stand in a queue by the time at which they were made, and by name where this is the
same (`place`). The job that is looked up as the oldest pending one has the least place of all
(`oldestPending?_eq_some_iff`), and is the first of the queue (`oldestPending?_eq_head?`). When it
is no longer pending, the others follow in their order (`queue_of_jobs_eq`).
-/

namespace RepoGraph.Store

variable {s s' : Store} {id : String} {r : JobRecord}

/-- The place of a job in a queue: when it was made, and its name. -/
def place (e : String × JobRecord) : ℤ ×ₗ String := toLex (e.2.createdAt.microseconds, e.1)

/-- An older job is one with a lesser place. -/
theorem isOlder_iff {a b : String × JobRecord} : isOlder a b = true ↔ place a < place b := by
  simp [isOlder, place, Prod.Lex.toLex_lt_toLex]

/-- Jobs at one place have one name. -/
theorem fst_eq_of_place_eq {a b : String × JobRecord} (h : place a = place b) : a.1 = b.1 :=
  congrArg (fun p => (ofLex p).2) h

/-- The pending jobs are the records in that state. -/
theorem mem_pending {e : String × JobRecord} :
    e ∈ s.pending ↔ s.jobs.lookup? e.1 = some e.2 ∧ e.2.status = .pending := by
  rw [pending, List.mem_filter, beq_iff_eq, Table.lookup?,
    Table.lookup_eq_some_iff_mem s.jobs.nodup]

/-- The names of the pending jobs are distinct. -/
theorem nodup_pending (s : Store) : (s.pending.map Prod.fst).Nodup :=
  s.jobs.nodup.sublist (List.filter_sublist.map Prod.fst)

/-! ## The oldest pending job -/

/-- No pending job has a lesser place than this one, which is pending. -/
def IsOldestPending (s : Store) (id : String) : Prop :=
  ∃ r, (id, r) ∈ s.pending ∧ ∀ e ∈ s.pending, place (id, r) ≤ place e

/-- The oldest pending job is pending. -/
theorem IsOldestPending.status?_eq (h : s.IsOldestPending id) : s.status? id = some .pending := by
  obtain ⟨r, hr, -⟩ := h
  obtain ⟨hfound, hpending⟩ := mem_pending.mp hr
  exact (status?_eq_some hfound).trans (congrArg some hpending)

/-- There is one oldest pending job at most. -/
theorem IsOldestPending.unique {other : String} (h : s.IsOldestPending id)
    (h' : s.IsOldestPending other) : id = other := by
  obtain ⟨r, hr, hle⟩ := h
  obtain ⟨r', hr', hle'⟩ := h'
  exact fst_eq_of_place_eq (le_antisymm (hle _ hr') (hle' _ hr))

/-- The oldest of some jobs is one of them, and no other one has a lesser place. -/
theorem foldl_older (e : String × JobRecord) (es : List (String × JobRecord)) :
    es.foldl older e ∈ e :: es ∧ ∀ x ∈ e :: es, place (es.foldl older e) ≤ place x := by
  induction es generalizing e with
  | nil => simp
  | cons x xs ih =>
    rw [List.foldl_cons]
    obtain ⟨hmem, hle⟩ := ih (older e x)
    -- The older of the first two is one of them and comes before both.
    have hfirst : older e x = e ∨ older e x = x := by
      unfold older
      split
      · exact .inr rfl
      · exact .inl rfl
    have hbefore : place (older e x) ≤ place e ∧ place (older e x) ≤ place x := by
      unfold older
      split
      · rename_i h
        exact ⟨(isOlder_iff.mp h).le, le_rfl⟩
      · rename_i h
        exact ⟨le_rfl, not_lt.mp (mt isOlder_iff.mpr h)⟩
    have hleast := hle _ List.mem_cons_self
    refine ⟨?_, ?_⟩
    · rcases List.mem_cons.mp hmem with hmem | hmem
      · rcases hfirst with heq | heq
        · rw [hmem, heq]
          exact List.mem_cons_self
        · rw [hmem, heq]
          exact List.mem_cons_of_mem _ List.mem_cons_self
      · exact List.mem_cons_of_mem _ (List.mem_cons_of_mem _ hmem)
    · intro y hy
      rcases List.mem_cons.mp hy with rfl | hy
      · exact hleast.trans hbefore.1
      · rcases List.mem_cons.mp hy with rfl | hy
        · exact hleast.trans hbefore.2
        · exact hle y (List.mem_cons_of_mem _ hy)

/-- There is no oldest pending job just if no job is pending. -/
theorem oldestPending?_eq_none_iff : s.oldestPending? = none ↔ s.pending = [] := by
  unfold oldestPending?
  split
  · rename_i h
    exact iff_of_true rfl h
  · rename_i h
    exact iff_of_false nofun (by simp [h])

/-- What is looked up as the oldest pending job is it. -/
theorem oldestPending?_eq_some_iff : s.oldestPending? = some id ↔ s.IsOldestPending id := by
  -- Whatever is looked up is the oldest one, and there is only one such.
  have hsound {other : String} (h : s.oldestPending? = some other) : s.IsOldestPending other := by
    unfold oldestPending? at h
    split at h
    · cases h
    · rename_i e es hpending
      obtain rfl := Option.some.inj h
      obtain ⟨hmem, hle⟩ := foldl_older e es
      rw [← hpending] at hmem hle
      exact ⟨_, hmem, hle⟩
  refine ⟨hsound, fun h => ?_⟩
  cases hfound : s.oldestPending? with
  | none =>
    obtain ⟨r, hr, -⟩ := h
    rw [oldestPending?_eq_none_iff.mp hfound] at hr
    cases hr
  | some other => rw [(hsound hfound).unique h]

/-! ## The queue -/

/-- The pending jobs by their places. -/
def queued (s : Store) : List (String × JobRecord) :=
  s.pending.mergeSort fun a b => place a ≤ place b

/-- The names of the pending jobs, the oldest first. -/
def queue (s : Store) : List String := s.queued.map Prod.fst

/-- The queue has the pending jobs. -/
theorem queued_perm (s : Store) : s.queued.Perm s.pending := List.mergeSort_perm _ _

/-- The queue is in order. -/
theorem pairwise_queued (s : Store) : s.queued.Pairwise fun a b => place a ≤ place b := by
  have h : s.queued.Pairwise fun a b => decide (place a ≤ place b) = true := by
    refine List.pairwise_mergeSort (fun a b c hab hbc => ?_) (fun a b => ?_) s.pending
    · rw [decide_eq_true_eq] at hab hbc ⊢
      exact hab.trans hbc
    · rw [Bool.or_eq_true, decide_eq_true_eq, decide_eq_true_eq]
      exact le_total (place a) (place b)
  exact h.imp of_decide_eq_true

/-- In the queue no job stands twice. -/
theorem nodup_queue (s : Store) : s.queue.Nodup :=
  ((s.queued_perm.map Prod.fst).nodup_iff).mpr s.nodup_pending

/-- A list in order of the pending jobs is the queue. -/
theorem queued_eq_of_perm {es : List (String × JobRecord)} (hperm : es.Perm s.pending)
    (horder : es.Pairwise fun a b => place a ≤ place b) : s.queued = es := by
  refine (s.queued_perm.trans hperm.symm).eq_of_pairwise (fun a b ha hb hab hba => ?_)
    s.pairwise_queued horder
  -- Two pending jobs at one place have one name, and so are one.
  have hname := fst_eq_of_place_eq (le_antisymm hab hba)
  obtain ⟨hfound, -⟩ := mem_pending.mp (s.queued_perm.mem_iff.mp ha)
  obtain ⟨hfound', -⟩ := mem_pending.mp (hperm.mem_iff.mp hb)
  rw [hname, hfound'] at hfound
  exact Prod.ext hname (Option.some.inj hfound).symm

/-- The queue is empty just if no job is pending. -/
theorem queue_eq_nil_iff : s.queue = [] ↔ s.pending = [] := by
  rw [queue, List.map_eq_nil_iff]
  exact ⟨fun h => (h ▸ s.queued_perm).nil_eq.symm, fun h => (h ▸ s.queued_perm).eq_nil⟩

/-- The oldest pending job is the first of the queue. -/
theorem oldestPending?_eq_head? (s : Store) : s.oldestPending? = s.queue.head? := by
  cases hqueue : s.queued with
  | nil =>
    have hnone : s.queue = [] := by rw [queue, hqueue, List.map_nil]
    rw [hnone, oldestPending?_eq_none_iff.mpr (queue_eq_nil_iff.mp hnone), List.head?_nil]
  | cons e es =>
    have hperm := s.queued_perm
    have horder := s.pairwise_queued
    rw [hqueue] at hperm horder
    have holdest : s.IsOldestPending e.1 := by
      refine ⟨e.2, hperm.mem_iff.mp List.mem_cons_self, fun x hx => ?_⟩
      rcases List.mem_cons.mp (hperm.mem_iff.mpr hx) with rfl | hx
      · exact le_rfl
      · exact (List.pairwise_cons.mp horder).1 x hx
    rw [oldestPending?_eq_some_iff.mpr holdest, queue, hqueue]
    rfl

/-- When the first job of the queue is no longer pending, the others are the queue. -/
theorem queue_of_jobs_eq {rest : List String} (h : s.queue = id :: rest)
    (hjobs : s'.jobs = s.jobs.insert id r) (hr : r.status ≠ .pending) : s'.queue = rest := by
  obtain ⟨e, es, hqueue, rfl, rfl⟩ := List.map_eq_cons_iff.mp h
  have hperm := s.queued_perm
  rw [hqueue] at hperm
  obtain ⟨hnew, hnodup⟩ := List.nodup_cons.mp ((hperm.map Prod.fst).nodup_iff.mpr s.nodup_pending)
  refine congrArg (List.map Prod.fst) (queued_eq_of_perm ?_ ?_)
  · refine (List.perm_ext_iff_of_nodup (.of_map _ hnodup) (.of_map _ s'.nodup_pending)).mpr ?_
    intro x
    rw [mem_pending, hjobs, Table.lookup?_insert]
    by_cases hx : x.1 = e.1
    · -- The first job is not among the others, and is not pending any more.
      rw [if_pos hx]
      refine iff_of_false (fun hmem => hnew (List.mem_map.mpr ⟨x, hmem, hx⟩)) fun hfound => hr ?_
      rw [Option.some.inj hfound.1, hfound.2]
    · rw [if_neg hx, ← mem_pending, ← hperm.mem_iff, List.mem_cons]
      exact ⟨.inr, fun hmem => hmem.resolve_left fun heq => hx (congrArg Prod.fst heq)⟩
  · have horder := s.pairwise_queued
    rw [hqueue] at horder
    exact (List.pairwise_cons.mp horder).2

end RepoGraph.Store
