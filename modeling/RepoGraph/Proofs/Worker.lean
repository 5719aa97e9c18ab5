import RepoGraph.Proofs.Analysis.Asked
import RepoGraph.Proofs.Job.Queue
import RepoGraph.Worker

/-!
# How a worker drains the queue

As long as there are pending jobs a worker analyses one each time it looks, the first of the queue
(`poll_of_queue_cons`), and only when there are none it waits (`poll_of_queue_nil`). What it does in
so many looks follows by induction on their number (`loop_drains`): the queue becomes shorter by
its first job with each look, however the analysis of that job ends. It ends with the job completed
or failed, unless the source disowns the job (`Analyser.Disowns`), which is left processing then.
-/

namespace RepoGraph

/-- The question is to let some time pass. -/
def Question.isWait : Question → Bool
  | wait _ => true
  | _ => false

/-- What a worker does to the store, or that it waits. -/
inductive Deed
  /-- It claims a job. -/
  | claims (id : String)
  /-- It makes a job a completed or a failed one. -/
  | ends (id : String)
  /-- It waits, with this queue of pending jobs. -/
  | waits (queue : List String)

/-- The deed that a question is: a `claim`, a `complete` or a `fail` of a job, or a `wait` with the
queue of the store at that moment. -/
def Question.deed? {σ : Type} (W : World σ) (s : σ) : Question → Option Deed
  | transact (.claim id) => some (.claims id)
  | transact (.complete id _) => some (.ends id)
  | transact (.fail id _) => some (.ends id)
  | wait _ => some (.waits (W.store s).queue)
  | _ => none

/-- The deeds of the questions that a program asks, in their order. -/
def World.deeds {σ α : Type} (W : World σ) (p : Activity α) (s : σ) : List Deed :=
  W.gathered (Question.deed? W) p s

/-- `s'` differs from `s` in the record of the job `id`, which has the state `status`, and perhaps
in its artifact. -/
structure Store.Analysed (s s' : Store) (id : String) (status : JobStatus) : Prop where
  /-- The job is in the state. -/
  jobs : ∃ r, s'.jobs = s.jobs.insert id r ∧ r.status = status
  /-- The artifacts of the other jobs are the same. -/
  artifacts : ∀ other, other ≠ id → s'.artifacts.lookup? other = s.artifacts.lookup? other

/-- When the first job of the queue was analysed, the others are the queue. -/
theorem Store.Analysed.queue {s s' : Store} {id : String} {status : JobStatus} {rest : List String}
    (h : s.Analysed s' id status) (hstatus : status ≠ .pending) (hqueue : s.queue = id :: rest) :
    s'.queue = rest := by
  obtain ⟨r, hjobs, hr⟩ := h.jobs
  exact queue_of_jobs_eq hqueue hjobs fun hpending => hstatus (hr.symm.trans hpending)

/-- The deeds that bring a claimed job to a state: it is ended, or left `.processing` without a
deed. -/
def Deed.endOf (id : String) (status : JobStatus) : List Deed :=
  if status = .processing then [] else [.ends id]

variable {σ : Type} (W : World σ) {s t : σ} {id : String} {r : JobRecord}

/-! ## Claiming the oldest job -/

namespace Lifecycle

/-- Claiming a pending job is one deed. -/
theorem deeds_claim (h : (W.store s).jobs.lookup? id = some r) (hpending : r.status = .pending) :
    W.deeds (claim id).run s = [.claims id] := by
  obtain ⟨t, hrun, -⟩ := W.exists_run_transact (.claim id) s
  have hgathered := W.gathered_transact (Question.deed? W) (.claim id) s
  rw [Store.perform_claim h hpending] at hrun hgathered
  unfold World.deeds claim
  rw [W.gathered_bind_of_ok _ hrun, hgathered nofun]
  rfl

/-- The oldest pending job is claimed and looked up. -/
theorem run_claimOldest_some (h : (W.store s).oldestPending? = some id) :
    ∃ job t r, W.run claimOldest.run s = (.ok (some job), t) ∧ job.id = id ∧
      W.store t = { W.store s with jobs := (W.store s).jobs.insert id (JobRecord.claimed r) } ∧
      W.deeds claimOldest.run s = [.claims id] := by
  obtain ⟨r, hr, -⟩ := Store.oldestPending?_eq_some_iff.mp h
  obtain ⟨hr, hpending⟩ := Store.mem_pending.mp hr
  -- The job is looked up, claimed, and looked up again.
  obtain ⟨s₁, holdest, hstore₁⟩ := W.exists_run_transact .oldestPending s
  have hreply : ((W.store s).perform .oldestPending).1 = .ok (some id) := congrArg _ h
  rw [hreply] at holdest
  replace hstore₁ : W.store s₁ = W.store s := hstore₁
  rw [← hstore₁] at hr ⊢
  obtain ⟨s₂, hclaim, hstore₂⟩ := Analyser.run_claim W hr hpending
  obtain ⟨s₃, hfind, hstore₃⟩ := W.exists_run_transact (.find id) s₂
  replace hfind : W.run (find id).run s₂ = (.ok (some { r.claimed with id }), s₃) := by
    rw [find, hfind, Store.perform, hstore₂, Store.job?, Table.lookup?_insert_self]
    rfl
  refine ⟨{ r.claimed with id }, s₃, r, ?_, rfl, hstore₃.trans hstore₂, ?_⟩
  · unfold claimOldest maxClaimAttempts claimOldestWithin
    rw [W.run_bind_eq, holdest]
    simp only
    rw [W.run_bind_eq, hclaim]
    exact hfind
  · have hlooks := W.gathered_transact (Question.deed? W) .oldestPending s (by simp [Store.perform])
    have hclaims := deeds_claim W hr hpending
    have hfinds := W.gathered_transact (Question.deed? W) (.find id) s₂ (by simp [Store.perform])
    unfold claimOldest maxClaimAttempts claimOldestWithin
    unfold World.deeds at *
    rw [W.gathered_bind_of_ok _ holdest, hlooks, W.gathered_bind_of_ok _ hclaim, hclaims,
      if_pos rfl, find, hfinds]
    rfl

/-- Where no job is pending nothing is claimed. -/
theorem run_claimOldest_none (h : (W.store s).oldestPending? = none) :
    ∃ t, W.run claimOldest.run s = (.ok none, t) ∧ W.store t = W.store s ∧
      W.deeds claimOldest.run s = [] := by
  obtain ⟨t, holdest, hstore⟩ := W.exists_run_transact .oldestPending s
  have hreply : ((W.store s).perform .oldestPending).1 = .ok none := congrArg _ h
  have hlooks := W.gathered_transact (Question.deed? W) .oldestPending s (by simp [Store.perform])
  rw [hreply] at holdest
  unfold claimOldest maxClaimAttempts claimOldestWithin World.deeds
  refine ⟨t, ?_, hstore, ?_⟩
  · rw [W.run_bind_eq, holdest]
    rfl
  · rw [W.gathered_bind_of_ok _ holdest, hlooks]
    rfl

end Lifecycle

/-! ## Analysing a claimed job -/

namespace Analyser

variable (a : Analyser)

/-- What is asked to prepare an artifact is no deed. -/
theorem deed?_of_isPreparing (s : σ) (q : Question) (hq : IsPreparing (·.isWait = false) id q) :
    q.deed? W s = none := by
  rcases hq with rfl | ⟨e, rfl⟩ | ⟨x, rfl⟩ | ⟨houtside, hwait⟩
  · rfl
  · rfl
  · rfl
  · cases q with
    | transact => cases houtside
    | wait => cases hwait
    | _ => rfl

/-- Copying an artifact is no deed. -/
theorem deeds_copy (artifact : Artifact) (s : σ) : W.deeds (a.copy id artifact) s = [] := by
  unfold World.deeds
  rw [gathered_copy W a fun _ _ => rfl]
  exact List.flatMap_eq_nil_iff.mpr fun _ _ => rfl

/-- For the job `id` the source fails in some state of the world (`FailsToFetch`) with a failure
that has `disownsJob`. -/
def Disowns (id : String) : Prop :=
  ∃ job t st f, job.id = id ∧ FailsToFetch W a job t st f ∧ f.disownsJob = true

/-- A source that spares jobs disowns none. -/
theorem not_disowns {W : World σ} {a : Analyser} (ha : a.source.SparesJobs) : ¬Disowns W a id := by
  rintro ⟨job, t, st, f, -, hfails, hdisowns⟩
  rw [hfails.disownsJob_eq_false ha] at hdisowns
  cases hdisowns

/-- The state is a terminal one, or it is `.processing` and the source `Disowns` the job. -/
def EndsOrDisowns (id : String) (status : JobStatus) : Prop :=
  status.isTerminal = true ∨ status = .processing ∧ Disowns W a id

/-- The analysis of a claimed job ends it, which is one deed, unless the source disowns the job. All
else is left in the store. -/
theorem analysed_runClaimed (ha : a.source.Asks (·.isWait = false))
    (hr : (W.store s).jobs.lookup? id = some r) (hprocessing : r.status = .processing) :
    ∃ status, (W.store s).Analysed (W.store (W.run (a.runClaimed id) s).2) id status ∧
      EndsOrDisowns W a id status ∧ W.deeds (a.runClaimed id) s = Deed.endOf id status := by
  cases hprepare : W.run (a.prepare id).run s with
  | mk result t =>
    cases result with
    | error halt =>
      have hprocess := run_process_of_error W a hprepare
      obtain ⟨u, hload, hstore, hcause⟩ := run_process_error W a hr hprocessing hprocess
      cases hdisowns : halt.cause.disownsJob with
      | false =>
        obtain ⟨v, hrun, hstore'⟩ := run_runClaimed_error W a hprocess hdisowns (hstore ▸ hr)
        obtain ⟨v', hdeeds⟩ :=
          gathered_runClaimed_of_error W a ha (deed?_of_isPreparing W) hr hprepare hdisowns
        rw [hrun, hstore', hstore]
        exact ⟨.failed, ⟨⟨_, rfl, rfl⟩, fun _ _ => rfl⟩, .inl rfl, hdeeds⟩
      | true =>
        have hfails := hcause.resolve_right fun hspares => nomatch hspares.symm.trans hdisowns
        obtain ⟨v, hrun, hstore'⟩ := run_runClaimed_disowned W a hprocess hdisowns
        have hdeeds :=
          gathered_runClaimed_of_disowned W a ha (deed?_of_isPreparing W) hprepare hdisowns
        rw [hrun, hstore', hstore]
        -- The record of the job is the one that was there.
        refine ⟨.processing, ⟨⟨r, ?_, hprocessing⟩, fun _ _ => rfl⟩,
          .inr ⟨rfl, _, u, halt.stage, halt.cause, rfl, hfails, hdisowns⟩, hdeeds⟩
        exact (Table.insert_eq_self hr).symm
    | ok p =>
      obtain ⟨r, u, -, -, hcomplete, hstore, -⟩ := exists_run_complete W a hprepare
      obtain ⟨v, hrun, hstore'⟩ := run_runClaimed_ok W a (run_process_of_ok W a hprepare hcomplete)
      have hcopy := (W.run_within (a.within_copy id p.artifact) u).2
      obtain ⟨v', hdeeds⟩ :=
        gathered_runClaimed_of_ok W a ha (deed?_of_isPreparing W) hprepare hcomplete
      replace hdeeds : W.deeds (a.runClaimed id) s =
        [.ends id] ++ W.deeds (a.copy id p.artifact) u := hdeeds
      rw [deeds_copy] at hdeeds
      rw [hrun, hstore', hcopy, hstore]
      exact ⟨.completed, ⟨⟨_, rfl, rfl⟩, fun _ hother => Table.lookup?_insert_of_ne _ _ hother⟩,
        .inl rfl, hdeeds⟩

variable {W} {a} in
/-- A job that was analysed is not pending. -/
theorem EndsOrDisowns.ne_pending {status : JobStatus} (h : EndsOrDisowns W a id status) :
    status ≠ .pending := by
  rintro rfl
  rcases h with hterminal | ⟨hprocessing, -⟩
  · cases hterminal
  · cases hprocessing

end Analyser

/-! ## Looking for a job -/

namespace Worker

variable (w : Worker)

/-- With a queue the first job is claimed and analysed, and all else in the store is left. -/
theorem runOnce_of_queue_cons (hsource : w.analyser.source.Asks (·.isWait = false))
    {rest : List String} (h : (W.store s).queue = id :: rest) :
    ∃ outcome t status, W.run w.runOnce.run s = (.ok (some outcome), t) ∧
      (W.store s).Analysed (W.store t) id status ∧ w.analyser.EndsOrDisowns W id status ∧
      W.deeds w.runOnce.run s = .claims id :: Deed.endOf id status := by
  have holdest : (W.store s).oldestPending? = some id := by
    rw [Store.oldestPending?_eq_head?, h, List.head?_cons]
  obtain ⟨job, s₁, r, hclaim, rfl, hstore₁, hclaims⟩ := Lifecycle.run_claimOldest_some W holdest
  -- What is logged of the job leaves the store alone.
  obtain ⟨s₂, hlog, hstore₂⟩ : ∃ s₂, W.run (Action.log .info .worker "worker_processing"
      [("job_id", .str job.id), ("repo", .str job.repository.fullName)]).run s₁ = (.ok (), s₂) ∧
      W.store s₂ = W.store s₁ := ⟨_, rfl, W.store_run_log ..⟩
  have hprocessing : (W.store s₂).jobs.lookup? job.id = some r.claimed := by
    rw [hstore₂, hstore₁]
    exact Table.lookup?_insert_self ..
  obtain ⟨status, ⟨⟨r', hjobs, hr'⟩, hartifacts⟩, hstatus, hends⟩ :=
    Analyser.analysed_runClaimed W w.analyser hsource hprocessing rfl
  rw [hstore₂, hstore₁] at hjobs hartifacts
  refine ⟨(W.run (w.analyser.runClaimed job.id) s₂).1, (W.run (w.analyser.runClaimed job.id) s₂).2,
    status, ?_, ⟨⟨r', ?_, hr'⟩, hartifacts⟩, hstatus, ?_⟩
  · unfold runOnce
    rw [W.run_bind_eq, hclaim]
    simp only
    rw [W.run_bind_eq, hlog]
    simp only
    rw [W.run_bind_eq, W.run_always]
    rfl
  · rw [hjobs]
    exact Table.insert_insert ..
  · unfold World.deeds runOnce at *
    rw [W.gathered_bind_of_ok _ hclaim, hclaims, W.gathered_bind_of_ok _ hlog,
      W.gathered_bind_of_ok _ (W.run_always ..), W.gathered_always, hends]
    -- Neither the event nor the outcome is a deed.
    exact congrArg (Deed.claims job.id :: ·) (List.append_nil _)

/-- `poll` with a queue analyses the first job of it. -/
theorem poll_of_queue_cons (hsource : w.analyser.source.Asks (·.isWait = false))
    {rest : List String} (h : (W.store s).queue = id :: rest) :
    ∃ t status, W.run w.poll s = (true, t) ∧ (W.store s).Analysed (W.store t) id status ∧
      w.analyser.EndsOrDisowns W id status ∧
      W.deeds w.poll s = .claims id :: Deed.endOf id status := by
  obtain ⟨outcome, t, status, hrun, hanalysed, hstatus, hdeeds⟩ :=
    runOnce_of_queue_cons W w hsource h
  refine ⟨t, status, ?_, hanalysed, hstatus, ?_⟩
  · unfold poll
    rw [W.run_bind, hrun]
    rfl
  · unfold World.deeds poll at *
    rw [W.gathered_bind, hdeeds, hrun]
    exact List.append_nil _

/-- `poll` without a queue leaves the store alone, and is no deed. -/
theorem poll_of_queue_nil (h : (W.store s).queue = []) :
    ∃ t, W.run w.poll s = (false, t) ∧ W.store t = W.store s ∧ W.deeds w.poll s = [] := by
  have holdest : (W.store s).oldestPending? = none := by
    rw [Store.oldestPending?_eq_head?, h, List.head?_nil]
  obtain ⟨t, hclaim, hstore, hclaims⟩ := Lifecycle.run_claimOldest_none W holdest
  have hrun : W.run w.runOnce.run s = (.ok none, t) := by
    unfold runOnce
    rw [W.run_bind_eq, hclaim]
    rfl
  refine ⟨t, ?_, hstore, ?_⟩
  · unfold poll
    rw [W.run_bind, hrun]
    rfl
  · unfold World.deeds poll runOnce at *
    rw [W.gathered_bind, W.gathered_bind_of_ok _ hclaim, hclaims, hrun]
    rfl

/-! ## Looking for jobs again and again -/

/-- Where no stop is requested and a job was analysed, the loop goes on at once. -/
theorem loop_of_poll (limit analysed : Nat) (hstop : (W.answer .stopRequested s).1 = false)
    (hpoll : W.run w.poll (W.answer .stopRequested s).2 = (true, t)) :
    W.run (w.loop (limit + 1) analysed) s = W.run (w.loop limit (analysed + 1)) t ∧
      W.deeds (w.loop (limit + 1) analysed) s =
        W.deeds w.poll (W.answer .stopRequested s).2 ++
          W.deeds (w.loop limit (analysed + 1)) t := by
  constructor
  · rw [loop, W.run_bind, W.run_query, hstop]
    simp only [Bool.false_eq_true, if_false]
    rw [W.run_bind, hpoll]
    rfl
  · unfold World.deeds
    rw [loop, W.gathered_bind, W.run_query, hstop]
    simp only [Bool.false_eq_true, if_false]
    rw [W.gathered_bind, hpoll]
    rfl

/-- Where no stop is requested and there was no job, the loop waits and then goes on. -/
theorem loop_of_idle (limit analysed : Nat) (hstop : (W.answer .stopRequested s).1 = false)
    (hwait : (W.answer (.wait w.pollInterval) t).1 = .ready)
    (hpoll : W.run w.poll (W.answer .stopRequested s).2 = (false, t)) :
    W.run (w.loop (limit + 1) analysed) s =
        W.run (w.loop limit analysed) (W.answer (.wait w.pollInterval) t).2 ∧
      W.deeds (w.loop (limit + 1) analysed) s =
        W.deeds w.poll (W.answer .stopRequested s).2 ++ .waits (W.store t).queue ::
          W.deeds (w.loop limit analysed) (W.answer (.wait w.pollInterval) t).2 := by
  constructor
  · rw [loop, W.run_bind, W.run_query, hstop]
    simp only [Bool.false_eq_true, if_false]
    rw [W.run_bind, hpoll]
    simp only [Bool.false_eq_true, if_false]
    rw [W.run_bind, W.run_query, hwait]
  · unfold World.deeds
    rw [loop, W.gathered_bind, W.run_query, hstop]
    simp only [Bool.false_eq_true, if_false]
    rw [W.gathered_bind, hpoll]
    simp only [Bool.false_eq_true, if_false]
    rw [W.gathered_bind, W.run_query, hwait]
    rfl

end Worker

/-! ## Draining the queue -/

/-- So many looks for a job take a store to another one by these deeds: the first jobs of the queue
are claimed and end one after another, but for those that are disowned, and what looks are left are
waits with an empty queue. -/
structure Drains (disowned : String → Prop) (looks : Nat) (s s' : Store) (deeds : List Deed) :
    Prop where
  /-- The deeds are these. -/
  deeds : deeds = (s.queue.take looks).flatMap (fun id => .claims id ::
      if s'.status? id = some .processing then [] else [.ends id]) ++
    List.replicate (looks - min looks s.queue.length) (.waits [])
  /-- The first jobs of the queue have ended, or they were disowned and are still processing. -/
  ended : ∀ id ∈ s.queue.take looks,
    s'.status? id = some .completed ∨ s'.status? id = some .failed ∨
      s'.status? id = some .processing ∧ disowned id
  /-- The other jobs and their artifacts are as they were. -/
  others : ∀ id, id ∉ s.queue.take looks → s'.jobs.lookup? id = s.jobs.lookup? id ∧
    s'.artifacts.lookup? id = s.artifacts.lookup? id

namespace Drains

variable {disowned : String → Prop} {s s₁ s' : Store} {looks : Nat} {deeds : List Deed}

/-- Without a look nothing is done. -/
theorem none (s : Store) : Drains disowned 0 s s [] where
  deeds := by simp
  ended := by simp
  others := fun _ _ => ⟨rfl, rfl⟩

/-- A look with a queue analyses its first job, so that those behind it come next. -/
theorem job {rest : List String} {status : JobStatus} (h : s.queue = id :: rest)
    (hanalysed : s.Analysed s₁ id status)
    (hstatus : status.isTerminal = true ∨ status = .processing ∧ disowned id)
    (hne : status ≠ .pending) (hrest : Drains disowned looks s₁ s' deeds) :
    Drains disowned (looks + 1) s s' (.claims id :: (Deed.endOf id status ++ deeds)) := by
  have hqueue := hanalysed.queue hne h
  obtain ⟨⟨r, hjobs, rfl⟩, hartifacts⟩ := hanalysed
  obtain ⟨hdeeds, hends, hothers⟩ := hrest
  rw [hqueue] at hdeeds hends hothers
  have hnew : id ∉ rest := (List.nodup_cons.mp (h ▸ s.nodup_queue)).1
  -- The first job stays in its state, as it is not in the queue any more.
  have hfirst : s'.status? id = some r.status := by
    obtain ⟨hjob, -⟩ := hothers id fun hmem => hnew (List.mem_of_mem_take hmem)
    rw [hjobs, Table.lookup?_insert_self] at hjob
    exact Store.status?_eq_some hjob
  constructor
  · rw [hdeeds, h]
    simp [hfirst, Deed.endOf]
  · intro other hother
    rw [h, List.take_succ_cons, List.mem_cons] at hother
    rcases hother with rfl | hother
    · rw [hfirst]
      rcases hstatus with hterminal | ⟨hprocessing, hdisowned⟩
      · cases hr : r.status with
        | completed => exact .inl rfl
        | failed => exact .inr (.inl rfl)
        | pending | processing => simp [hr, JobStatus.isTerminal] at hterminal
      · exact .inr (.inr ⟨congrArg some hprocessing, hdisowned⟩)
    · exact hends other hother
  · intro other hother
    rw [h, List.take_succ_cons, List.mem_cons, not_or] at hother
    obtain ⟨hjob, hartifact⟩ := hothers other hother.2
    rw [hjobs, Table.lookup?_insert_of_ne _ _ hother.1] at hjob
    exact ⟨hjob, hartifact.trans (hartifacts other hother.1)⟩

/-- A look without a queue is a wait. -/
theorem wait (h : s.queue = []) (hrest : Drains disowned looks s s' deeds) :
    Drains disowned (looks + 1) s s' (.waits [] :: deeds) := by
  obtain ⟨hdeeds, hends, hothers⟩ := hrest
  rw [h] at hdeeds hends hothers
  constructor
  · rw [hdeeds, h]
    simp [List.replicate_succ]
  · simp [h]
  · simpa [h] using hothers

end Drains

/-- A world whose state is its store, in which nothing outside is reached and no stop requested. -/
def World.patient : World Store where
  answer q s :=
    match q with
    | .stopRequested => (false, s)
    | q => isolated.answer q s
  store s := s
  reply_transact _ _ := rfl
  store_transact _ _ := rfl
  store_outside q s h := by
    cases q with
    | transact t => cases h
    | _ => rfl
  dumps := Artifact.dumped
  reply_dump _ _ := rfl

/-- Nobody requests a stop, and no wait is interrupted. -/
structure World.GoesOn (W : World σ) : Prop where
  /-- No stop is requested. -/
  stop : ∀ s, (W.answer .stopRequested s).1 = false
  /-- A wait is not interrupted. -/
  wait : ∀ seconds s, (W.answer (.wait seconds) s).1 = .ready

namespace Worker

variable (w : Worker)

/-- From any point of the loop, the looks that are left drain the queue, and the jobs that they
analyse are counted. -/
theorem loop_drains (hW : W.GoesOn) (hsource : w.analyser.source.Asks (·.isWait = false))
    (looks analysed : Nat) (s : σ) :
    (W.run (w.loop looks analysed) s).1 = some (analysed + min looks (W.store s).queue.length) ∧
      Drains (w.analyser.Disowns W) looks (W.store s)
        (W.store (W.run (w.loop looks analysed) s).2) (W.deeds (w.loop looks analysed) s) := by
  induction looks generalizing analysed s with
  | zero =>
    refine ⟨?_, .none _⟩
    rw [loop, W.run_pure]
    simp
  | succ looks ih =>
    have hstop := hW.stop s
    have hstore : W.store (W.answer .stopRequested s).2 = W.store s := W.store_outside _ s rfl
    cases hqueue : (W.store s).queue with
    | nil =>
      obtain ⟨t, hpoll, hstore₁, hdeeds₁⟩ := poll_of_queue_nil W w (by rw [hstore, hqueue])
      have hwait := hW.wait w.pollInterval t
      have hstore₂ : W.store (W.answer (.wait w.pollInterval) t).2 = W.store s :=
        ((W.store_outside _ t rfl).trans hstore₁).trans hstore
      obtain ⟨hrun, hdeeds⟩ := loop_of_idle W w looks analysed hstop hwait hpoll
      obtain ⟨hcount, hdrains⟩ := ih analysed (W.answer (.wait w.pollInterval) t).2
      rw [hrun, hdeeds, hdeeds₁, hstore₁, hstore, hqueue]
      rw [hstore₂] at hcount hdrains
      exact ⟨by simp [hcount, hqueue], .wait hqueue hdrains⟩
    | cons id rest =>
      obtain ⟨t, status, hpoll, hanalysed, hstatus, hdeeds₁⟩ :=
        poll_of_queue_cons W w hsource (by rw [hstore, hqueue])
      obtain ⟨hrun, hdeeds⟩ := loop_of_poll W w looks analysed hstop hpoll
      obtain ⟨hcount, hdrains⟩ := ih (analysed + 1) t
      rw [hstore] at hanalysed
      rw [hrun, hdeeds, hdeeds₁]
      refine ⟨?_, .job hqueue hanalysed hstatus hstatus.ne_pending hdrains⟩
      rw [hcount, hanalysed.queue hstatus.ne_pending hqueue, List.length_cons]
      congr 1
      omega

/-- In a world that `GoesOn`, `Worker.run` with so many looks yields how many jobs of the queue it
took, and `Drains` the queue: the first jobs are claimed once each, in the order of the queue, and
end completed or failed, but for those that the source `Disowns`, which are left processing. What
looks are left are waits with no job pending, and all other jobs and artifacts are as they were. A
source with `SparesJobs` disowns none, so that every one of them ends. The source may ask anything
but `wait`, as a wait of its own would be one more deed. -/
theorem run_drains (hW : W.GoesOn) (hsource : w.analyser.source.Asks (·.isWait = false))
    (looks : Nat) (s : σ) :
    (W.run (w.run looks) s).1 = some (min looks (W.store s).queue.length) ∧
      Drains (w.analyser.Disowns W) looks (W.store s) (W.store (W.run (w.run looks) s).2)
        (W.deeds (w.run looks) s) ∧
      (w.analyser.source.SparesJobs → ∀ id ∈ (W.store s).queue.take looks,
        (W.store (W.run (w.run looks) s).2).status? id = some .completed ∨
          (W.store (W.run (w.run looks) s).2).status? id = some .failed) := by
  -- What is logged before the loop and after it is no deed, and leaves the store alone.
  obtain ⟨s₁, hlog, hstore₁⟩ : ∃ s₁, W.run (Activity.log .info .worker "worker_started"
      [("poll_interval_seconds", .float w.pollInterval)]) s = ((), s₁) ∧
      W.store s₁ = W.store s := ⟨_, rfl, W.store_run_log ..⟩
  obtain ⟨hcount, hdrains⟩ := loop_drains W w hW hsource looks 0 s₁
  rw [Nat.zero_add] at hcount
  rw [hstore₁] at hcount hdrains
  have hrun : W.run (w.run looks) s = (some (min looks (W.store s).queue.length),
      (W.run (Activity.log .info .worker "worker_stopped"
        [("processed", .int ↑(min looks (W.store s).queue.length))])
        (W.run (w.loop looks 0) s₁).2).2) := by
    unfold run
    rw [W.run_bind, hlog, W.run_bind, hcount]
    rfl
  have hdeeds : W.deeds (w.run looks) s = W.deeds (w.loop looks 0) s₁ := by
    unfold run World.deeds
    rw [W.gathered_bind, W.gathered_log _ fun _ _ => rfl, hlog, W.gathered_bind, hcount]
    exact List.append_nil _
  rw [hrun, hdeeds, W.store_run_log]
  refine ⟨rfl, hdrains, fun hspares id hid => ?_⟩
  rcases hdrains.ended id hid with hcompleted | hfailed | ⟨-, hdisowned⟩
  · exact .inl hcompleted
  · exact .inr hfailed
  · exact absurd hdisowned (Analyser.not_disowns hspares)

/-- A worker that looks three times analyses two jobs, of which it cannot fetch the files, and both
end. -/
theorem run_drains_patient :
    let record : JobRecord :=
      { repository := ⟨"octo", "demo"⟩
        url := "https://github.com/octo/demo"
        createdAt := ⟨0, true⟩ }
    let s := ((Store.empty.perform (.insert "2" record)).2.perform (.insert "1" record)).2
    let w : Worker := ⟨⟨GitHub.source {}, none, 200, 8⟩, 1⟩
    let later := (World.patient.run (w.run 3) s).2
    (World.patient.GoesOn ∧ w.analyser.source.Asks (·.isWait = false) ∧
        w.analyser.source.SparesJobs) ∧
      (World.patient.run (w.run 3) s).1 = some 2 ∧
      Drains (w.analyser.Disowns .patient) 3 s later (World.patient.deeds (w.run 3) s) ∧
      ∀ id ∈ s.queue.take 3,
        later.status? id = some .completed ∨ later.status? id = some .failed := by
  intro record s w later
  have hgoes : World.patient.GoesOn := ⟨fun _ => rfl, fun _ _ => rfl⟩
  have hsource : w.analyser.source.Asks (·.isWait = false) :=
    (GitHub.asks_source {}).mono fun q hq => by cases q <;> first | rfl | cases hq
  have hspares : w.analyser.source.SparesJobs := GitHub.sparesJobs_source {}
  have hlength : s.queue.length = 2 := by
    rw [Store.queue, List.length_map, s.queued_perm.length_eq]
    rfl
  have hstore (s : Store) : World.patient.store s = s := rfl
  obtain ⟨hcount, hdrains, hended⟩ := run_drains .patient w hgoes hsource 3 s
  rw [hstore, hlength] at hcount
  rw [hstore, hstore] at hdrains
  rw [hstore, hstore] at hended
  exact ⟨⟨hgoes, hsource, hspares⟩, hcount, hdrains, hended hspares⟩

/-- A worker counts a job as analysed that ends neither completed nor failed: its source fails with
the failure of a job that is not there. -/
theorem run_drains_leaving_disowned_job :
    let record : JobRecord :=
      { repository := ⟨"octo", "demo"⟩
        url := "https://github.com/octo/demo"
        createdAt := ⟨0, true⟩ }
    let s := (Store.empty.perform (.insert "1" record)).2
    let w : Worker := ⟨⟨.failing (.jobMissing "octo/demo"), none, 200, 8⟩, 1⟩
    World.patient.GoesOn ∧ s.Reachable ∧ s.status? "1" = some .pending ∧
      (World.patient.run (w.run 1) s).1 = some 1 ∧
      (World.patient.run (w.run 1) s).2.status? "1" = some .processing := by
  intro record s w
  have hgoes : World.patient.GoesOn := ⟨fun _ => rfl, fun _ _ => rfl⟩
  have hcount : (World.patient.run (w.run 1) s).1 = some 1 := by decide +kernel
  have hstatus : (World.patient.run (w.run 1) s).2.status? "1" = some .processing := by
    decide +kernel
  exact ⟨hgoes, .perform _ _ .empty, rfl, hcount, hstatus⟩

end Worker

end RepoGraph
