import RepoGraph.Proofs.Analysis.Stages
import RepoGraph.Proofs.Job.Completion

/-!
# How the analysis of a pending job ends

In a world that keeps its store, an analysis that takes a pending job leaves it completed or failed
and says so, whatever its source tells, unless the source fails as the loading of a job does
(`run_of_pending`): there is the artifact of just the files that were fetched, or there is none and
the words of the failure are recorded. A source that fails in that way (`Failure.disownsJob`) leaves
the job processing, although nobody goes on with it. All other jobs stay as they are. The first
failure of a stage, up to storing the artifact, comes before anything was stored
(`run_process_error`).
-/

namespace RepoGraph.Analyser

variable {σ α : Type} (W : World σ) (a : Analyser) {s s' : σ} {id : String} {r : JobRecord}

/-! ## Stages in a world -/

/-- A stage runs its action, and notes where a failure happened. -/
theorem run_stage (st : Stage) (x : Action α) (s : σ) :
    W.run (stage st x).run s = ((W.run x.run s).1.mapError (Halt.mk st), (W.run x.run s).2) := by
  unfold stage
  rw [ExceptT.run_mk, W.run_bind, W.run_pure]

/-- A stage succeeds as its action does. -/
theorem run_stage_ok_iff {st : Stage} {x : Action α} {v : α} :
    W.run (stage st x).run s = (.ok v, s') ↔ W.run x.run s = (.ok v, s') := by
  rw [run_stage]
  obtain ⟨res, t⟩ := W.run x.run s
  cases res with
  | ok v' => simp [Except.mapError]
  | error f => simp [Except.mapError]

/-- A stage fails as its action does. -/
theorem run_stage_error_iff {st : Stage} {x : Action α} {halt : Halt} :
    W.run (stage st x).run s = (.error halt, s') ↔
      ∃ f, halt = ⟨st, f⟩ ∧ W.run x.run s = (.error f, s') := by
  rw [run_stage]
  obtain ⟨res, t⟩ := W.run x.run s
  cases res with
  | ok v' => simp [Except.mapError]
  | error f =>
    simp only [Except.mapError, Prod.mk.injEq, Except.error.injEq]
    constructor
    · rintro ⟨rfl, rfl⟩
      exact ⟨f, rfl, rfl, rfl⟩
    · rintro ⟨f', rfl, rfl, rfl⟩
      exact ⟨rfl, rfl⟩

/-- A pending job is claimed. -/
theorem run_claim (h : (W.store s).jobs.lookup? id = some r) (hpending : r.status = .pending) :
    ∃ s', W.run (Lifecycle.claim id).run s = (.ok true, s') ∧
      W.store s' = { W.store s with jobs := (W.store s).jobs.insert id r.claimed } := by
  -- The transaction, and what is logged after it.
  obtain ⟨t, hrun, hstore⟩ := W.exists_run_transact (.claim id) s
  rw [Store.perform_claim h hpending] at hrun hstore
  unfold Lifecycle.claim
  rw [W.run_bind_eq, hrun]
  refine ⟨(W.run (Action.log .info .store "job_claimed" [("job_id", .str id)]).run t).2, rfl, ?_⟩
  exact (W.store_run_log .. ).trans hstore

/-- A processing job is loaded. -/
theorem run_load (h : (W.store s).jobs.lookup? id = some r) (hprocessing : r.status = .processing) :
    ∃ s', W.run (load id).run s = (.ok { r with id }, s') ∧ W.store s' = W.store s := by
  obtain ⟨t, hrun, hstore⟩ := W.exists_run_transact (.find id) s
  refine ⟨t, ?_, hstore⟩
  -- Looking up does not change the store, and finds the record under its name.
  have hfound : ((W.store s).perform (.find id)).1 = .ok (some { r with id }) := by
    rw [Store.perform, Store.job?, h]
    rfl
  unfold load Lifecycle.find
  rw [W.run_bind_eq, hrun, hfound]
  simp [hprocessing]

/-- The graph that is built is that of the files, and can be serialized. -/
theorem run_build_ok {files : List FileRecord} {artifact : Artifact}
    (h : W.run (build files).run s = (.ok artifact, s')) :
    artifact = Artifact.ofFiles files ∧ W.Serializes artifact := by
  unfold build at h
  obtain ⟨text, t, hserialize, h⟩ := W.run_bind_ok_iff.mp h
  obtain ⟨hartifact, -⟩ := Prod.mk.inj h
  obtain rfl := Except.ok.inj hartifact
  exact ⟨rfl, (W.run_serialize_ok_iff.mp hserialize).1⟩

/-- An artifact that can be serialized is stored for a job that is there. -/
theorem run_persist (h : (W.store s).jobs.lookup? id = some r) {artifact : Artifact}
    (hartifact : W.Serializes artifact) :
    ∃ uri s', W.run (a.persist id artifact).run s = (.ok uri, s') ∧
      W.store s' = ⟨(W.store s).jobs.insert id r.completed,
        (W.store s).artifacts.insert id ⟨artifact.toJson, artifact.digest⟩⟩ := by
  obtain ⟨t, hrun, hstore⟩ := Lifecycle.exists_run_complete W hartifact id s
  rw [Store.perform_complete h] at hrun hstore
  have hcopy := W.run_within (a.within_copy id artifact) t
  refine ⟨(W.run (a.copy id artifact) t).1, (W.run (a.copy id artifact) t).2, ?_,
    hcopy.2.trans hstore⟩
  unfold persist
  rw [W.run_bind_eq, hrun]
  exact W.run_always ..

/-- A failure is recorded of a job that is there. -/
theorem run_recordFailure (h : (W.store s).jobs.lookup? id = some r) (st : Stage)
    (message : String) :
    ∃ s', W.run (recordFailure id st message) s = (true, s') ∧
      W.store s' =
        { W.store s with jobs := (W.store s).jobs.insert id (r.failed message) } := by
  obtain ⟨t, hrun, hstore⟩ := W.exists_run_transact (.fail id message) s
  rw [Store.perform_fail h] at hrun hstore
  refine ⟨t, ?_, hstore⟩
  unfold recordFailure Lifecycle.fail
  rw [W.run_bind, hrun]
  rfl

/-- A failure that is not about the job makes it a failed one, in the words of the failure. -/
theorem run_halted {halt : Halt} (hcause : halt.cause.disownsJob = false)
    (h : (W.store s).jobs.lookup? id = some r) :
    ∃ s', W.run (halted id halt) s =
        (.failed halt.stage (haltMessage halt.cause) true, s') ∧
      W.store s' = { W.store s with
        jobs := (W.store s).jobs.insert id (r.failed (haltMessage halt.cause)) } := by
  -- What is logged first leaves the store alone.
  have hlog : W.store (W.run (Activity.log .error .analysis "job_failed" [("job_id", .str id),
      ("stage", .str halt.stage.name), ("error", .str (haltMessage halt.cause))]) s).2 =
        W.store s := W.store_run_log ..
  generalize hlogged : (W.run (Activity.log .error .analysis "job_failed" [("job_id", .str id),
      ("stage", .str halt.stage.name), ("error", .str (haltMessage halt.cause))]) s).2 = t at hlog
  rw [← hlog] at h ⊢
  obtain ⟨s', hrun, hstore⟩ := run_recordFailure W h halt.stage (haltMessage halt.cause)
  refine ⟨s', ?_, hstore⟩
  unfold halted
  simp only [hcause, Bool.false_eq_true, if_false]
  rw [W.run_bind, hlogged, W.run_bind, hrun]
  rfl

/-- A failure that disowns the job is logged, and nothing is written about the job. -/
theorem run_halted_of_disowns {halt : Halt} (hcause : halt.cause.disownsJob = true) (id : String)
    (s : σ) :
    ∃ s', W.run (halted id halt) s =
        (.notProcessable halt.stage (haltMessage halt.cause), s') ∧ W.store s' = W.store s := by
  refine ⟨(W.run (Activity.log .warning .analysis "job_not_processable" [("job_id", .str id),
    ("error", .str (haltMessage halt.cause))]) s).2, ?_, W.store_run_log ..⟩
  unfold halted
  simp only [hcause, if_true]
  rw [W.run_bind, W.run_pure]

/-! ## The stages one after another -/

/-- The source tells about the repository of a job, lists its files, and fetches the texts of those
that belong to the snapshot; `outcomes` is what came of that. -/
def Fetches (job : Job) (s : σ) (outcomes : List FetchOutcome) (s' : σ) : Prop :=
  ∃ info listed s₁ s₂ s₃,
    let selected := Path.select TreeEntry.path a.maxFiles listed
    W.run (a.source.describe job.repository).run s = (.ok info, s₁) ∧
      W.run (a.source.list job.repository info.branch).run s₁ = (.ok listed, s₂) ∧
      W.run (logListed job info listed selected).run s₂ = (.ok (), s₃) ∧
      W.run (a.source.contents job.repository selected a.fetchConcurrency).run s₃ =
        (.ok outcomes, s')

/-- The source fails to tell about the repository of a job, to list its files, or to fetch the texts
of those that belong to the snapshot, after what it was asked before succeeded. -/
inductive FailsToFetch (job : Job) (s : σ) : Stage → Failure → Prop
  /-- The repository is not described. -/
  | describe {f s₁} (hdescribe : W.run (a.source.describe job.repository).run s = (.error f, s₁)) :
    FailsToFetch job s .fetchRepository f
  /-- Its files are not listed. -/
  | list {info f s₁ s₂}
    (hdescribe : W.run (a.source.describe job.repository).run s = (.ok info, s₁))
    (hlist : W.run (a.source.list job.repository info.branch).run s₁ = (.error f, s₂)) :
    FailsToFetch job s .fetchRepository f
  /-- The texts are not fetched. -/
  | contents {info listed f s₁ s₂ s₃ s₄}
    (hdescribe : W.run (a.source.describe job.repository).run s = (.ok info, s₁))
    (hlist : W.run (a.source.list job.repository info.branch).run s₁ = (.ok listed, s₂))
    (hlog : W.run (logListed job info listed
      (Path.select TreeEntry.path a.maxFiles listed)).run s₂ = (.ok (), s₃))
    (hcontents : W.run (a.source.contents job.repository
      (Path.select TreeEntry.path a.maxFiles listed) a.fetchConcurrency).run s₃ = (.error f, s₄)) :
    FailsToFetch job s .fetchContents f

/-- Where files were listed, the source told about the repository and listed the files, and those
that belong to the snapshot were selected. -/
theorem run_list_ok_iff {job : Job} {info : RepositoryInfo} {entries : List TreeEntry} :
    W.run (a.list job).run s = (.ok (info, entries), s') ↔
      ∃ listed s₁ s₂, W.run (a.source.describe job.repository).run s = (.ok info, s₁) ∧
        W.run (a.source.list job.repository info.branch).run s₁ = (.ok listed, s₂) ∧
        entries = Path.select TreeEntry.path a.maxFiles listed ∧
        W.run (logListed job info listed entries).run s₂ = (.ok (), s') := by
  unfold list
  constructor
  · intro h
    obtain ⟨info', s₁, hdescribe, h⟩ := W.run_bind_ok_iff.mp h
    obtain ⟨listed, s₂, hlist, h⟩ := W.run_bind_ok_iff.mp h
    obtain ⟨_, s₃, hlog, h⟩ := W.run_bind_ok_iff.mp h
    obtain ⟨hvalue, rfl⟩ := Prod.mk.inj h
    obtain ⟨rfl, rfl⟩ := Prod.mk.inj (Except.ok.inj hvalue)
    exact ⟨listed, s₁, s₂, hdescribe, hlist, rfl, hlog⟩
  · rintro ⟨listed, s₁, s₂, hdescribe, hlist, rfl, hlog⟩
    exact W.run_bind_ok_iff.mpr ⟨_, _, hdescribe, W.run_bind_ok_iff.mpr ⟨_, _, hlist,
      W.run_bind_ok_iff.mpr ⟨_, _, hlog, rfl⟩⟩⟩

/-- Files are not listed exactly where the source does not tell about the repository or does not
list the files. -/
theorem run_list_error_iff {job : Job} {f : Failure} :
    W.run (a.list job).run s = (.error f, s') ↔
      W.run (a.source.describe job.repository).run s = (.error f, s') ∨
        ∃ info s₁, W.run (a.source.describe job.repository).run s = (.ok info, s₁) ∧
          W.run (a.source.list job.repository info.branch).run s₁ = (.error f, s') := by
  unfold list
  rw [W.run_bind_error_iff]
  refine or_congr_right <| exists_congr fun info => exists_congr fun s₁ =>
    and_congr_right fun _ => ?_
  rw [W.run_bind_error_iff]
  refine or_iff_left ?_
  rintro ⟨listed, s₂, -, h⟩
  -- Nothing fails after the files were listed.
  rcases W.run_bind_error_iff.mp h with hlog | ⟨_, s₃, -, h⟩
  · cases hlog
  · cases h

/-- Where texts were fetched, the files are those of the outcomes. -/
theorem run_collect_ok {job : Job} {entries : List TreeEntry} {c : Collected}
    (h : W.run (a.collect job entries).run s = (.ok c, s')) :
    ∃ outcomes t,
      W.run (a.source.contents job.repository entries a.fetchConcurrency).run s =
        (.ok outcomes, t) ∧
      c.files = outcomes.map FetchOutcome.file := by
  unfold collect at h
  obtain ⟨outcomes, t, hcontents, h⟩ := W.run_bind_ok_iff.mp h
  obtain ⟨_, t', -, h⟩ := W.run_bind_ok_iff.mp h
  obtain ⟨hvalue, -⟩ := Prod.mk.inj h
  obtain rfl := Except.ok.inj hvalue
  exact ⟨outcomes, t, hcontents, rfl⟩

/-- Writing to the log what came of fetching texts does not fail. -/
theorem run_logCollected (job : Job) (c : Collected) (s : σ) :
    ∃ s', W.run (logCollected job c).run s = (.ok (), s') := by
  unfold logCollected
  split
  · exact ⟨_, rfl⟩
  · exact ⟨_, rfl⟩

/-- Texts are not fetched exactly where the source does not fetch them. -/
theorem run_collect_error_iff {job : Job} {entries : List TreeEntry} {f : Failure} :
    W.run (a.collect job entries).run s = (.error f, s') ↔
      W.run (a.source.contents job.repository entries a.fetchConcurrency).run s =
        (.error f, s') := by
  unfold collect
  rw [W.run_bind_error_iff]
  refine or_iff_left ?_
  rintro ⟨outcomes, t, -, h⟩
  rcases W.run_bind_error_iff.mp h with hlog | ⟨_, t', -, h⟩
  · obtain ⟨t', hlogged⟩ := run_logCollected W job ⟨outcomes.map FetchOutcome.file,
      failedPaths outcomes⟩ t
    rw [hlogged] at hlog
    cases hlog
  · cases h

/-- Where files are not listed, the source fails to fetch. -/
theorem FailsToFetch.of_run_list {W : World σ} {a : Analyser} {job : Job} {f : Failure}
    (h : W.run (a.list job).run s = (.error f, s')) :
    FailsToFetch W a job s .fetchRepository f := by
  rcases (run_list_error_iff W a).mp h with hdescribe | ⟨info, t, hdescribe, hlist⟩
  · exact .describe hdescribe
  · exact .list hdescribe hlist

/-- Where the texts of files that were listed are not fetched, the source fails to fetch. -/
theorem FailsToFetch.of_run_collect {W : World σ} {a : Analyser} {job : Job}
    {info : RepositoryInfo} {entries : List TreeEntry} {f : Failure} {t : σ}
    (hlist : W.run (a.list job).run s = (.ok (info, entries), t))
    (h : W.run (a.collect job entries).run t = (.error f, s')) :
    FailsToFetch W a job s .fetchContents f := by
  obtain ⟨listed, u₁, u₂, hdescribe, hlisted, rfl, hlog⟩ := (run_list_ok_iff W a).mp hlist
  exact .contents hdescribe hlisted hlog ((run_collect_error_iff W a).mp h)

/-- Listing files and then fetching texts leaves the store alone. -/
theorem store_run_fetched {job : Job} {entries : List TreeEntry}
    {listed : Except Failure (RepositoryInfo × List TreeEntry)}
    {collected : Except Failure Collected} {t : σ}
    (hlist : W.run (a.list job).run s = (listed, t))
    (hcollect : W.run (a.collect job entries).run t = (collected, s')) :
    W.store s' = W.store s :=
  (W.run_asksOutside (a.outside_collect _ _) hcollect).trans
    (W.run_asksOutside (a.outside_list _) hlist)

/-- Building a graph and then checking it leaves the store alone. -/
theorem store_run_checked {files files' : List FileRecord} {artifact : Artifact}
    {built : Except Failure Artifact} {checked : Except Failure Unit} {t : σ}
    (hbuild : W.run (build files).run s = (built, t))
    (hcheck : W.run (check artifact files').run t = (checked, s')) :
    W.store s' = W.store s :=
  (W.run_detached (detached_check _ _) hcheck).2.trans (W.run_detached (detached_build _) hbuild).2

/-- An artifact that is accepted passed the check. -/
theorem run_check_ok {artifact : Artifact} {files : List FileRecord}
    (h : W.run (check artifact files).run s = (.ok (), s')) :
    artifact.check (files.map FileRecord.path) = .ok () := by
  have hvalue : (artifact.check (files.map FileRecord.path)).mapError Failure.artifact = .ok () :=
    (Prod.mk.inj h).1
  cases hcheck : artifact.check (files.map FileRecord.path) with
  | ok u => rfl
  | error fault =>
    rw [hcheck] at hvalue
    cases hvalue

/-- What is reported of files and their artifact. -/
structure Reports (report : Report) (files : List FileRecord) (artifact : Artifact) : Prop where
  /-- The number of files. -/
  files : report.files = files.length
  /-- The number of nodes. -/
  nodes : report.nodes = artifact.nodes.length
  /-- The number of edges. -/
  edges : report.edges = artifact.edges.length
  /-- The digest of the artifact. -/
  digest : report.digest = artifact.digest

/-- Where all stages succeed, the artifact of the files that were fetched passed the check and is
stored. -/
theorem run_process_ok (h : (W.store s).jobs.lookup? id = some r)
    (hprocessing : r.status = .processing) {report : Report}
    (hrun : W.run (a.process id).run s = (.ok report, s')) :
    ∃ t outcomes t', W.run (load id).run s = (.ok { r with id }, t) ∧
      Fetches W a { r with id } t outcomes t' ∧
      let files := outcomes.map FetchOutcome.file
      let artifact := Artifact.ofFiles files
      W.Serializes artifact ∧ artifact.check (files.map FileRecord.path) = .ok () ∧
        Reports report files artifact ∧
        W.store s' = ⟨(W.store s).jobs.insert id r.completed,
          (W.store s).artifacts.insert id ⟨artifact.toJson, artifact.digest⟩⟩ := by
  unfold process at hrun
  obtain ⟨job, s₁, hload, hrun⟩ := W.run_bind_ok_iff.mp hrun
  obtain ⟨⟨info, entries⟩, s₂, hlist, hrun⟩ := W.run_bind_ok_iff.mp hrun
  obtain ⟨c, s₃, hcollect, hrun⟩ := W.run_bind_ok_iff.mp hrun
  obtain ⟨artifact, s₄, hbuild, hrun⟩ := W.run_bind_ok_iff.mp hrun
  obtain ⟨_, s₅, hcheck, hrun⟩ := W.run_bind_ok_iff.mp hrun
  obtain ⟨uri, s₆, hpersist, hrun⟩ := W.run_bind_ok_iff.mp hrun
  rw [run_stage_ok_iff] at hload hlist hcollect hbuild hcheck hpersist
  -- The job is the one that is stored.
  obtain ⟨t, hload', hstore₁⟩ := run_load W h hprocessing
  rw [hload'] at hload
  obtain ⟨hjob, rfl⟩ := Prod.mk.inj hload
  obtain rfl := Except.ok.inj hjob
  -- Up to the check nothing changes the store.
  have hstore : W.store s₅ = W.store s :=
    calc W.store s₅ = W.store s₃ := store_run_checked W hbuild hcheck
      _ = W.store t := store_run_fetched W a hlist hcollect
      _ = W.store s := hstore₁
  -- What was stored was built from what was fetched.
  obtain ⟨rfl, hserializes⟩ := run_build_ok W hbuild
  have hpassed := run_check_ok W hcheck
  obtain ⟨listed, u₁, u₂, hdescribe, hlisted, rfl, hlog⟩ := (run_list_ok_iff W a).mp hlist
  obtain ⟨outcomes, t', hcontents, hfiles⟩ := run_collect_ok W a hcollect
  -- Storing it succeeds, as the job is still there.
  rw [← hstore] at h ⊢
  obtain ⟨uri', s₇, hpersist', hstore₇⟩ := run_persist W a h hserializes
  rw [hpersist'] at hpersist
  obtain ⟨-, rfl⟩ := Prod.mk.inj hpersist
  obtain ⟨hreport, rfl⟩ := Prod.mk.inj hrun
  obtain rfl := Except.ok.inj hreport
  refine ⟨t, outcomes, t', hload', ⟨info, listed, u₁, u₂, s₂, hdescribe, hlisted, hlog,
    hcontents⟩, ?_⟩
  rw [← hfiles]
  exact ⟨hserializes, hpassed, ⟨rfl, rfl, rfl, rfl⟩, hstore₇⟩

/-- A detached stage that fails leaves the store alone, and does not fail as the loading of a job
does. -/
theorem run_stage_detached_error {st : Stage} {x : Action α} (hx : x.IsDetached) {halt : Halt}
    (h : W.run (stage st x).run s = (.error halt, s')) :
    halt.cause.disownsJob = false ∧ W.store s' = W.store s := by
  obtain ⟨f, rfl, hrun⟩ := (run_stage_error_iff W).mp h
  obtain ⟨hspares, hstore⟩ := W.run_detached hx hrun
  exact ⟨hspares f rfl, hstore⟩

/-- The first failure of a stage comes before anything was stored. It is one of the source, or it
does not disown the job. -/
theorem run_process_error (h : (W.store s).jobs.lookup? id = some r)
    (hprocessing : r.status = .processing) {halt : Halt}
    (hrun : W.run (a.process id).run s = (.error halt, s')) :
    ∃ t, W.run (load id).run s = (.ok { r with id }, t) ∧ W.store s' = W.store s ∧
      (FailsToFetch W a { r with id } t halt.stage halt.cause ∨
        halt.cause.disownsJob = false) := by
  -- Loading the job succeeds.
  obtain ⟨t, hload, hstore₁⟩ := run_load W h hprocessing
  refine ⟨t, hload, ?_⟩
  unfold process at hrun
  rcases W.run_bind_error_iff.mp hrun with hfail | ⟨job, s₁, hok, hrun⟩
  · obtain ⟨f, -, hfail⟩ := (run_stage_error_iff W).mp hfail
    rw [hload] at hfail
    cases hfail
  rw [run_stage_ok_iff, hload] at hok
  cases hok
  -- The repository is not described, or its files are not listed.
  rcases W.run_bind_error_iff.mp hrun with hfail | ⟨⟨info, entries⟩, s₂, hok, hrun⟩
  · obtain ⟨f, rfl, hlist⟩ := (run_stage_error_iff W).mp hfail
    exact ⟨(W.run_asksOutside (a.outside_list _) hlist).trans hstore₁, .inl (.of_run_list hlist)⟩
  have hlist := (run_stage_ok_iff W).mp hok
  -- The texts are not fetched.
  rcases W.run_bind_error_iff.mp hrun with hfail | ⟨c, s₃, hok, hrun⟩
  · obtain ⟨f, rfl, hcollect⟩ := (run_stage_error_iff W).mp hfail
    exact ⟨(store_run_fetched W a hlist hcollect).trans hstore₁,
      .inl (.of_run_collect hlist hcollect)⟩
  have hstore₃ : W.store s₃ = W.store s :=
    (store_run_fetched W a hlist ((run_stage_ok_iff W).mp hok)).trans hstore₁
  -- The graph cannot be serialized.
  rcases W.run_bind_error_iff.mp hrun with hfail | ⟨artifact, s₄, hok, hrun⟩
  · obtain ⟨hcause, hstore₄⟩ := run_stage_detached_error W (detached_build _) hfail
    exact ⟨hstore₄.trans hstore₃, .inr hcause⟩
  have hbuild := (run_stage_ok_iff W).mp hok
  obtain ⟨-, hserializes⟩ := run_build_ok W hbuild
  -- The artifact is not accepted.
  rcases W.run_bind_error_iff.mp hrun with hfail | ⟨_, s₅, hok, hrun⟩
  · obtain ⟨hcause, hstore₅⟩ := run_stage_detached_error W (detached_check _ _) hfail
    obtain ⟨-, hstore₄⟩ := W.run_detached (detached_build _) hbuild
    exact ⟨hstore₅.trans (hstore₄.trans hstore₃), .inr hcause⟩
  have hstore : W.store s₅ = W.store s :=
    (store_run_checked W hbuild ((run_stage_ok_iff W).mp hok)).trans hstore₃
  -- Storing the artifact does not fail, as the job is still there, and nothing comes after it.
  rcases W.run_bind_error_iff.mp hrun with hfail | ⟨uri, s₆, -, hrun⟩
  · rw [← hstore] at h
    obtain ⟨uri, s₆, hpersist, -⟩ := run_persist W a h hserializes
    obtain ⟨f, -, hfail⟩ := (run_stage_error_iff W).mp hfail
    rw [hpersist] at hfail
    cases hfail
  · cases hrun

/-- A source with `SparesJobs` does not fail with `disownsJob`. -/
theorem FailsToFetch.disownsJob_eq_false {W : World σ} {a : Analyser} {job : Job} {st : Stage}
    {f : Failure} (h : FailsToFetch W a job s st f) (ha : a.source.SparesJobs) :
    f.disownsJob = false := by
  cases h with
  | describe hdescribe => exact (W.run_detached (ha.describe _) hdescribe).1 f rfl
  | list _ hlist => exact (W.run_detached (ha.list _ _) hlist).1 f rfl
  | contents _ _ _ hcontents => exact (W.run_detached (ha.contents _ _ _) hcontents).1 f rfl

/-- Where the source fails to fetch, the stage fails, and no other one is begun. -/
theorem FailsToFetch.exists_run_process {W : World σ} {a : Analyser} {job : Job} {t : σ}
    {st : Stage} {f : Failure} (h : FailsToFetch W a job t st f)
    (hload : W.run (load id).run s = (.ok job, t)) :
    ∃ s', W.run (a.process id).run s = (.error ⟨st, f⟩, s') := by
  unfold process
  rw [W.run_bind_eq, (run_stage_ok_iff W).mpr hload]
  dsimp only
  cases h with
  | describe hdescribe =>
    have hlist := (run_list_error_iff W a).mpr (.inl hdescribe)
    rw [W.run_bind_eq, (run_stage_error_iff W).mpr ⟨f, rfl, hlist⟩]
    exact ⟨_, rfl⟩
  | list hdescribe hlist =>
    have hlist := (run_list_error_iff W a).mpr (.inr ⟨_, _, hdescribe, hlist⟩)
    rw [W.run_bind_eq, (run_stage_error_iff W).mpr ⟨f, rfl, hlist⟩]
    exact ⟨_, rfl⟩
  | contents hdescribe hlist hlog hcontents =>
    have hlist := (run_list_ok_iff W a).mpr ⟨_, _, _, hdescribe, hlist, rfl, hlog⟩
    have hcollect := (run_collect_error_iff W a).mpr hcontents
    rw [W.run_bind_eq, (run_stage_ok_iff W).mpr hlist]
    dsimp only
    rw [W.run_bind_eq, (run_stage_error_iff W).mpr ⟨f, rfl, hcollect⟩]
    exact ⟨_, rfl⟩

/-! ## The whole analysis -/

/-- After a claim that succeeds, a run is the analysis of the claimed job. -/
theorem run_eq_runClaimed (hclaim : W.run (Lifecycle.claim id).run s = (.ok true, s')) :
    W.run (a.run id) s = W.run (a.runClaimed id) s' := by
  unfold run
  rw [W.run_bind, hclaim]

/-- Where all stages succeed, the analysis says that the job was completed. -/
theorem run_runClaimed_ok {report : Report}
    (h : W.run (a.process id).run s = (.ok report, s')) :
    ∃ t, W.run (a.runClaimed id) s = (⟨id, .completed report⟩, t) ∧ W.store t = W.store s' := by
  refine ⟨(W.run (Activity.log .info .analysis "job_completed" [("job_id", .str id),
    ("nodes", .int report.nodes), ("edges", .int report.edges)]) s').2, ?_, W.store_run_log ..⟩
  unfold runClaimed
  rw [W.run_bind, h, W.run_bind]
  rfl

/-- Where a stage fails for a reason that is not about the job, the analysis says that the job
failed, and so does the store. -/
theorem run_runClaimed_error {halt : Halt} (h : W.run (a.process id).run s = (.error halt, s'))
    (hcause : halt.cause.disownsJob = false) (hr : (W.store s').jobs.lookup? id = some r) :
    ∃ t, W.run (a.runClaimed id) s =
        (⟨id, .failed halt.stage (haltMessage halt.cause) true⟩, t) ∧
      W.store t = { W.store s' with
        jobs := (W.store s').jobs.insert id (r.failed (haltMessage halt.cause)) } := by
  obtain ⟨t, hrun, hstore⟩ := run_halted W hcause hr
  refine ⟨t, ?_, hstore⟩
  unfold runClaimed
  rw [W.run_bind, h, W.run_bind, hrun]
  rfl

/-- Where a stage fails and disowns the job, the analysis says so, and the store stays as it is. -/
theorem run_runClaimed_disowned {halt : Halt} (h : W.run (a.process id).run s = (.error halt, s'))
    (hcause : halt.cause.disownsJob = true) :
    ∃ t, W.run (a.runClaimed id) s =
        (⟨id, .notProcessable halt.stage (haltMessage halt.cause)⟩, t) ∧
      W.store t = W.store s' := by
  obtain ⟨t, hrun, hstore⟩ := run_halted_of_disowns W hcause id s'
  refine ⟨t, ?_, hstore⟩
  unfold runClaimed
  rw [W.run_bind, h, W.run_bind, hrun]
  rfl

/-- The outcome and the store say that a job was completed with the artifact of some files. -/
structure EndsCompleted (id : String) (files : List FileRecord) (outcome : Outcome)
    (store : Store) : Prop where
  /-- The outcome has the state of the job. -/
  status : outcome.status? = some .completed
  /-- The job is stored as a completed one without error. -/
  job : ∃ job, store.job? id = some job ∧ job.status = .completed ∧ job.error = none
  /-- The artifact of the files is stored. -/
  artifact : store.artifact? id = .ok (some (Artifact.ofFiles files))
  /-- The artifact fits the files. -/
  accepted : (Artifact.ofFiles files).check (files.map FileRecord.path) = .ok ()
  /-- The report tells of the files and the artifact, and its digest is the stored one. -/
  report : ∃ report, outcome.report? = some report ∧ Reports report files (Artifact.ofFiles files) ∧
    (store.perform (.digest id)).1 = .ok (some report.digest)

/-- The outcome and the store say that a job failed. -/
structure EndsFailed (id : String) (outcome : Outcome) (store : Store) : Prop where
  /-- The outcome has the state of the job. -/
  status : outcome.status? = some .failed
  /-- The job is stored as a failed one with the error of the outcome, which has words. -/
  job : ∃ job message, store.job? id = some job ∧ job.status = .failed ∧
    job.error = some message ∧ outcome.error? = some message ∧ message ≠ ""
  /-- No artifact is stored. -/
  artifact : store.artifact? id = .ok none

/-- The outcome says that a job was disowned at a stage, and the store that it is still
processing. -/
structure EndsDisowned (id : String) (st : Stage) (f : Failure) (outcome : Outcome)
    (store : Store) : Prop where
  /-- The outcome has the stage and the words of the failure. -/
  ending : outcome = ⟨id, .notProcessable st (haltMessage f)⟩
  /-- The outcome knows no state of the job. -/
  status : outcome.status? = none
  /-- The job is stored as a processing one. -/
  job : ∃ job, store.job? id = some job ∧ job.status = .processing
  /-- No artifact is stored. -/
  artifact : store.artifact? id = .ok none

/-- Two stores say the same of all other jobs and their artifacts. -/
def SaysTheSameBeside (id : String) (store later : Store) : Prop :=
  ∀ other, other ≠ id → later.jobs.lookup? other = store.jobs.lookup? other ∧
    later.artifacts.lookup? other = store.artifacts.lookup? other

/-- A store says of other jobs what an earlier one said. -/
theorem SaysTheSameBeside.trans {store between later : Store}
    (h : SaysTheSameBeside id store between) (h' : SaysTheSameBeside id between later) :
    SaysTheSameBeside id store later := fun other hother =>
  ⟨(h' other hother).1.trans (h other hother).1, (h' other hother).2.trans (h other hother).2⟩

/-- Where all stages succeed, the analysis of a claimed job completes it with what was fetched, and
leaves the other jobs alone. -/
theorem runClaimed_endsCompleted (h : (W.store s).jobs.lookup? id = some r)
    (hprocessing : r.status = .processing) {report : Report}
    (hprocess : W.run (a.process id).run s = (.ok report, s')) :
    (∃ t outcomes t', W.run (load id).run s = (.ok { r with id }, t) ∧
        Fetches W a { r with id } t outcomes t' ∧
        EndsCompleted id (outcomes.map FetchOutcome.file) (W.run (a.runClaimed id) s).1
          (W.store (W.run (a.runClaimed id) s).2)) ∧
      SaysTheSameBeside id (W.store s) (W.store (W.run (a.runClaimed id) s).2) := by
  obtain ⟨t, outcomes, t', hload, hfetches, -, hpassed, hreports, hstore⟩ :=
    run_process_ok W a h hprocessing hprocess
  obtain ⟨u, hrun, hstore'⟩ := run_runClaimed_ok W a hprocess
  rw [hrun, hstore', hstore]
  refine ⟨⟨t, outcomes, t', hload, hfetches, ?_⟩, fun other hother => ?_⟩
  · refine ⟨rfl, ⟨{ r.completed with id }, ?_, rfl, rfl⟩, ?_, hpassed, report, rfl, hreports, ?_⟩
    · rw [Store.job?, Table.lookup?_insert_self]
      rfl
    · simp only [Store.artifact?, Table.lookup?_insert_self, Artifact.decode_toJson]
    · simp only [Store.perform, Table.lookup?_insert_self, hreports.digest, Option.map_some]
  · simp only [Table.lookup?_insert_of_ne _ _ hother, and_self]

/-- Where a stage fails, the analysis of a claimed job without an artifact makes it a failed one, or
leaves it as it is if the failure disowns it; it leaves the other jobs alone. -/
theorem runClaimed_of_error (h : (W.store s).jobs.lookup? id = some r)
    (hprocessing : r.status = .processing) (hnone : (W.store s).artifacts.lookup? id = none)
    {halt : Halt} (hprocess : W.run (a.process id).run s = (.error halt, s')) :
    (halt.cause.disownsJob = false →
        EndsFailed id (W.run (a.runClaimed id) s).1 (W.store (W.run (a.runClaimed id) s).2)) ∧
      (halt.cause.disownsJob = true →
        EndsDisowned id halt.stage halt.cause (W.run (a.runClaimed id) s).1
          (W.store (W.run (a.runClaimed id) s).2)) ∧
      SaysTheSameBeside id (W.store s) (W.store (W.run (a.runClaimed id) s).2) := by
  obtain ⟨-, -, hstore, -⟩ := run_process_error W a h hprocessing hprocess
  cases hcause : halt.cause.disownsJob with
  | false =>
    have hr : (W.store s').jobs.lookup? id = some r := by rw [hstore, h]
    obtain ⟨u, hrun, hstore'⟩ := run_runClaimed_error W a hprocess hcause hr
    rw [hrun, hstore', hstore]
    refine ⟨fun _ => ⟨rfl, ⟨{ r.failed (haltMessage halt.cause) with id }, _, ?_, rfl, rfl, rfl,
      haltMessage_ne_empty halt.cause⟩, ?_⟩, fun h => absurd h Bool.false_ne_true,
      fun other hother => ?_⟩
    · rw [Store.job?, Table.lookup?_insert_self]
      rfl
    · simp only [Store.artifact?, hnone]
    · simp only [Table.lookup?_insert_of_ne _ _ hother, and_self]
  | true =>
    obtain ⟨u, hrun, hstore'⟩ := run_runClaimed_disowned W a hprocess hcause
    rw [hrun, hstore', hstore]
    refine ⟨fun h => absurd h.symm Bool.false_ne_true,
      fun _ => ⟨rfl, rfl, ⟨{ r with id }, ?_, hprocessing⟩, ?_⟩,
      fun _ _ => ⟨rfl, rfl⟩⟩
    · rw [Store.job?, h]
      rfl
    · simp only [Store.artifact?, hnone]

/-- `runClaimed` of a processing job without an artifact, which is what `load` finds, ends with
`EndsCompleted` or `EndsFailed` as long as the source does not fail as `load` does, and otherwise
with `EndsDisowned`. -/
theorem runClaimed_of_processing (h : (W.store s).jobs.lookup? id = some r)
    (hprocessing : r.status = .processing) (hnone : (W.store s).artifacts.lookup? id = none)
    {job : Job} {t : σ} (hload : W.run (load id).run s = (.ok job, t)) :
    ((∀ st f, FailsToFetch W a job t st f → f.disownsJob = false) →
        (∃ outcomes t', Fetches W a job t outcomes t' ∧
          EndsCompleted id (outcomes.map FetchOutcome.file) (W.run (a.runClaimed id) s).1
            (W.store (W.run (a.runClaimed id) s).2)) ∨
        EndsFailed id (W.run (a.runClaimed id) s).1 (W.store (W.run (a.runClaimed id) s).2)) ∧
      (∀ st f, FailsToFetch W a job t st f → f.disownsJob = true →
        EndsDisowned id st f (W.run (a.runClaimed id) s).1
          (W.store (W.run (a.runClaimed id) s).2)) ∧
      SaysTheSameBeside id (W.store s) (W.store (W.run (a.runClaimed id) s).2) := by
  cases hprocess : W.run (a.process id).run s with
  | mk res u =>
    cases res with
    | ok report =>
      obtain ⟨⟨t₀, outcomes, t', hload', hfetches, hends⟩, hframe⟩ :=
        runClaimed_endsCompleted W a h hprocessing hprocess
      cases hload.symm.trans hload'
      refine ⟨fun _ => .inl ⟨outcomes, t', hfetches, hends⟩, fun st f hfails => ?_, hframe⟩
      -- The source did not fail.
      obtain ⟨v, hfailed⟩ := hfails.exists_run_process hload
      rw [hprocess] at hfailed
      cases hfailed
    | error halt =>
      obtain ⟨hfailed, hdisowned, hframe⟩ := runClaimed_of_error W a h hprocessing hnone hprocess
      refine ⟨fun hspares => .inr (hfailed ?_), fun st f hfails hcause => ?_, hframe⟩
      · obtain ⟨t₀, hload', -, hfails | hcause⟩ := run_process_error W a h hprocessing hprocess
        · cases hload.symm.trans hload'
          exact hspares _ _ hfails
        · exact hcause
      · -- It is this failure at which the stages stopped.
        obtain ⟨v, hstopped⟩ := hfails.exists_run_process hload
        rw [hprocess] at hstopped
        obtain rfl := Except.error.inj (Prod.mk.inj hstopped).1
        exact hdisowned hcause

/-- `run` of a pending job, in a `Reachable` store, ends with `EndsCompleted` for what the source
`Fetches` after the job was claimed and loaded, or with `EndsFailed`, as long as the source does not
fail as `load` does. If it `FailsToFetch` with a failure that has `disownsJob`, the run ends with
`EndsDisowned`: the job is left processing, with nobody to go on. Other jobs and their artifacts
stay as they are. -/
theorem run_of_pending (hreach : (W.store s).Reachable)
    (h : (W.store s).jobs.lookup? id = some r) (hpending : r.status = .pending) :
    ∃ t₁ t₂ job, W.run (Lifecycle.claim id).run s = (.ok true, t₁) ∧
      W.run (load id).run t₁ = (.ok job, t₂) ∧
      ((∀ st f, FailsToFetch W a job t₂ st f → f.disownsJob = false) →
        (∃ outcomes t₃, Fetches W a job t₂ outcomes t₃ ∧
          EndsCompleted id (outcomes.map FetchOutcome.file) (W.run (a.run id) s).1
            (W.store (W.run (a.run id) s).2)) ∨
        EndsFailed id (W.run (a.run id) s).1 (W.store (W.run (a.run id) s).2)) ∧
      (∀ st f, FailsToFetch W a job t₂ st f → f.disownsJob = true →
        EndsDisowned id st f (W.run (a.run id) s).1 (W.store (W.run (a.run id) s).2)) ∧
      SaysTheSameBeside id (W.store s) (W.store (W.run (a.run id) s).2) := by
  -- The claim succeeds, and the stages begin with the job processing.
  obtain ⟨t₁, hclaim, hstore₁⟩ := run_claim W h hpending
  have hr₁ : (W.store t₁).jobs.lookup? id = some r.claimed := by
    rw [hstore₁]
    exact Table.lookup?_insert_self ..
  -- Claiming left the other jobs and all artifacts alone, and a pending job had no artifact.
  have hbeside : SaysTheSameBeside id (W.store s) (W.store t₁) := by
    rw [hstore₁]
    exact fun other hother => ⟨Table.lookup?_insert_of_ne _ _ hother, rfl⟩
  have hnone : (W.store t₁).artifacts.lookup? id = none := by
    rw [hstore₁]
    exact hreach.artifact_eq_none h (by rw [hpending]; rfl)
  obtain ⟨t₂, hload, -⟩ := run_load W hr₁ rfl
  obtain ⟨hends, hdisowned, hframe⟩ := runClaimed_of_processing W a hr₁ rfl hnone hload
  rw [run_eq_runClaimed W a hclaim]
  exact ⟨t₁, t₂, _, hclaim, hload, hends, hdisowned, hbeside.trans hframe⟩

/-- The analysis of a job that was just entered, with `Source.listing` of two files, ends one way or
the other; with `Source.failing` of `.jobMissing` it leaves the job processing. -/
theorem run_of_pending_listing :
    let record : JobRecord :=
      { repository := ⟨"octo", "demo"⟩
        url := "https://github.com/octo/demo"
        createdAt := ⟨0, true⟩ }
    let s := (Store.empty.perform (.insert "1" record)).2
    let a : Analyser := ⟨.listing [⟨"src/main.py", some 12⟩, ⟨"README", none⟩], none, 200, 8⟩
    let f : Failure := .jobMissing "octo/demo"
    let b : Analyser := ⟨.failing f, none, 200, 8⟩
    (s.Reachable ∧ s.jobs.lookup? "1" = some record.stored ∧ record.stored.status = .pending) ∧
      ((∃ files, EndsCompleted "1" files (World.isolated.run (a.run "1") s).1
          (World.isolated.run (a.run "1") s).2) ∨
        EndsFailed "1" (World.isolated.run (a.run "1") s).1
          (World.isolated.run (a.run "1") s).2) ∧
      EndsDisowned "1" .fetchRepository f (World.isolated.run (b.run "1") s).1
        (World.isolated.run (b.run "1") s).2 := by
  intro record s a f b
  have hreach : s.Reachable := .perform _ _ .empty
  have hjob : s.jobs.lookup? "1" = some record.stored := Table.lookup?_insert_self ..
  refine ⟨⟨hreach, hjob, rfl⟩, ?_, ?_⟩
  · obtain ⟨t₁, t₂, job, -, -, hends, -, -⟩ := run_of_pending World.isolated a hreach hjob rfl
    refine (hends fun st f hfails => ?_).imp_left fun ⟨outcomes, _, _, hcompleted⟩ =>
      ⟨_, hcompleted⟩
    exact hfails.disownsJob_eq_false (Source.sparesJobs_listing _)
  · obtain ⟨t₁, t₂, job, -, -, -, hends, -⟩ := run_of_pending World.isolated b hreach hjob rfl
    exact hends _ f (.describe rfl) rfl

/-- A pending job whose source fails with `.jobState` is still processing after `run`, and the
outcome has no state of it. -/
theorem run_leaves_disowned_job_processing :
    let record : JobRecord :=
      { repository := ⟨"octo", "demo"⟩
        url := "https://github.com/octo/demo"
        createdAt := ⟨0, true⟩ }
    let s := (Store.empty.perform (.insert "1" record)).2
    let a : Analyser := ⟨.failing (.jobState "octo/demo" "ARCHIVED"), none, 200, 8⟩
    s.Reachable ∧ s.status? "1" = some .pending ∧
      (World.isolated.run (a.run "1") s).2.status? "1" = some .processing ∧
      (World.isolated.run (a.run "1") s).1.status? = none := by
  intro record s a
  exact ⟨.perform _ _ .empty, rfl, by decide, by decide⟩

end RepoGraph.Analyser
