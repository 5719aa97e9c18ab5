import RepoGraph.Proofs.Analysis.Run
import RepoGraph.Proofs.Asked

/-!
# What an analysis asks

The stages of an analysis fall into two parts (`process_eq`): up to the check an artifact is
prepared, which asks for the job and whatever the source asks (`asks_prepare`), and then it is
stored and copied. So where the source asks nothing of interest, what is of interest in the analysis
of a claimed job is that the job is made a failed one (`gathered_runClaimed_of_error`), that it is
disowned (`gathered_runClaimed_of_disowned`), or that the artifact is stored and copied
(`gathered_runClaimed_of_ok`).
-/

namespace RepoGraph

/-- A source that lists the same files always asks nothing. -/
theorem Source.asks_listing (may : Question → Prop) (entries : List TreeEntry) :
    (listing entries).Asks may :=
  ⟨fun _ => trivial, fun _ _ => trivial, fun _ _ _ => trivial⟩

namespace Analyser

variable {σ α γ : Type} (W : World σ) (a : Analyser) {s t : σ} {id : String} {r : JobRecord}

/-! ## Stages -/

/-- A stage asks what its action asks. -/
theorem asked_stage (st : Stage) (x : Action α) (s : σ) :
    W.asked (stage st x).run s = W.asked x.run s := by
  unfold stage
  rw [ExceptT.run_mk, W.asked_bind, W.asked_pure, List.append_nil]

/-- What is gathered from a stage is gathered from its action. -/
theorem gathered_stage (pick : σ → Question → Option γ) (st : Stage) (x : Action α) (s : σ) :
    W.gathered pick (stage st x).run s = W.gathered pick x.run s := by
  unfold World.gathered
  rw [asked_stage]

/-- A stage asks only what its action does. -/
theorem asks_stage {may : Question → Prop} {st : Stage} {x : Action α} (h : Asks may x) :
    Asks may (stage st x) :=
  Program.Within.bind h fun _ _ => trivial

/-! ## The two parts of an analysis -/

/-- A job with the graph of its snapshot, which passed the check. -/
structure Prepared where
  /-- The job. -/
  job : Job
  /-- What the source tells about the repository. -/
  info : RepositoryInfo
  /-- The snapshot with its texts. -/
  collected : Collected
  /-- The artifact. -/
  artifact : Artifact

/-- What is reported of an artifact that was stored, and copied to an address or not. -/
def Prepared.report (p : Prepared) (copyUri : Option String) : Report :=
  { job := p.job.id
    fullName := p.info.fullName
    branch := p.info.branch
    files := p.collected.files.length
    filesWithText := textCount p.collected.files
    failedFetches := p.collected.failed.length
    nodes := p.artifact.nodes.length
    edges := p.artifact.edges.length
    digest := p.artifact.digest
    copyUri }

/-- The stages up to the check of the artifact. -/
def prepare (id : String) : Steps Prepared := do
  let job ← stage .loadJob (load id)
  let (info, entries) ← stage .fetchRepository (a.list job)
  let collected ← stage .fetchContents (a.collect job entries)
  let artifact ← stage .buildGraph (build collected.files)
  stage .validate (check artifact collected.files)
  return ⟨job, info, collected, artifact⟩

/-- An analysis prepares an artifact, and then stores and copies it. -/
theorem process_eq (id : String) :
    a.process id = (do
      let p ← a.prepare id
      let uri ← stage .persist (a.persist p.job.id p.artifact)
      return p.report uri) := by
  unfold process prepare
  simp only [bind_assoc, pure_bind]
  rfl

/-- The question is one for the job, an event for the log, an artifact to be dumped, or a question
that the source may ask. -/
def IsPreparing (may : Question → Prop) (id : String) (q : Question) : Prop :=
  q = .transact (.find id) ∨ (∃ e, q = .log e) ∨ (∃ x, q = .dump x) ∨ q.isOutside = true ∧ may q

/-- Looking up the job asks for it. -/
theorem asks_load (may : Question → Prop) (id : String) :
    Asks (IsPreparing may id) (load id) := by
  refine .bind (.transact (.inl rfl) fun e => .inr (.inl ⟨e, rfl⟩)) fun job? => ?_
  cases job? with
  | none => exact .known _
  | some job =>
    by_cases h : job.status = .processing
    · simp only [h, if_true]
      exact .known _
    · simp only [h, if_false]
      exact .known _

/-- What is asked of the source may be asked to prepare an artifact. -/
theorem asks_source {may : Question → Prop} {x : Action α} (houtside : x.AsksOutside)
    (h : Asks may x) (id : String) : Asks (IsPreparing may id) x :=
  (Asks.of_outside houtside h).mono fun _ hq => .inr (.inr (.inr hq))

/-- Writing to the log may be asked to prepare an artifact. -/
theorem asks_log (may : Question → Prop) (id : String) (level : Log.Level) (part : Log.Part)
    (name : String) (fields : List (String × Json)) :
    Asks (IsPreparing may id) (Action.log level part name fields) :=
  .log (fun e => .inr (.inl ⟨e, rfl⟩)) ..

/-- Describing a repository and listing its files asks what the source asks. -/
theorem asks_list {may : Question → Prop} (h : a.source.Asks may) (id : String) (job : Job) :
    Asks (IsPreparing may id) (a.list job) := by
  refine .bind (asks_source (a.source.outside_describe _) (h.describe _) id) fun info => ?_
  refine .bind (asks_source (a.source.outside_list _ _) (h.list _ _) id) fun listed => ?_
  exact .bind (asks_log ..) fun _ => .known _

/-- Fetching texts asks what the source asks. -/
theorem asks_collect {may : Question → Prop} (h : a.source.Asks may) (id : String) (job : Job)
    (entries : List TreeEntry) : Asks (IsPreparing may id) (a.collect job entries) := by
  refine .bind (asks_source (a.source.outside_contents _ _ _) (h.contents _ _ _) id)
    fun outcomes => .bind ?_ fun _ => .known _
  unfold logCollected
  split
  · exact asks_log ..
  · exact .bind (asks_log ..) fun _ => asks_log ..

/-- Building a graph asks for it to be dumped. -/
theorem asks_build (may : Question → Prop) (id : String) (files : List FileRecord) :
    Asks (IsPreparing may id) (build files) :=
  .bind (.serialize (.inr (.inr (.inl ⟨_, rfl⟩)))) fun _ => .known _

/-- Preparing an artifact asks for the job, for what the source asks, for the artifact to be dumped,
and to write to the log. -/
theorem asks_prepare {may : Question → Prop} (h : a.source.Asks may) (id : String) :
    Asks (IsPreparing may id) (a.prepare id) := by
  refine .bind (asks_stage (asks_load may id)) fun job => ?_
  refine .bind (asks_stage (a.asks_list h id job)) fun listed => ?_
  refine .bind (asks_stage (a.asks_collect h id job listed.2)) fun collected => ?_
  refine .bind (asks_stage (asks_build may id collected.files)) fun artifact => ?_
  exact .bind (asks_stage (.known _)) fun _ => .known _

/-! ## Preparing an artifact -/

/-- Preparing an artifact leaves the store alone. -/
theorem store_run_prepare (id : String) (s : σ) :
    W.store (W.run (a.prepare id).run s).2 = W.store s := by
  refine W.store_run_within (a.asks_prepare a.source.asks_isOutside id) (fun q s hq => ?_) s
  rcases hq with rfl | ⟨e, rfl⟩ | ⟨x, rfl⟩ | ⟨hq, -⟩
  · exact W.store_transact _ s
  · exact W.store_outside _ s rfl
  · exact W.store_answer_dump x s
  · exact W.store_outside q s hq

/-- What a store has to say of a job that is to be processed. -/
def processable (store : Store) (id : String) : Except Failure Job :=
  match store.job? id with
  | none => .error (.jobMissing id)
  | some job =>
    if job.status = .processing then .ok job else .error (.jobState job.id job.status.name)

/-- Looking up a job is one question, and yields what the store has to say of it. -/
theorem exists_run_load (id : String) (s : σ) :
    ∃ t, W.run (load id).run s = (processable (W.store s) id, t) ∧ W.store t = W.store s ∧
      W.asked (load id).run s = [(s, .transact (.find id))] := by
  obtain ⟨t, hrun, hstore⟩ := W.exists_run_transact (.find id) s
  have hfind : W.run (Lifecycle.find id).run s = (.ok ((W.store s).job? id), t) := hrun
  have hasked : W.asked (Lifecycle.find id).run s = [(s, .transact (.find id))] :=
    W.asked_transact _ _ (by simp [Store.perform])
  unfold load processable
  rw [W.run_bind_eq, hfind, W.asked_bind_of_ok hfind, hasked]
  -- What was found decides, and nothing more is asked.
  cases (W.store s).job? id with
  | none => exact ⟨t, rfl, hstore, rfl⟩
  | some job =>
    by_cases h : job.status = .processing
    · simp only [h, if_true]
      exact ⟨t, rfl, hstore, rfl⟩
    · simp only [h, if_false]
      exact ⟨t, rfl, hstore, rfl⟩

/-- What was prepared is an artifact of the job that was asked for, which is there, and the artifact
can be serialized. -/
theorem run_prepare_ok {p : Prepared} (h : W.run (a.prepare id).run s = (.ok p, t)) :
    p.job.id = id ∧ W.Serializes p.artifact ∧ ∃ r, (W.store s).jobs.lookup? id = some r := by
  unfold prepare at h
  obtain ⟨job, s₁, hload, h⟩ := W.run_bind_ok_iff.mp h
  obtain ⟨_, s₂, -, h⟩ := W.run_bind_ok_iff.mp h
  obtain ⟨_, s₃, -, h⟩ := W.run_bind_ok_iff.mp h
  obtain ⟨_, s₄, hbuild, h⟩ := W.run_bind_ok_iff.mp h
  obtain ⟨_, s₅, -, h⟩ := W.run_bind_ok_iff.mp h
  obtain ⟨hp, -⟩ := Prod.mk.inj h
  obtain rfl := Except.ok.inj hp
  obtain ⟨-, hserializes⟩ := run_build_ok W ((run_stage_ok_iff W).mp hbuild)
  -- The job is the one that was looked up under the name.
  obtain ⟨u, hrun, -, -⟩ := exists_run_load W id s
  rw [run_stage_ok_iff, hrun] at hload
  have hjob : processable (W.store s) id = .ok job := (Prod.mk.inj hload).1
  unfold processable at hjob
  split at hjob
  · cases hjob
  · rename_i found hfound
    obtain ⟨record, hrecord, rfl⟩ := Option.map_eq_some_iff.mp hfound
    split at hjob
    · exact ⟨congrArg Job.id (Except.ok.inj hjob).symm, hserializes, record, hrecord⟩
    · cases hjob

/-! ## Storing and copying it -/

/-- Storing what was prepared completes the job. The artifact is dumped, and then it is stored. -/
theorem exists_run_complete {p : Prepared} (h : W.run (a.prepare id).run s = (.ok p, t)) :
    ∃ r u v, (W.store s).jobs.lookup? id = some r ∧
      W.run (Lifecycle.complete id p.artifact).run t = (.ok (), u) ∧
      W.store u = ⟨(W.store s).jobs.insert id r.completed,
        (W.store s).artifacts.insert id ⟨p.artifact.toJson, p.artifact.digest⟩⟩ ∧
      W.asked (Lifecycle.complete id p.artifact).run t =
        [(t, .dump p.artifact), (v, .transact (.complete id p.artifact))] := by
  obtain ⟨-, hserializes, r, hr⟩ := run_prepare_ok W a h
  have hstore : W.store t = W.store s := by
    rw [← store_run_prepare W a id s, h]
  obtain ⟨u, hrun, hstored⟩ := Lifecycle.exists_run_complete W hserializes id t
  have hasked := W.asked_transact (.complete id p.artifact) (W.answer (.dump p.artifact) t).2
  rw [W.store_answer_dump, hstore, Store.perform_complete hr] at hasked
  rw [hstore, Store.perform_complete hr] at hrun hstored
  refine ⟨r, u, (W.answer (.dump p.artifact) t).2, hr, hrun, hstored, ?_⟩
  unfold Lifecycle.complete
  rw [W.asked_bind_of_ok (W.run_serialize hserializes t), W.asked_serialize,
    hasked fun hrefused => nomatch hrefused]
  rfl

/-- An analysis whose artifact was not prepared stops there. -/
theorem run_process_of_error {halt : Halt} (h : W.run (a.prepare id).run s = (.error halt, t)) :
    W.run (a.process id).run s = (.error halt, t) := by
  rw [process_eq]
  exact W.run_bind_error_iff.mpr (.inl h)

/-- Where an artifact is stored, it is then copied. -/
theorem run_persist_of_ok {artifact : Artifact} {u : σ}
    (hcomplete : W.run (Lifecycle.complete id artifact).run t = (.ok (), u)) :
    W.run (a.persist id artifact).run t =
      (.ok (W.run (a.copy id artifact) u).1, (W.run (a.copy id artifact) u).2) := by
  unfold persist
  rw [W.run_bind_eq, hcomplete]
  exact W.run_always ..

/-- An analysis whose artifact was prepared stores it, and reports where it was copied to. -/
theorem run_process_of_ok {p : Prepared} {u : σ} (h : W.run (a.prepare id).run s = (.ok p, t))
    (hcomplete : W.run (Lifecycle.complete id p.artifact).run t = (.ok (), u)) :
    W.run (a.process id).run s =
      (.ok (p.report (W.run (a.copy id p.artifact) u).1), (W.run (a.copy id p.artifact) u).2) := by
  obtain ⟨hid, -, -⟩ := run_prepare_ok W a h
  rw [process_eq, W.run_bind_ok_iff]
  refine ⟨p, t, h, W.run_bind_ok_iff.mpr ⟨_, _, ?_, rfl⟩⟩
  rw [hid, run_stage_ok_iff]
  exact run_persist_of_ok W a hcomplete

variable (pick : σ → Question → Option γ)

/-- From an analysis whose artifact was not prepared only that is gathered. -/
theorem gathered_process_of_error {halt : Halt}
    (h : W.run (a.prepare id).run s = (.error halt, t)) :
    W.gathered pick (a.process id).run s = W.gathered pick (a.prepare id).run s := by
  rw [process_eq]
  exact W.gathered_bind_of_error pick h

/-- From an analysis whose artifact was prepared there is gathered what storing it and copying it
add. -/
theorem gathered_process_of_ok {p : Prepared} {u : σ}
    (h : W.run (a.prepare id).run s = (.ok p, t))
    (hcomplete : W.run (Lifecycle.complete id p.artifact).run t = (.ok (), u)) :
    W.gathered pick (a.process id).run s =
      W.gathered pick (a.prepare id).run s ++
        (W.gathered pick (Lifecycle.complete id p.artifact).run t ++
          W.gathered pick (a.copy id p.artifact) u) := by
  obtain ⟨hid, -, -⟩ := run_prepare_ok W a h
  have hpersist := run_persist_of_ok W a hcomplete
  have hstage : W.run (stage .persist (a.persist id p.artifact)).run t =
      (.ok (W.run (a.copy id p.artifact) u).1, (W.run (a.copy id p.artifact) u).2) :=
    (run_stage_ok_iff W).mpr hpersist
  have hgathered : W.gathered pick (a.persist id p.artifact).run t =
      W.gathered pick (Lifecycle.complete id p.artifact).run t ++
        W.gathered pick (a.copy id p.artifact) u := by
    unfold persist
    rw [W.gathered_bind_of_ok pick hcomplete, W.gathered_always]
  rw [process_eq, W.gathered_bind_of_ok pick h, hid, W.gathered_bind_of_ok pick hstage,
    gathered_stage, hgathered]
  -- Nothing is asked for a report.
  exact congrArg _ (List.append_nil _)

variable {pick} in
/-- From copying an artifact it is gathered that it is put, if there is a bucket, where events are
of no interest. -/
theorem gathered_copy (hlog : ∀ s e, pick s (.log e) = none) (artifact : Artifact) (s : σ) :
    W.gathered pick (a.copy id artifact) s =
      a.bucket.toList.flatMap fun b => (pick s (.put (b.artifactObject id artifact))).toList := by
  unfold copy
  cases a.bucket with
  | none => rfl
  | some b =>
    simp only [Option.toList_some, List.flatMap_singleton]
    rw [W.gathered_bind, W.gathered_of_asked pick (W.asked_query ..)]
    -- Nothing of interest follows, whatever the bucket replies.
    cases (W.run (Activity.query (.put (b.artifactObject id artifact))) s).1 with
    | ok u => exact List.append_nil _
    | error f =>
      rw [W.gathered_bind, W.gathered_log pick hlog]
      exact List.append_nil _

/-! ## The analysis of a claimed job -/

variable {pick} in
/-- From making a job a failed one that is gathered, where events are of no interest. -/
theorem gathered_halted (hlog : ∀ s e, pick s (.log e) = none) {halt : Halt}
    (hcause : halt.cause.disownsJob = false) (hr : (W.store s).jobs.lookup? id = some r) :
    ∃ v, W.gathered pick (halted id halt) s =
      (pick v (.transact (.fail id (haltMessage halt.cause)))).toList := by
  have hlogged := W.store_run_log .error .analysis "job_failed" [("job_id", .str id),
    ("stage", .str halt.stage.name), ("error", .str (haltMessage halt.cause))] s
  unfold halted
  simp only [hcause, Bool.false_eq_true, if_false]
  rw [W.gathered_bind, W.gathered_log pick hlog, List.nil_append]
  generalize (W.run (Activity.log .error .analysis "job_failed" [("job_id", .str id),
    ("stage", .str halt.stage.name), ("error", .str (haltMessage halt.cause))]) s).2 = v
    at hlogged ⊢
  rw [← hlogged] at hr
  obtain ⟨u, hrun, -⟩ := W.exists_run_transact (.fail id (haltMessage halt.cause)) v
  have hgathered := W.gathered_transact pick (.fail id (haltMessage halt.cause)) v
  rw [Store.perform_fail hr] at hrun hgathered
  refine ⟨v, ?_⟩
  unfold recordFailure Lifecycle.fail
  rw [W.gathered_bind, W.gathered_bind, hgathered (fun hrefused => nomatch hrefused), hrun]
  -- A failure that was recorded is not logged.
  simp

variable {pick} in
/-- From a job that is disowned nothing is gathered, where events are of no interest. -/
theorem gathered_halted_of_disowns (hlog : ∀ s e, pick s (.log e) = none) {halt : Halt}
    (hcause : halt.cause.disownsJob = true) (id : String) (s : σ) :
    W.gathered pick (halted id halt) s = [] := by
  unfold halted
  simp only [hcause, if_true]
  rw [W.gathered_bind, W.gathered_log pick hlog]
  rfl

section Whole

variable {pick} {may : Question → Prop} (hsource : a.source.Asks may)
  (hpick : ∀ s q, IsPreparing may id q → pick s q = none)
include hsource hpick

/-- Nothing is gathered from preparing an artifact where what it asks is of no interest. -/
theorem gathered_prepare (s : σ) : W.gathered pick (a.prepare id).run s = [] :=
  W.gathered_eq_nil pick (a.asks_prepare hsource id) hpick s

/-- From an analysis whose artifact was not prepared that is gathered which the failure leads to. -/
theorem gathered_runClaimed_eq {halt : Halt}
    (h : W.run (a.prepare id).run s = (.error halt, t)) :
    W.gathered pick (a.runClaimed id) s = W.gathered pick (halted id halt) t := by
  unfold runClaimed
  rw [W.gathered_bind, gathered_process_of_error W a pick h, gathered_prepare W a hsource hpick,
    run_process_of_error W a h, W.gathered_bind]
  simp

/-- An analysis whose artifact was not prepared makes the job a failed one, and that is what is
gathered from it. -/
theorem gathered_runClaimed_of_error (hr : (W.store s).jobs.lookup? id = some r) {halt : Halt}
    (h : W.run (a.prepare id).run s = (.error halt, t)) (hcause : halt.cause.disownsJob = false) :
    ∃ v, W.gathered pick (a.runClaimed id) s =
      (pick v (.transact (.fail id (haltMessage halt.cause)))).toList := by
  have hstore : W.store t = W.store s := by
    rw [← store_run_prepare W a id s, h]
  rw [← hstore] at hr
  obtain ⟨v, hhalted⟩ := gathered_halted W (fun s e => hpick s _ (.inr (.inl ⟨e, rfl⟩))) hcause hr
  exact ⟨v, (gathered_runClaimed_eq W a hsource hpick h).trans hhalted⟩

/-- An analysis whose source disowns the job does nothing more, and nothing is gathered from it. -/
theorem gathered_runClaimed_of_disowned {halt : Halt}
    (h : W.run (a.prepare id).run s = (.error halt, t)) (hcause : halt.cause.disownsJob = true) :
    W.gathered pick (a.runClaimed id) s = [] :=
  (gathered_runClaimed_eq W a hsource hpick h).trans
    (gathered_halted_of_disowns W (fun s e => hpick s _ (.inr (.inl ⟨e, rfl⟩))) hcause id t)

/-- From an analysis whose artifact was prepared there is gathered that it completes the job, and
what copying the artifact adds. -/
theorem gathered_runClaimed_of_ok {p : Prepared} {u : σ}
    (h : W.run (a.prepare id).run s = (.ok p, t))
    (hcomplete : W.run (Lifecycle.complete id p.artifact).run t = (.ok (), u)) :
    ∃ v, W.gathered pick (a.runClaimed id) s =
      (pick v (.transact (.complete id p.artifact))).toList ++
        W.gathered pick (a.copy id p.artifact) u := by
  have hlog : ∀ s e, pick s (.log e) = none := fun s e => hpick s _ (.inr (.inl ⟨e, rfl⟩))
  have hdump : pick t (.dump p.artifact) = none := hpick t _ (.inr (.inr (.inl ⟨_, rfl⟩)))
  obtain ⟨-, -, v, -, -, -, hasked⟩ := exists_run_complete W a h
  -- Dumping the artifact is of no interest.
  have hgathered : W.gathered pick (Lifecycle.complete id p.artifact).run t =
      (pick v (.transact (.complete id p.artifact))).toList := by
    unfold World.gathered
    simp only [hasked, List.filterMap_cons, hdump, List.filterMap_nil]
    cases pick v (.transact (.complete id p.artifact)) <;> rfl
  refine ⟨v, ?_⟩
  unfold runClaimed
  rw [W.gathered_bind, gathered_process_of_ok W a pick h hcomplete,
    gathered_prepare W a hsource hpick, hgathered, run_process_of_ok W a h hcomplete,
    W.gathered_bind, W.gathered_log pick hlog]
  simp

end Whole

end Analyser

end RepoGraph
