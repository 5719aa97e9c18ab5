import RepoGraph.Command.Run
import RepoGraph.Proofs.Analysis.Declined
import RepoGraph.Proofs.Command.Words

/-!
# Invocations one after another

A repository is submitted, its job is run, and then looked at, each by an invocation of its own on
the same store (`World.Invokes`). What the invocations print agrees (`submit_run_poll_agree`): the
run succeeds exactly if the job is shown completed afterwards, and tells of the very artifact that
is shown; otherwise both tell the same error. Another run comes to nothing, and what is shown stays
the same.

Each command is known by what it does to the store and what it answers from it. A job is shown as
the store has it at that moment (`Store.view`), so that two looks at stores with the same content
are the same, and the run of a pending job has two ends (`exists_run_of_pending`).
-/

namespace RepoGraph

open RepoGraph.Text

/-- The JSON value that is printed for an answer. -/
def Answer.json (a : Answer) : Json := .obj a.members

/-- The job as it is shown of a store. -/
def Store.view (s : Store) (id : String) : Except Failure JobView :=
  match s.job? id with
  | none => .error (.unknownJob id)
  | some job => if job.status = .completed then (s.artifact? id).map (⟨job, ·⟩) else .ok ⟨job, none⟩

/-- What the ending tells is stored: the artifact that is reported of a completed job, or the error
of a failed one. -/
inductive Ending.IsStored (id : String) (store : Store) : Ending → Prop
  /-- The job was completed with an artifact. -/
  | completed (report : Report) (artifact : Artifact) (r : JobRecord)
      (hjob : store.jobs.lookup? id = some r.completed)
      (hartifact : store.artifacts.lookup? id = some ⟨artifact.toJson, artifact.digest⟩)
      (hnodes : report.nodes = artifact.nodes.length)
      (hedges : report.edges = artifact.edges.length)
      (hdigest : report.digest = artifact.digest) : IsStored id store (.completed report)
  /-- The job failed, which was recorded. -/
  | failed (stage : Stage) (message : String) (r : JobRecord)
      (hjob : store.jobs.lookup? id = some (r.failed message)) :
    IsStored id store (.failed stage message true)

/-- A job that is not claimed is answered by a failure to claim it. -/
theorem Command.exists_answerOutcome_of_not_claimed {o : Outcome} (h : o.isClaimed = false) :
    ∃ message, answerOutcome o = .failure Stage.claim.name message := by
  obtain ⟨id, ending⟩ := o
  cases ending with
  | notClaimed | notProcessable => exact ⟨_, rfl⟩
  | failed | completed => cases h

/-- A line that submits a repository is read as that. -/
theorem Arguments.parse_submit {url : String} {repository : Repository}
    (h : Repository.ofUrl? url = some repository) :
    parse ["submit", url] = .ok ⟨none, false, .submit url none⟩ :=
  parse_pair (by decide) (Repository.isWord_of_ofUrl? h) rfl rfl rfl

/-- A line that runs a job is read as that. -/
theorem Arguments.parse_run {id : String} (h : Command.IsWord id) :
    parse ["run", id] = .ok ⟨none, false, .run id⟩ :=
  parse_pair (by decide) h rfl rfl rfl

namespace World

variable {σ : Type} (W : World σ) (settings : Settings) {s s' : σ}

/-! ## Before a command -/

/-- The state in which events are logged. -/
def logged (s : σ) : σ := (W.run settings.openLog.run s).2

/-- The state in which the store is open. -/
def opened (s : σ) : σ := (W.answer (.openStore settings.databaseUrl) (W.logged settings s)).2

/-- The log can be opened, and so can the store, in which that changes nothing. -/
structure Opens : Prop where
  /-- Events can be logged from the level of the log. -/
  log : ∃ least, Log.threshold settings.logLevel = .ok least
  /-- The store is opened. -/
  ok : ∀ s, (W.answer (.openStore settings.databaseUrl) s).1 = .ok ()
  /-- Jobs and artifacts stay as they are. -/
  store : ∀ s, W.store (W.answer (.openStore settings.databaseUrl) s).2 = W.store s

/-- The name that a job gets that is submitted now. -/
def nextName (s : σ) : String := (W.answer .newJob (W.opened settings s)).1.1

/-- The program is called with some arguments, and prints an answer. -/
def Invokes (env : Environment) (words : List String) (s : σ) (a : Answer) (s' : σ) : Prop :=
  ∃ args, Arguments.parse words = .ok args ∧ W.run (args.perform env).run s = (.ok a, s')

variable {settings}

variable {W} in
/-- The log is opened, which leaves the store alone. -/
theorem Opens.run_openLog (h : W.Opens settings) (s : σ) :
    W.run settings.openLog.run s = (.ok (), W.logged settings s) ∧
      W.store (W.logged settings s) = W.store s := by
  obtain ⟨least, hleast⟩ := h.log
  have hopen : settings.openLog =
      Action.always (Activity.query (.openLog least settings.logJson)) := by
    unfold Settings.openLog
    rw [hleast]
    rfl
  unfold logged
  rw [hopen, run_always, run_query]
  exact ⟨rfl, W.store_outside _ s rfl⟩

variable {W} in
/-- Before a command the store is as it was. -/
theorem Opens.store_opened (h : W.Opens settings) (s : σ) :
    W.store (W.opened settings s) = W.store s :=
  (h.store _).trans (h.run_openLog s).2

/-- A command is answered by the value of `carryOut`, if that does not fail. -/
theorem run_answer {c : Command} {a : Answer}
    (h : W.run (c.carryOut settings).run s = (.ok a, s')) :
    W.run (c.answer settings) s = (a, s') := by
  unfold Command.answer
  rw [run_bind, h, run_pure]

/-- An action that begins with opening the store goes on in the state `opened`. -/
theorem run_openStore {α : Type} (h : W.Opens settings) {f : Unit → Action α} :
    W.run (Action.demand (.openStore settings.databaseUrl) id >>= f).run (W.logged settings s) =
      W.run (f ()).run (W.opened settings s) := by
  have hopen : W.run (Action.demand (.openStore settings.databaseUrl) id).run
      (W.logged settings s) = (.ok (), W.opened settings s) := by
    unfold Action.demand
    rw [ExceptT.run_mk, run_bind, run_query, run_pure, id, h.ok]
    rfl
  rw [run_bind_eq, hopen]

/-- `Invokes` of a line that is read as a command without variables to load is `answer` of that
command. -/
theorem invokes_iff_of_parse {env : Environment} (hopens : W.Opens (.ofEnvironment env))
    {words : List String} {c : Command}
    (hparse : Arguments.parse words = .ok ⟨none, false, c⟩) {a : Answer} :
    W.Invokes env words s a s' ↔
      W.run (c.answer (.ofEnvironment env)) (W.logged (.ofEnvironment env) s) = (a, s') := by
  have hperform : W.run (Arguments.perform ⟨none, false, c⟩ env).run s =
      (.ok (W.run (c.answer (.ofEnvironment env)) (W.logged (.ofEnvironment env) s)).1,
        (W.run (c.answer (.ofEnvironment env)) (W.logged (.ofEnvironment env) s)).2) := by
    rw [Arguments.perform_of_none rfl]
    unfold Arguments.performWith
    rw [run_bind_eq, (hopens.run_openLog s).1]
    dsimp only
    rw [run_always]
  constructor
  · rintro ⟨args, hargs, hrun⟩
    obtain rfl := Except.ok.inj (hparse.symm.trans hargs)
    rw [hperform] at hrun
    obtain ⟨ha, hs'⟩ := Prod.mk.inj hrun
    exact Prod.ext (Except.ok.inj ha) hs'
  · intro h
    rw [h] at hperform
    exact ⟨_, hparse, hperform⟩

/-- A line that is read as a command without variables to load has the answer of the command. -/
theorem invokes_of_parse {env : Environment} (hopens : W.Opens (.ofEnvironment env))
    {words : List String} {c : Command}
    (hparse : Arguments.parse words = .ok ⟨none, false, c⟩) {a : Answer}
    (h : W.run (c.answer (.ofEnvironment env)) (W.logged (.ofEnvironment env) s) = (a, s')) :
    W.Invokes env words s a s' :=
  (W.invokes_iff_of_parse hopens hparse).mpr h

/-! ## What the commands do -/

/-- A job of a name that is not taken is entered. -/
theorem exists_run_create {url : String} {repository : Repository}
    (hurl : Repository.ofUrl? url = some repository)
    (hnew : (W.store s).jobs.lookup? (W.answer .newJob s).1.1 = none) :
    let record : JobRecord := { repository, url, createdAt := (W.answer .newJob s).1.2 }
    ∃ t, W.run (Lifecycle.create url none).run s =
        (.ok { record with id := (W.answer .newJob s).1.1 }, t) ∧
      W.store t = { W.store s with
        jobs := (W.store s).jobs.insert (W.answer .newJob s).1.1 record.stored } := by
  intro record
  have hnamed : W.store (W.answer .newJob s).2 = W.store s := W.store_outside _ _ rfl
  obtain ⟨t, hrun, hstore⟩ := W.exists_run_transact (.insert (W.answer .newJob s).1.1 record)
    (W.answer .newJob s).2
  rw [hnamed, Store.perform_insert hnew] at hrun hstore
  refine ⟨_, ?_, (W.store_run_log .info .store "job_created"
    [("job_id", .str (W.answer .newJob s).1.1), ("repo", .str repository.fullName)] t).trans
      hstore⟩
  unfold Lifecycle.create
  rw [hurl]
  dsimp only
  rw [run_bind_eq, run_always, run_query]
  show W.run (Action.transact (.insert (W.answer .newJob s).1.1 record) >>= fun _ => _).run _ = _
  rw [run_bind_eq, hrun]
  rfl

/-- The record of a job that is submitted now. -/
def nextRecord (settings : Settings) (repository : Repository) (url : String) (s : σ) : JobRecord :=
  { repository, url, createdAt := (W.answer .newJob (W.opened settings s)).1.2 }

/-- Submitting a repository enters a job of a name that is not taken. -/
theorem exists_run_submit (hopens : W.Opens settings) {url : String} {repository : Repository}
    (hurl : Repository.ofUrl? url = some repository)
    (hnew : (W.store s).jobs.lookup? (W.nextName settings s) = none) :
    ∃ t, W.run (Command.answer settings (.submit url none)) (W.logged settings s) =
        (.success [("jobId", .str (W.nextName settings s)), ("status", .str "PENDING")], t) ∧
      W.store t = { W.store s with
        jobs := (W.store s).jobs.insert (W.nextName settings s)
          (W.nextRecord settings repository url s).stored } := by
  rw [← hopens.store_opened s] at hnew ⊢
  obtain ⟨t, hcreate, hstore⟩ := W.exists_run_create hurl hnew
  have hsubmit : W.run (Service.submit url none).run (W.opened settings s) =
      (.ok { W.nextRecord settings repository url s with id := W.nextName settings s }, t) :=
    hcreate
  refine ⟨t, W.run_answer ?_, hstore⟩
  unfold Command.carryOut
  rw [W.run_openStore hopens, run_bind_eq, hsubmit]
  rfl

/-- Looking at a job shows it as the store has it, and changes nothing. -/
theorem exists_run_poll (s : σ) (id : String) :
    ∃ t, W.run (Service.poll id).run s = ((W.store s).view id, t) ∧ W.store t = W.store s := by
  obtain ⟨t, hfind, hstore⟩ := W.exists_run_transact (.find id) s
  have hjob : W.run (Lifecycle.find id).run s = (.ok ((W.store s).job? id), t) := hfind
  unfold Service.poll Store.view
  rw [run_bind_eq, hjob]
  cases (W.store s).job? id with
  | none => exact ⟨t, rfl, hstore⟩
  | some job =>
    dsimp only
    split
    · obtain ⟨u, hartifact, hstore'⟩ := W.exists_run_transact (.artifact id) t
      rw [hstore] at hartifact hstore'
      refine ⟨u, ?_, hstore'⟩
      have hlook : W.run (Lifecycle.artifact id).run t = ((W.store s).artifact? id, u) := hartifact
      rw [run_bind_eq, hlook]
      cases (W.store s).artifact? id <;> rfl
    · exact ⟨t, rfl, hstore⟩

/-- Claiming and analysing a pending job ends in one of two ways, and the store says which, where
the source does not fail as the loading of a job does. -/
theorem exists_run_of_pending (a : Analyser) (ha : a.source.SparesJobs) {id : String}
    {r : JobRecord} (h : (W.store s).jobs.lookup? id = some r) (hpending : r.status = .pending) :
    ∃ ending t, W.run (a.run id) s = (⟨id, ending⟩, t) ∧ Ending.IsStored id (W.store t) ending := by
  -- The claim succeeds, and the stages begin with the job processing.
  obtain ⟨t, hclaim, hstore⟩ := Analyser.run_claim W h hpending
  have hclaimed : (W.store t).jobs.lookup? id = some r.claimed := by
    rw [hstore]
    exact Table.lookup?_insert_self ..
  rw [Analyser.run_eq_runClaimed W a hclaim]
  cases hprocess : W.run (a.process id).run t with
  | mk res u =>
    cases res with
    | ok report =>
      obtain ⟨-, outcomes, -, -, -, -, -, hreports, hstored⟩ :=
        Analyser.run_process_ok W a hclaimed rfl hprocess
      obtain ⟨v, hdone, hstore'⟩ := Analyser.run_runClaimed_ok W a hprocess
      refine ⟨_, v, hdone, ?_⟩
      rw [hstore', hstored]
      exact .completed report _ r.claimed (Table.lookup?_insert_self ..)
        (Table.lookup?_insert_self ..) hreports.nodes hreports.edges hreports.digest
    | error halt =>
      obtain ⟨_, -, hsame, hstopped⟩ := Analyser.run_process_error W a hclaimed rfl hprocess
      have hcause : halt.cause.disownsJob = false :=
        hstopped.elim (fun hfails => hfails.disownsJob_eq_false ha) fun hcause => hcause
      have hr : (W.store u).jobs.lookup? id = some r.claimed := by rw [hsame, hclaimed]
      obtain ⟨v, hdone, hstored⟩ := Analyser.run_runClaimed_error W a hprocess hcause hr
      refine ⟨_, v, hdone, ?_⟩
      rw [hstored]
      exact .failed halt.stage _ r.claimed (Table.lookup?_insert_self ..)

/-! ## What the commands are answered by -/

/-- A look at a job of a store is answered by what the store has of it. -/
theorem exists_answer_poll (hopens : W.Opens settings) {id : String} {v : JobView}
    (h : (W.store s).view id = .ok v) :
    ∃ t, W.run (Command.answer settings (.poll id)) (W.logged settings s) =
        (.success v.members, t) ∧ W.store t = W.store s := by
  obtain ⟨t, hpoll, hstore⟩ := W.exists_run_poll (W.opened settings s) id
  rw [hopens.store_opened s] at hpoll hstore
  rw [h] at hpoll
  refine ⟨t, W.run_answer ?_, hstore⟩
  unfold Command.carryOut
  rw [W.run_openStore hopens, run_bind_eq, hpoll]
  rfl

/-- The run of a job is answered by how the analysis ends. -/
theorem run_answer_run (hopens : W.Opens settings) {id : String} {o : Outcome} {t : σ}
    (h : W.run ((Analyser.ofSettings settings).run id) (W.opened settings s) = (o, t)) :
    W.run (Command.answer settings (.run id)) (W.logged settings s) =
      (Command.answerOutcome o, t) := by
  refine W.run_answer ?_
  unfold Command.carryOut
  rw [W.run_openStore hopens, run_bind_eq]
  unfold Service.run
  rw [run_always, h]
  rfl

/-- The run of a pending job is answered by an ending that is stored. -/
theorem exists_answer_run_of_pending (hopens : W.Opens settings) {id : String} {r : JobRecord}
    (h : (W.store s).jobs.lookup? id = some r) (hpending : r.status = .pending) :
    ∃ ending t, W.run (Command.answer settings (.run id)) (W.logged settings s) =
        (Command.answerOutcome ⟨id, ending⟩, t) ∧ Ending.IsStored id (W.store t) ending := by
  rw [← hopens.store_opened s] at h
  obtain ⟨ending, t, hrun, hstored⟩ :=
    W.exists_run_of_pending (.ofSettings settings) (GitHub.sparesJobs_source _) h hpending
  exact ⟨ending, t, W.run_answer_run hopens hrun, hstored⟩

/-- The run of a job that is not pending is answered by a failure to claim it, and changes
nothing. -/
theorem exists_answer_run_of_ne_pending (hopens : W.Opens settings) {id : String}
    (h : ∀ r, (W.store s).jobs.lookup? id = some r → r.status ≠ .pending) :
    ∃ message t, W.run (Command.answer settings (.run id)) (W.logged settings s) =
        (.failure Stage.claim.name message, t) ∧ W.store t = W.store s := by
  rw [← hopens.store_opened s] at h
  obtain ⟨⟨hstore, -, -, hunclaimed, -, -⟩, -⟩ :=
    Analyser.run_of_ne_pending W (.ofSettings settings) h
  obtain ⟨message, hanswer⟩ := Command.exists_answerOutcome_of_not_claimed hunclaimed
  refine ⟨message, _, ?_, hstore.trans (hopens.store_opened s)⟩
  rw [← hanswer]
  exact W.run_answer_run hopens rfl

end World

/-! ## What the answers have in common -/

/-- The answers to a run of a job and to a look at it after that agree. -/
structure Answer.Agree (ran polled : Answer) : Prop where
  /-- The job can be looked at. -/
  isShown : polled.exitCode = 0
  /-- The run succeeds, and says so, exactly if the job is shown completed. -/
  succeeds : ran.exitCode = 0 ∧ ran.json.get? "ok" = some (.bool true) ↔
    polled.json.get? "status" = some (.str "COMPLETED")
  /-- If the job is shown completed, the run told of the artifact that is shown: its digest, and how
  many nodes and edges it has. -/
  completed : polled.json.get? "status" = some (.str "COMPLETED") →
    ∃ artifact nodes edges counts, polled.json.get? "artifact" = some artifact ∧
      artifact.get? "nodes" = some (.arr nodes) ∧ artifact.get? "edges" = some (.arr edges) ∧
      ran.json.get? "artifact_sha256" = some (.str (Digest.sha256Text artifact.stable)) ∧
      ran.json.get? "counts" = some counts ∧ counts.get? "nodes" = some (.int nodes.length) ∧
      counts.get? "edges" = some (.int edges.length)
  /-- If it is not, it is shown as a failed one without artifact, and the run failed with the error
  that is shown. -/
  failed : polled.json.get? "status" ≠ some (.str "COMPLETED") →
    ran.exitCode = 1 ∧ ran.json.get? "ok" = some (.bool false) ∧
      polled.json.get? "status" = some (.str "FAILED") ∧
      polled.json.get? "artifact" = some .null ∧
      ∃ message, polled.json.get? "error" = some (.str message) ∧
        ran.json.get? "error_message" = some (.str message)

/-- The answer to a run agrees with what is shown of the store that it led to. -/
theorem Ending.IsStored.agree {id : String} {store : Store} {ending : Ending}
    (h : ending.IsStored id store) :
    ∃ v, store.view id = .ok v ∧
      (Command.answerOutcome ⟨id, ending⟩).Agree (.success v.members) := by
  cases h with
  | completed report artifact r hjob hartifact hnodes hedges hdigest =>
    have hview : store.view id = .ok ⟨{ r.completed with id }, some artifact⟩ := by
      simp only [Store.view, Store.job?, hjob, Option.map_some, JobRecord.completed, if_true,
        Store.artifact?, hartifact, Artifact.decode_toJson, Except.map]
    refine ⟨_, hview, rfl, iff_of_true ⟨rfl, rfl⟩ rfl, fun _ => ?_, fun hother => absurd rfl hother⟩
    refine ⟨artifact.toJson, artifact.nodes.map Node.toJson, artifact.edges.map Edge.toJson, _, rfl,
      rfl, rfl, ?_, rfl, ?_, ?_⟩
    · show some (Json.str report.digest) = _
      rw [hdigest]
      rfl
    · show some (Json.int report.nodes) = _
      rw [hnodes, List.length_map]
    · show some (Json.int report.edges) = _
      rw [hedges, List.length_map]
  | failed stage message r hjob =>
    have hview : store.view id = .ok ⟨{ r.failed message with id }, none⟩ := by
      simp only [Store.view, Store.job?, hjob, Option.map_some, JobRecord.failed]
      rfl
    have hstatus : (Answer.success (JobView.members ⟨{ r.failed message with id }, none⟩)).json.get?
        "status" = some (.str "FAILED") := rfl
    have hother : (Answer.success (JobView.members ⟨{ r.failed message with id }, none⟩)).json.get?
        "status" ≠ some (.str "COMPLETED") := by
      rw [hstatus]
      simp
    have hcode : (Command.answerOutcome ⟨id, .failed stage message true⟩).exitCode = 1 := rfl
    have hnotOk : ¬((Command.answerOutcome ⟨id, .failed stage message true⟩).exitCode = 0 ∧
        (Command.answerOutcome ⟨id, .failed stage message true⟩).json.get? "ok" =
          some (.bool true)) := by
      rw [hcode]
      exact fun hok => absurd hok.1 (by decide)
    exact ⟨_, hview, rfl, iff_of_false hnotOk hother, fun hcompleted => absurd hcompleted hother,
      fun _ => ⟨rfl, rfl, hstatus, rfl, message, rfl, rfl⟩⟩

/-- A job of which an ending is stored is not pending. -/
theorem Ending.IsStored.ne_pending {id : String} {store : Store} {ending : Ending}
    (h : ending.IsStored id store) :
    ∀ r, store.jobs.lookup? id = some r → r.status ≠ .pending := by
  intro r hr
  cases h with
  | completed _ _ _ hjob =>
    obtain rfl := Option.some.inj (hjob.symm.trans hr)
    simp [JobRecord.completed]
  | failed _ _ _ hjob =>
    obtain rfl := Option.some.inj (hjob.symm.trans hr)
    simp [JobRecord.failed]

namespace World

variable {σ : Type} (W : World σ) {s : σ}

/-- `submit` of a repository, and `run`, `poll`, `run` and `poll` of its job after that, each by an
invocation of its own. The first `run` and the `poll` after it have answers that `Agree`, the second
`run` fails to claim the job, and the second `poll` prints what the first one did. -/
theorem submit_run_poll_agree (env : Environment) {url : String}
    (hurl : ∃ repository, Repository.ofUrl? url = some repository)
    (hopens : W.Opens (.ofEnvironment env))
    (hnew : (W.store s).jobs.lookup? (W.nextName (.ofEnvironment env) s) = none)
    (hword : Command.IsWord (W.nextName (.ofEnvironment env) s)) :
    ∃ submitted ran polled again polledAgain s₁ s₂ s₃ s₄ s₅,
      let id := W.nextName (.ofEnvironment env) s
      (W.Invokes env ["submit", url] s submitted s₁ ∧ submitted.exitCode = 0 ∧
        submitted.json.get? "jobId" = some (.str id)) ∧
      W.Invokes env ["run", id] s₁ ran s₂ ∧
      W.Invokes env ["poll", id] s₂ polled s₃ ∧ ran.Agree polled ∧
      (W.Invokes env ["run", id] s₃ again s₄ ∧ again.exitCode = 1 ∧
        again.json.get? "ok" = some (.bool false) ∧
        again.json.get? "stage" = some (.str "claim")) ∧
      W.Invokes env ["poll", id] s₄ polledAgain s₅ ∧ polledAgain.line = polled.line := by
  obtain ⟨repository, hurl⟩ := hurl
  -- The lines are read as the commands.
  have hsubmit := Arguments.parse_submit hurl
  have hrun := Arguments.parse_run hword
  have hpoll : Arguments.parse ["poll", W.nextName (.ofEnvironment env) s] =
      .ok ⟨none, false, .poll (W.nextName (.ofEnvironment env) s)⟩ :=
    Arguments.parse_pair (by decide) hword rfl rfl rfl
  -- The job is entered as a pending one, and so the run claims it.
  obtain ⟨s₁, hsubmitted, hstore₁⟩ := W.exists_run_submit hopens hurl hnew
  have hjob : (W.store s₁).jobs.lookup? (W.nextName (.ofEnvironment env) s) =
      some (W.nextRecord (.ofEnvironment env) repository url s).stored := by
    rw [hstore₁]
    exact Table.lookup?_insert_self ..
  obtain ⟨ending, s₂, hran, hstored⟩ := W.exists_answer_run_of_pending hopens hjob rfl
  obtain ⟨v, hview, hagree⟩ := hstored.agree
  obtain ⟨s₃, hpolled, hstore₃⟩ := W.exists_answer_poll hopens hview
  -- After that it is not pending, so that another run leaves the store alone.
  have hended := hstored.ne_pending
  rw [← hstore₃] at hended hview
  obtain ⟨message, s₄, hagain, hstore₄⟩ := W.exists_answer_run_of_ne_pending hopens hended
  rw [← hstore₄] at hview
  obtain ⟨s₅, hpolledAgain, -⟩ := W.exists_answer_poll hopens hview
  exact ⟨_, _, _, _, _, s₁, s₂, s₃, s₄, s₅,
    ⟨W.invokes_of_parse hopens hsubmit hsubmitted, rfl, rfl⟩, W.invokes_of_parse hopens hrun hran,
    W.invokes_of_parse hopens hpoll hpolled, hagree,
    ⟨W.invokes_of_parse hopens hrun hagain, rfl, rfl, rfl⟩,
    W.invokes_of_parse hopens hpoll hpolledAgain, rfl⟩

/-- A description of a repository, which is at once a list of its files: there is one. -/
def oneFile : Http.Response :=
  { status := 200
    body := Utf8.encode
      "\x7b\"tree\": [\x7b\"type\": \"blob\", \"path\": \"a.ts\"\x7d]\x7d".toList
    text := .ok "hi" }

/-- After `submit`, the answer of `run` is that of the command `run` in the state in which `submit`
was carried out. -/
theorem Invokes.eq_run_of_submit {env : Environment} (hopens : W.Opens (.ofEnvironment env))
    {url id : String} {submitted ran : Answer} {s₁ s₂ : σ}
    (hsubmit : Arguments.parse ["submit", url] = .ok ⟨none, false, .submit url none⟩)
    (hrun : Arguments.parse ["run", id] = .ok ⟨none, false, .run id⟩)
    (hsubmitted : W.Invokes env ["submit", url] s submitted s₁)
    (hran : W.Invokes env ["run", id] s₁ ran s₂) :
    let settings := Settings.ofEnvironment env
    let entered := (W.run ((Command.submit url none).answer settings) (W.logged settings s)).2
    ran = (W.run ((Command.run id).answer settings) (W.logged settings entered)).1 := by
  have hsubmitted := (W.invokes_iff_of_parse hopens hsubmit).mp hsubmitted
  have hran := (W.invokes_iff_of_parse hopens hrun).mp hran
  dsimp only
  rw [hsubmitted, hran]

/-- The invocations agree for a job that is completed, as its repository can be had, and for one
that fails, as it cannot. -/
theorem submit_run_poll_agree_reached_or_not :
    let reached := World.online "7f" fun _ => .ok oneFile
    let unreached := World.online "7f" fun _ => .error (.transport "ConnectError" "no network")
    let url := "https://github.com/octo/demo"
    (∀ W ∈ [reached, unreached], (∃ repository, Repository.ofUrl? url = some repository) ∧
        W.Opens (.ofEnvironment .empty) ∧
        (W.store .empty).jobs.lookup? (W.nextName (.ofEnvironment .empty) .empty) = none ∧
        Command.IsWord (W.nextName (.ofEnvironment .empty) .empty)) ∧
      (∃ ran polled s₁ s₂ s₃, reached.Invokes .empty ["run", "7f"] s₁ ran s₂ ∧
        reached.Invokes .empty ["poll", "7f"] s₂ polled s₃ ∧ ran.Agree polled ∧
        ran.exitCode = 0 ∧ polled.json.get? "status" = some (.str "COMPLETED")) ∧
      ∃ ran polled s₁ s₂ s₃, unreached.Invokes .empty ["run", "7f"] s₁ ran s₂ ∧
        unreached.Invokes .empty ["poll", "7f"] s₂ polled s₃ ∧ ran.Agree polled ∧
        ran.exitCode = 1 ∧ polled.json.get? "status" = some (.str "FAILED") := by
  intro reached unreached url
  have hurl : Repository.ofUrl? url = some ⟨"octo", "demo"⟩ := by decide +kernel
  have hopens (web) : (online "7f" web).Opens (.ofEnvironment .empty) :=
    ⟨⟨20, rfl⟩, fun _ => rfl, fun _ => rfl⟩
  have hnew (web) : ((online "7f" web).store .empty).jobs.lookup?
      ((online "7f" web).nextName (.ofEnvironment .empty) .empty) = none := rfl
  have hword (web) :
      Command.IsWord ((online "7f" web).nextName (.ofEnvironment .empty) .empty) := by
    show Command.IsWord "7f"
    decide
  have hsubmit := Arguments.parse_submit hurl
  have hrun := Arguments.parse_run (hword fun _ => .ok oneFile)
  refine ⟨?_, ?_, ?_⟩
  · simp only [List.forall_mem_cons]
    exact ⟨⟨⟨_, hurl⟩, hopens _, hnew _, hword _⟩, ⟨⟨_, hurl⟩, hopens _, hnew _, hword _⟩,
      List.forall_mem_nil _⟩
  · obtain ⟨_, ran, polled, _, _, s₁, s₂, s₃, _, _, ⟨hsubmitted, -⟩, hran, hpolled, hagree, -⟩ :=
      submit_run_poll_agree reached .empty ⟨_, hurl⟩ (hopens _) (hnew _) (hword _)
    have hcode : ran.exitCode = 0 := by
      rw [Invokes.eq_run_of_submit reached (hopens _) hsubmit hrun hsubmitted hran]
      decide +kernel
    have hok : ran.json.get? "ok" = some (.bool true) := by
      cases ran with
      | success => rfl
      | failure => cases hcode
    exact ⟨ran, polled, s₁, s₂, s₃, hran, hpolled, hagree, hcode,
      hagree.succeeds.mp ⟨hcode, hok⟩⟩
  · obtain ⟨_, ran, polled, _, _, s₁, s₂, s₃, _, _, ⟨hsubmitted, -⟩, hran, hpolled, hagree, -⟩ :=
      submit_run_poll_agree unreached .empty ⟨_, hurl⟩ (hopens _) (hnew _) (hword _)
    have hcode : ran.exitCode = 1 := by
      rw [Invokes.eq_run_of_submit unreached (hopens _) hsubmit hrun hsubmitted hran]
      decide +kernel
    have hfailed := hagree.failed fun hcompleted => by
      rw [(hagree.succeeds.mpr hcompleted).1] at hcode
      cases hcode
    exact ⟨ran, polled, s₁, s₂, s₃, hran, hpolled, hagree, hcode, hfailed.2.2.1⟩

end World

end RepoGraph
