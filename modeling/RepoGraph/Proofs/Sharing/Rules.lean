import RepoGraph.Proofs.Analysis.Stages
import RepoGraph.Proofs.Program
import RepoGraph.Worker

/-!
# How a party shares the store

Those who share a store keep to rules, though the store does not ask for it. A party without a job
may enter a new one, look for pending ones and try to claim one. A party that was granted a job may
look it up, complete it or make it a failed one, and does no more once that is done. Workers
(`obeys_runOnce`), those who analyse a given job (`obeys_run`) and those who create jobs
(`obeys_create`) follow these rules, and none of them ever finds that its job is not processing
when it loads it, as long as a job that it was granted and has not ended is. Only the source of its
snapshots can say so later, and then the party gives the job up without ending it.
-/

namespace RepoGraph.Sharing

open RepoGraph.Program

/-- How far a party has come with its job. -/
inductive Phase
  /-- The party was granted no job. -/
  | seeking
  /-- The party was granted a job and has not ended it. -/
  | holding (id : String)
  /-- The party has ended its job. -/
  | ended

namespace Phase

/-- `allows` of the rules: in `seeking` a pending job may be inserted, the oldest pending one looked
for and a job claimed, and in `holding id` that job found, completed and failed. -/
def MayTransact : Phase → Transaction → Prop
  | seeking, .insert _ record => record.status = .pending ∧ record.error = none
  | seeking, .claim _ => True
  | seeking, .oldestPending => True
  | holding id, .find other => other = id
  | holding id, .complete other _ => other = id
  | holding id, .fail other _ => other = id
  | _, _ => False

/-- `expects` of the rules: the reply is one with `SparesJob`, and in `holding id` the job that is
found is there and processing. -/
def Expects (phase : Phase) (t : Transaction) (reply : Except Failure t.Result) : Prop :=
  SparesJob reply ∧
    match phase, t, reply with
    | holding id, .find _, .ok job? =>
      ∃ job, job? = some job ∧ job.id = id ∧ job.status = .processing
    | _, _, _ => True

/-- `next` of the rules: a claim that succeeds leads to `holding`, and `complete` and `fail` that
succeed to `ended`. -/
def after : Phase → (t : Transaction) → Except Failure t.Result → Phase
  | seeking, .claim id, .ok true => holding id
  | holding _, .complete .., .ok _ => ended
  | holding _, .fail .., .ok _ => ended
  | phase, _, _ => phase

end Phase

/-- The protocol of those who share the store: transactions as the phase allows, and questions with
`isOutside` in any phase. -/
def rules : Protocol Question Question.Reply Phase where
  allows phase q :=
    match q with
    | .transact t => phase.MayTransact t
    | q => q.isOutside = true
  expects phase q reply :=
    match q, reply with
    | .transact t, reply => phase.Expects t reply
    | _, _ => True
  next phase q reply :=
    match q, reply with
    | .transact t, reply => phase.after t reply
    | _, _ => phase

variable {α β ε : Type} {phase : Phase}

/-- What lies outside may be asked about at any time. -/
theorem rules_of_isOutside (phase : Phase) {q : Question} (hq : q.isOutside = true) :
    rules.allows phase q ∧ ∀ r, rules.next phase q r = phase := by
  cases q with
  | transact t => cases hq
  | _ => exact ⟨hq, fun _ => rfl⟩

/-! ## Parts of programs -/

/-- A program that may fail follows the rules if its parts do, where the second one follows only if
the first one succeeded. -/
theorem obeys_bind {x : ExceptT ε Activity α} {f : α → ExceptT ε Activity β}
    {between : Phase → Except ε α → Prop} {ends : Phase → Except ε β → Prop}
    (hx : x.run.Obeys rules between phase)
    (hok : ∀ later a, between later (.ok a) → (f a).run.Obeys rules ends later)
    (herror : ∀ later e, between later (.error e) → ends later (.error e)) :
    (x >>= f).run.Obeys rules ends phase := by
  refine Obeys.bind hx fun later r hr => ?_
  cases r with
  | ok a => exact hok later a hr
  | error e => exact herror later e hr

/-- A program that leaves the store alone stays in its phase. -/
theorem obeys_of_within {ends : α → Prop} {p : Activity α}
    (h : p.Within (·.isOutside = true) ends) :
    p.Obeys rules (fun later a => later = phase ∧ ends a) phase :=
  .of_within (fun _ => rules_of_isOutside phase) h

/-- A detached action stays in its phase. -/
theorem obeys_of_detached {a : Action α} (h : a.IsDetached) :
    a.run.Obeys rules (fun later r => later = phase ∧ SparesJob r) phase :=
  obeys_of_within h

/-- Writing to the log stays in the phase. -/
theorem obeys_log (level : Log.Level) (part : Log.Part) (name : String)
    (fields : List (String × Json)) :
    (Activity.log level part name fields).Obeys rules (fun later _ => later = phase) phase :=
  ⟨rfl, fun _ _ => rfl⟩

/-- A transaction that is allowed leads to the next phase. -/
theorem obeys_transact {t : Transaction} (h : phase.MayTransact t) :
    (Action.transact t).run.Obeys rules
      (fun later r => later = phase.after t r ∧ phase.Expects t r) phase := by
  refine ⟨h, fun reply hreply => ?_⟩
  have hlogged : (Activity.logRefusal reply).Within (·.isOutside = true) fun _ => True := by
    unfold Activity.logRefusal
    split
    · exact ⟨rfl, fun _ => trivial⟩
    · trivial
  show ((Activity.logRefusal reply).bind fun _ => done reply).Obeys rules _ _
  refine Obeys.bind (obeys_of_within hlogged) fun later _ hlater => ?_
  obtain ⟨rfl, -⟩ := hlater
  exact ⟨rfl, hreply⟩

/-! ## Jobs -/

/-- Whoever creates a job enters a pending one without error. -/
theorem obeys_create (url : String) (requestedBy : Option String) :
    (Lifecycle.create url requestedBy).run.Obeys rules (fun _ _ => True) .seeking := by
  unfold Lifecycle.create
  split
  · trivial
  rename_i repository hrepository
  have hask : (Action.always (Activity.query .newJob)).IsDetached := ⟨rfl, fun reply => .ok reply⟩
  refine obeys_bind (obeys_of_detached hask) (fun later reply hlater => ?_) fun _ _ _ => trivial
  obtain ⟨rfl, -⟩ := hlater
  obtain ⟨id, now⟩ := reply
  refine obeys_bind (obeys_transact ⟨rfl, rfl⟩) (fun later _ hlater => ?_) fun _ _ _ => trivial
  exact obeys_bind (obeys_of_detached (.log ..)) (fun _ _ _ => trivial) fun _ _ _ => trivial

/-- A claim that succeeds grants the job, and one that does not grants none. -/
theorem obeys_claim (id : String) :
    (Lifecycle.claim id).run.Obeys rules
      (fun later r => ∀ granted, r = .ok granted →
        later = if granted then .holding id else .seeking) .seeking := by
  unfold Lifecycle.claim
  refine obeys_bind (obeys_transact trivial) (fun later claimed hlater => ?_)
    fun _ _ _ _ h => nomatch h
  obtain ⟨rfl, -⟩ := hlater
  cases claimed with
  | true =>
    refine obeys_bind (obeys_of_detached (.log ..)) (fun later _ hlater => ?_)
      fun _ _ _ _ h => nomatch h
    obtain ⟨rfl, -⟩ := hlater
    intro granted hgranted
    cases hgranted
    rfl
  | false =>
    intro granted hgranted
    cases hgranted
    rfl

/-- Looking up the job that was granted. -/
theorem obeys_find (id : String) :
    (Lifecycle.find id).run.Obeys rules
      (fun later r => later = .holding id ∧ SparesJob r ∧ ∀ job?, r = .ok job? →
        ∃ job, job? = some job ∧ job.id = id ∧ job.status = .processing) (.holding id) := by
  refine Obeys.mono (obeys_transact rfl) fun later r hlater => ?_
  obtain ⟨rfl, hspares, hjob⟩ := hlater
  refine ⟨rfl, hspares, fun job? hr => ?_⟩
  subst hr
  exact hjob

/-- Claiming the oldest pending job grants the job that is returned, if any. -/
theorem obeys_claimOldestWithin (attempts : Nat) :
    (Lifecycle.claimOldestWithin attempts).run.Obeys rules
      (fun later r => ∀ job, r = .ok (some job) → later = .holding job.id) .seeking := by
  induction attempts with
  | zero => exact fun _ h => nomatch h
  | succ attempts ih =>
    unfold Lifecycle.claimOldestWithin
    refine obeys_bind (obeys_transact trivial) (fun later oldest hlater => ?_)
      fun _ _ _ _ h => nomatch h
    obtain ⟨rfl, -⟩ := hlater
    cases oldest with
    | none => exact fun _ h => nomatch h
    | some id =>
      -- Somebody else may claim the job in between; then the next one is tried.
      refine obeys_bind (obeys_claim id) (fun later granted hlater => ?_)
        fun _ _ _ _ h => nomatch h
      obtain rfl := hlater granted rfl
      cases granted with
      | true =>
        refine Obeys.mono (obeys_find id) fun later r hlater => ?_
        obtain ⟨rfl, -, hfound⟩ := hlater
        intro job hr
        obtain ⟨job', hjob', hid, -⟩ := hfound _ hr
        cases hjob'
        rw [hid]
      | false =>
        refine obeys_bind (obeys_of_detached (.log ..)) (fun later _ hlater => ?_)
          fun _ _ _ _ h => nomatch h
        obtain ⟨rfl, -⟩ := hlater
        exact ih

/-! ## The analysis of a job -/

/-- The job that was granted is loaded: it is there, and it is processing. -/
theorem obeys_load (id : String) :
    (Analyser.load id).run.Obeys rules
      (fun later r => later = .holding id ∧ SparesJob r ∧ ∀ job, r = .ok job → job.id = id)
      (.holding id) := by
  unfold Analyser.load
  refine obeys_bind (obeys_find id) (fun later job? hlater => ?_) fun later f hlater => ?_
  · obtain ⟨rfl, -, hfound⟩ := hlater
    obtain ⟨job, rfl, hid, hstatus⟩ := hfound job? rfl
    simp only [hstatus, if_true]
    refine ⟨rfl, .ok job, fun job' hjob' => ?_⟩
    cases hjob'
    exact hid
  · obtain ⟨rfl, hspares, -⟩ := hlater
    exact ⟨rfl, .error (hspares f rfl), fun _ h => nomatch h⟩

/-- A stage follows the rules as its action does. -/
theorem obeys_stage {st : Stage} {x : Action α} {ends : Phase → Except Analyser.Halt α → Prop}
    (h : x.run.Obeys rules (fun later r => ends later (r.mapError (Analyser.Halt.mk st))) phase) :
    (Analyser.stage st x).run.Obeys rules ends phase :=
  Obeys.bind h fun _ _ hends => hends

/-- The stage is `fetchRepository` or `fetchContents`, in which the source is asked. -/
def IsFetching (st : Stage) : Prop := st = .fetchRepository ∨ st = .fetchContents

/-- If the stage halts, the phase is still `holding id`, and only a stage with `IsFetching` halts
with a failure that has `disownsJob`. -/
def HoldsOnError (id : String) (later : Phase) (r : Except Analyser.Halt α) : Prop :=
  ∀ halt, r = .error halt →
    later = .holding id ∧ (halt.cause.disownsJob = true → IsFetching halt.stage)

/-- A failure of a stage remains one of all stages. -/
theorem HoldsOnError.error {id : String} {later : Phase} {halt : Analyser.Halt}
    (h : HoldsOnError id later (.error halt : Except Analyser.Halt α)) :
    HoldsOnError id later (.error halt : Except Analyser.Halt β) := by
  intro halt' heq
  cases heq
  exact h halt rfl

/-- A stage whose action asks nothing about the store. -/
theorem obeys_stage_of_within {id : String} {st : Stage} {x : Action α}
    {ends : Except Failure α → Prop} (h : x.run.Within (·.isOutside = true) ends)
    (hst : ∀ f, ends (.error f) → f.disownsJob = true → IsFetching st) :
    (Analyser.stage st x).run.Obeys rules
      (fun later r => later = .holding id ∧ HoldsOnError id later r) (.holding id) := by
  refine obeys_stage (Obeys.mono (obeys_of_within h) fun later r hlater => ?_)
  obtain ⟨rfl, hends⟩ := hlater
  refine ⟨rfl, fun halt heq => ⟨rfl, ?_⟩⟩
  cases r with
  | ok x => cases heq
  | error f =>
    cases heq
    exact hst f hends

/-- A stage whose action is detached. -/
theorem obeys_stage_of_detached {id : String} {st : Stage} {x : Action α} (h : x.IsDetached) :
    (Analyser.stage st x).run.Obeys rules
      (fun later r => later = .holding id ∧ HoldsOnError id later r) (.holding id) :=
  obeys_stage_of_within h fun f hspares hdisowns => nomatch (hspares f rfl).symm.trans hdisowns

/-- A stage in which the source is asked. -/
theorem obeys_stage_of_outside {id : String} {st : Stage} {x : Action α} (h : x.AsksOutside)
    (hst : IsFetching st) :
    (Analyser.stage st x).run.Obeys rules
      (fun later r => later = .holding id ∧ HoldsOnError id later r) (.holding id) :=
  obeys_stage_of_within h fun _ _ _ => hst

variable (a : Analyser)

/-- Storing the artifact ends the job, unless it fails. -/
theorem obeys_persist (id : String) (artifact : Artifact) :
    (a.persist id artifact).run.Obeys rules
      (fun later r => ∀ f, r = .error f → later = .holding id ∧ f.disownsJob = false)
      (.holding id) := by
  have hcomplete : (Lifecycle.complete id artifact).run.Obeys rules
      (fun later r => ∀ f, r = .error f → later = .holding id ∧ f.disownsJob = false)
      (.holding id) := by
    unfold Lifecycle.complete
    refine obeys_bind (obeys_of_detached (.serialize artifact)) (fun later _ hlater => ?_)
      fun later f hlater f' heq => ?_
    · obtain ⟨rfl, -⟩ := hlater
      refine Obeys.mono (obeys_transact rfl) fun later r hlater f heq => ?_
      obtain ⟨rfl, hspares, -⟩ := hlater
      subst heq
      exact ⟨rfl, hspares f rfl⟩
    · obtain ⟨rfl, hspares⟩ := hlater
      cases heq
      exact ⟨rfl, hspares f rfl⟩
  unfold Analyser.persist
  refine obeys_bind hcomplete (fun later _ _ => ?_) fun later f hlater => ?_
  · refine Obeys.bind (obeys_of_within (a.within_copy id artifact)) fun later uri _ => ?_
    exact fun _ h => nomatch h
  · intro f' heq
    cases heq
    exact hlater f rfl

/-- Storing the artifact as a stage. -/
theorem obeys_stage_persist (id : String) (artifact : Artifact) :
    (Analyser.stage .persist (a.persist id artifact)).run.Obeys rules (HoldsOnError id)
      (.holding id) := by
  refine obeys_stage (Obeys.mono (obeys_persist a id artifact) fun later r hlater => ?_)
  intro halt heq
  cases r with
  | ok uri => cases heq
  | error f =>
    cases heq
    obtain ⟨rfl, hspares⟩ := hlater f rfl
    exact ⟨rfl, fun hdisowns => nomatch hspares.symm.trans hdisowns⟩

/-- The first stage loads the job that was granted. -/
theorem obeys_stage_load (id : String) :
    (Analyser.stage .loadJob (Analyser.load id)).run.Obeys rules
      (fun later r => later = .holding id ∧ HoldsOnError id later r ∧
        ∀ job, r = .ok job → job.id = id) (.holding id) := by
  refine obeys_stage (Obeys.mono (obeys_load id) fun later r hlater => ?_)
  obtain ⟨rfl, hspares, hid⟩ := hlater
  cases r with
  | ok job =>
    refine ⟨rfl, (fun _ h => nomatch h), fun job' heq => ?_⟩
    cases heq
    exact hid job rfl
  | error f =>
    refine ⟨rfl, fun halt heq => ?_, fun _ h => nomatch h⟩
    cases heq
    exact ⟨rfl, fun hdisowns => nomatch (hspares f rfl).symm.trans hdisowns⟩

/-- The stages of an analysis, of which only the last one changes the store. -/
theorem obeys_process (id : String) :
    (a.process id).run.Obeys rules (HoldsOnError id) (.holding id) := by
  unfold Analyser.process
  refine obeys_bind (obeys_stage_load id) (fun later job hlater => ?_)
    fun _ _ hlater => hlater.2.1.error
  obtain ⟨rfl, -, hid⟩ := hlater
  have hid : job.id = id := hid job rfl
  -- Up to the check all stages leave the store alone.
  refine obeys_bind (obeys_stage_of_outside (a.outside_list job) (.inl rfl))
    (fun later listed hlater => ?_) fun _ _ hlater => hlater.2.error
  obtain ⟨rfl, -⟩ := hlater
  refine obeys_bind (obeys_stage_of_outside (a.outside_collect job listed.2) (.inr rfl))
    (fun later c hlater => ?_) fun _ _ hlater => hlater.2.error
  obtain ⟨rfl, -⟩ := hlater
  refine obeys_bind (obeys_stage_of_detached (Analyser.detached_build c.files))
    (fun later artifact hlater => ?_) fun _ _ hlater => hlater.2.error
  obtain ⟨rfl, -⟩ := hlater
  refine obeys_bind (obeys_stage_of_detached (Analyser.detached_check artifact c.files))
    (fun later _ hlater => ?_) fun _ _ hlater => hlater.2.error
  obtain ⟨rfl, -⟩ := hlater
  -- The job that is completed is the one that was granted.
  rw [hid]
  exact obeys_bind (obeys_stage_persist a id artifact) (fun _ _ _ _ h => nomatch h)
    fun _ _ hlater => hlater.error

/-- The ending is not `notProcessable`, unless the stage is one with `IsFetching`. -/
def Processable (e : Ending) : Prop :=
  ∀ st error, e = .notProcessable st error → IsFetching st

/-- Making the job that was granted a failed one. -/
theorem obeys_recordFailure (id : String) (st : Stage) (message : String) :
    (Analyser.recordFailure id st message).Obeys rules (fun _ _ => True) (.holding id) := by
  unfold Analyser.recordFailure Lifecycle.fail
  have hfail : (Phase.holding id).MayTransact (.fail id message) := rfl
  refine Obeys.bind (obeys_transact hfail) fun later r _ => ?_
  cases r with
  | ok => trivial
  | error f => exact ⟨rfl, fun _ _ => trivial⟩

/-- After a failure the job is made a failed one, unless the source disowned it. -/
theorem obeys_halted {id : String} {halt : Analyser.Halt}
    (h : halt.cause.disownsJob = true → IsFetching halt.stage) :
    (Analyser.halted id halt).Obeys rules (fun _ e => Processable e) (.holding id) := by
  unfold Analyser.halted
  cases hcause : halt.cause.disownsJob with
  | true =>
    refine ⟨rfl, fun _ _ st error heq => ?_⟩
    cases heq
    exact h hcause
  | false =>
    refine Obeys.bind (obeys_log ..) fun later _ hlater => ?_
    obtain rfl := hlater
    refine Obeys.bind (obeys_recordFailure id halt.stage _) fun _ recorded _ => ?_
    exact fun _ _ heq => nomatch heq

/-- Whoever was granted a job analyses it, and finds that it is to be processed. -/
theorem obeys_runClaimed (id : String) :
    (a.runClaimed id).Obeys rules (fun _ outcome => Processable outcome.ending)
      (.holding id) := by
  unfold Analyser.runClaimed
  refine Obeys.bind (obeys_process a id) fun later r hlater => ?_
  cases r with
  | ok report => exact ⟨rfl, fun _ _ _ _ heq => nomatch heq⟩
  | error halt =>
    obtain ⟨rfl, hcause⟩ := hlater halt rfl
    exact Obeys.bind (obeys_halted hcause) fun _ _ he => he

/-- Whoever analyses a given job claims it first. -/
theorem obeys_run (id : String) :
    (a.run id).Obeys rules (fun _ outcome => Processable outcome.ending) .seeking := by
  unfold Analyser.run
  refine Obeys.bind (obeys_claim id) fun later r hlater => ?_
  cases r with
  | error f => exact ⟨rfl, fun _ _ _ _ heq => nomatch heq⟩
  | ok granted =>
    obtain rfl := hlater granted rfl
    cases granted with
    | true => exact obeys_runClaimed a id
    | false => exact ⟨rfl, fun _ _ _ _ heq => nomatch heq⟩

/-- A worker claims a job before it analyses it. -/
theorem obeys_runOnce (w : Worker) :
    w.runOnce.run.Obeys rules
      (fun _ r => ∀ outcome, r = .ok (some outcome) → Processable outcome.ending) .seeking := by
  unfold Worker.runOnce Lifecycle.claimOldest
  refine obeys_bind (obeys_claimOldestWithin _) (fun later job? hlater => ?_)
    fun _ _ _ _ heq => nomatch heq
  cases job? with
  | none => exact fun _ heq => nomatch heq
  | some job =>
    obtain rfl := hlater job rfl
    refine obeys_bind (obeys_of_detached (.log ..)) (fun later _ hlater => ?_)
      fun _ _ _ _ heq => nomatch heq
    obtain ⟨rfl, -⟩ := hlater
    -- From here on the worker does what anybody does who was granted the job.
    have hclaimed : (Action.always (w.analyser.runClaimed job.id)).run.Obeys rules
        (fun _ r => ∀ outcome, r = .ok outcome → Processable outcome.ending)
        (.holding job.id) := by
      refine Obeys.bind (obeys_runClaimed w.analyser job.id) fun _ outcome hends => ?_
      intro outcome' heq
      cases heq
      exact hends
    refine obeys_bind hclaimed (fun later outcome hlater => ?_) fun _ _ _ _ heq => nomatch heq
    intro outcome' heq
    cases heq
    exact hlater outcome rfl

end RepoGraph.Sharing
