import Mathlib.Logic.Relation
import RepoGraph.Proofs.Sharing.Ledger

/-!
# Many parties on one store

In a `Scene` any number of workers, of those who analyse a given job, and of those who create jobs
share a store. In one `Step` a party joins, or a party has one transaction performed or refused, or
it hears from outside; nothing is assumed about the order. `exclusive_of_reachable` says what this
amounts to, in every scene that can be reached: each job is granted once and goes through its states
forward only, whoever was granted it finds it processing, and artifacts and errors belong to the
completed and the failed jobs.
-/

namespace RepoGraph.Sharing

open RepoGraph.Program

/-- Who shares the store. -/
inductive Party
  /-- A worker looks once for a job, and analyses it. -/
  | worker (w : Worker)
  /-- Somebody analyses a given job. -/
  | direct (a : Analyser) (id : String)
  /-- Somebody creates a job. -/
  | client (url : String) (requestedBy : Option String)

/-- The program of a party: `runOnce` of a worker, `run` of an analyser, or `create`. Its value is
the outcome of the analysis, if there is one. -/
def Party.program : Party → Activity (Option Outcome)
  | worker w => do return (← w.runOnce.run).toOption.join
  | direct a id => do return some (← a.run id)
  | client url requestedBy => do
    let _ ← (Lifecycle.create url requestedBy).run
    return none

/-- A transaction of a party, and its reply. -/
structure Event where
  /-- The party, by its place among those who joined. -/
  party : Nat
  /-- The transaction. -/
  transaction : Transaction
  /-- The reply. -/
  reply : Except Failure transaction.Result

/-- The grant of a `claim` that yields `true`. -/
def Event.grants : Event → List (Nat × String)
  | ⟨i, .claim id, .ok true⟩ => [(i, id)]
  | _ => []

/-- The write of a `complete` that succeeds. -/
def Event.writes : Event → List (Nat × String × Artifact)
  | ⟨i, .complete id a, .ok _⟩ => [(i, id, a)]
  | _ => []

/-- A store, what is left of the programs of those who share it, and the transactions so far. -/
structure Scene where
  /-- The store. -/
  store : Store
  /-- What is left to do of each party, in the order in which they joined. -/
  parties : List (Activity (Option Outcome))
  /-- The transactions, the last one first. -/
  history : List Event

namespace Scene

/-- The scene without parties, with an empty store. -/
def initial : Scene := ⟨.empty, [], []⟩

/-- The grants of all events: numbers of parties with the job that they were granted. -/
def grants (c : Scene) : List (Nat × String) := c.history.flatMap Event.grants

/-- The writes of all events: numbers of parties with the job and the artifact that they wrote. -/
def writes (c : Scene) : List (Nat × String × Artifact) := c.history.flatMap Event.writes

/-- The scene after the party `i` was answered its transaction `t`, with the store that comes with
the answer. -/
def reply (c : Scene) (i : Nat) (t : Transaction) (answer : Except Failure t.Result × Store)
    (next : Except Failure t.Result → Activity (Option Outcome)) : Scene :=
  ⟨answer.2, c.parties.set i (next answer.1), ⟨i, t, answer.1⟩ :: c.history⟩

/-- `Step c d`: in one step the scene `c` may become `d`. -/
inductive Step (c : Scene) : Scene → Prop
  /-- A party joins. -/
  | join (p : Party) : Step c { c with parties := c.parties ++ [p.program] }
  /-- A transaction of a party is performed. -/
  | perform (i : Nat) (t : Transaction) (next : Except Failure t.Result → Activity (Option Outcome))
      (h : c.parties[i]? = some (.ask (.transact t) next)) :
    Step c (c.reply i t (c.store.perform t) next)
  /-- The database refuses a transaction of a party. -/
  | refuse (i : Nat) (t : Transaction) (next : Except Failure t.Result → Activity (Option Outcome))
      (h : c.parties[i]? = some (.ask (.transact t) next)) :
    Step c (c.reply i t (.error .database, c.store) next)
  /-- A party hears something, whatever it is, from outside. -/
  | hear (i : Nat) (q : Question) (next : q.Reply → Activity (Option Outcome)) (r : q.Reply)
      (h : c.parties[i]? = some (.ask q next)) (hq : q.isOutside = true) :
    Step c { c with parties := c.parties.set i (next r) }

/-- Any number of steps one after another. -/
abbrev Steps : Scene → Scene → Prop := Relation.ReflTransGen Step

/-- The scene comes about from `initial` in some steps. -/
def Reachable (c : Scene) : Prop := Steps initial c

/-- The store of a scene with the grants and the writes. -/
def ledger (c : Scene) : Ledger := ⟨c.store, c.grants, c.writes⟩

/-- The outcome, if there is one, has an ending that is `Processable`. -/
def EndsWell (_ : Phase) (outcome? : Option Outcome) : Prop :=
  ∀ outcome, outcome? = some outcome → Processable outcome.ending

end Scene

/-- All parties follow the rules. -/
theorem Party.obeys_program (p : Party) :
    p.program.Obeys rules Scene.EndsWell .seeking := by
  cases p with
  | worker w =>
    refine Obeys.bind (obeys_runOnce w) fun later r hr => ?_
    intro outcome houtcome
    cases r with
    | error f => cases houtcome
    | ok outcome? =>
      obtain rfl : outcome? = some outcome := houtcome
      exact hr outcome rfl
  | direct a id =>
    refine Obeys.bind (obeys_run a id) fun later o ho => ?_
    intro outcome houtcome
    cases houtcome
    exact ho
  | client url requestedBy =>
    have hcreate := obeys_create url requestedBy
    show ((Lifecycle.create url requestedBy).run.bind fun _ => done none).Obeys rules _ _
    -- How a job is created does not matter any more.
    generalize (Lifecycle.create url requestedBy).run = p at hcreate ⊢
    refine Obeys.bind hcreate fun later r _ => ?_
    intro outcome houtcome
    cases houtcome

namespace Ledger

variable {l : Ledger} {i : Nat} {phase : Phase}

/-- The ledger with the store after an event, and with its grants and writes. -/
def record (l : Ledger) (store : Store) (e : Event) : Ledger :=
  ⟨store, e.grants ++ l.grants, e.writes ++ l.writes⟩

/-- The job that a party holds is found. -/
theorem Holds.exists_lookup {id : String} (h : l.Holds i (.holding id)) :
    ∃ r, l.store.jobs.lookup? id = some r ∧ r.status = .processing :=
  Option.map_eq_some_iff.mp h.2

/-- A transaction that the phase of a party allows does one of the changes, and its reply can be
expected. -/
theorem change_of_effect {t : Transaction} {reply : Except Failure t.Result} {store : Store}
    (h : Store.Effect l.store t reply store) (hmay : phase.MayTransact t)
    (hholds : l.Holds i phase) :
    Change i phase l (phase.after t reply) (l.record store ⟨i, t, reply⟩) ∧
      phase.Expects t reply := by
  cases phase with
  | ended => cases h <;> cases hmay
  | seeking =>
    cases h with
    | found | artifact | digest | uncompleted | completed | unfailed | failed => cases hmay
    | oldest => exact ⟨.quiet _ l, .ok _, trivial⟩
    | present => exact ⟨.quiet _ l, .error rfl, trivial⟩
    | inserted id record hnew =>
      exact ⟨.entered _ l id record.stored hmay.1 hmay.2 hnew, .ok _, trivial⟩
    | unclaimed => exact ⟨.quiet _ l, .ok _, trivial⟩
    | claimed id r hr hpending => exact ⟨.claimed l id r hr hpending, .ok _, trivial⟩
  | holding id =>
    -- The job is the one that the party holds, and it is there.
    obtain ⟨r, hr, hprocessing⟩ := hholds.exists_lookup
    cases h with
    | oldest | artifact | digest | present | inserted | unclaimed | claimed => cases hmay
    | found id' =>
      obtain rfl := hmay
      refine ⟨.quiet _ l, .ok _, { r with id := id' }, ?_, rfl, hprocessing⟩
      rw [Store.job?, hr]
      rfl
    | uncompleted id' a hnone =>
      obtain rfl := hmay
      rw [hr] at hnone
      cases hnone
    | completed id' a r' hr' =>
      obtain rfl := hmay
      rw [hr] at hr'
      obtain rfl := Option.some.inj hr'
      exact ⟨.completed l id' a r hr hprocessing, .ok _, trivial⟩
    | unfailed id' message hnone =>
      obtain rfl := hmay
      rw [hr] at hnone
      cases hnone
    | failed id' message r' hr' =>
      obtain rfl := hmay
      rw [hr] at hr'
      obtain rfl := Option.some.inj hr'
      exact ⟨.failed l id' message r hr hprocessing, .ok _, trivial⟩

/-- A transaction that is refused changes nothing, and that can be expected. -/
theorem change_of_refusal (t : Transaction) :
    Change i phase l (phase.after t (.error .database))
        (l.record l.store ⟨i, t, .error .database⟩) ∧
      phase.Expects t (.error .database) := by
  have hafter : phase.after t (.error .database) = phase := by
    cases phase <;> cases t <;> rfl
  have hrecord : l.record l.store ⟨i, t, .error .database⟩ = l := by
    cases t <;> rfl
  rw [hafter, hrecord]
  refine ⟨.quiet phase l, .error rfl, ?_⟩
  split
  · rename_i heq
    cases heq
  · trivial

end Ledger

namespace Scene

variable {c d : Scene}

/-! ## What holds of every scene -/

/-- The invariant of a scene, which each `Step` keeps. -/
structure Sound (c : Scene) : Prop where
  /-- The ledger is sound. -/
  ledger : c.ledger.Sound
  /-- Each party follows the rules from its phase on, and holds what the phase says. -/
  parties : ∀ (i : Nat) p, c.parties[i]? = some p →
    ∃ phase, p.Obeys rules EndsWell phase ∧ c.ledger.Holds i phase
  /-- Whoever looked up a job had been granted it, and found it processing. -/
  found : ∀ i id job?, (⟨i, .find id, .ok job?⟩ : Event) ∈ c.history →
    (i, id) ∈ c.grants ∧ ∃ job, job? = some job ∧ job.status = .processing

/-- Nothing has happened yet. -/
theorem sound_initial : Sound initial where
  ledger :=
    { artifact_iff := fun id => by
        constructor
        · rintro ⟨stored, hstored⟩
          cases hstored
        · intro hstatus
          cases hstatus
      error_iff := fun id r hr => nomatch hr
      nodup_grants := List.nodup_nil
      granted := fun g hg => nomatch hg
      nodup_writes := List.nodup_nil
      written := fun i id a hwrite => nomatch hwrite
      stored := fun id stored hstored => nomatch hstored }
  parties := fun i p hp => nomatch hp
  found := fun i id job? hmem => nomatch hmem

/-- Where one party goes on, it is enough to look at that party and at the others. -/
theorem exists_phase_of_set {l : Ledger} {i : Nat} {p : Activity (Option Outcome)} {phase : Phase}
    {parties : List (Activity (Option Outcome))} (hp : p.Obeys rules EndsWell phase)
    (hholds : l.Holds i phase)
    (hothers : ∀ (j : Nat) p', j ≠ i → parties[j]? = some p' →
      ∃ phase, p'.Obeys rules EndsWell phase ∧ l.Holds j phase)
    (j : Nat) (p' : Activity (Option Outcome)) (hp' : (parties.set i p)[j]? = some p') :
    ∃ phase, p'.Obeys rules EndsWell phase ∧ l.Holds j phase := by
  rw [List.getElem?_set] at hp'
  split at hp'
  · rename_i hij
    subst hij
    split at hp'
    · cases hp'
      exact ⟨phase, hp, hholds⟩
    · cases hp'
  · rename_i hij
    exact hothers j p' (Ne.symm hij) hp'

/-- A party that joins, seeking a job, follows the rules. -/
theorem Sound.join (h : c.Sound) (p : Party) :
    Sound { c with parties := c.parties ++ [p.program] } where
  ledger := h.ledger
  parties j p' hp' := by
    rw [List.getElem?_append] at hp'
    split at hp'
    · exact h.parties j p' hp'
    · obtain rfl := List.mem_singleton.mp (List.mem_of_getElem? hp')
      exact ⟨.seeking, p.obeys_program, trivial⟩
  found := h.found

/-- A party that hears from outside goes on in its phase. -/
theorem Sound.hear (h : c.Sound) {i : Nat} {q : Question}
    {next : q.Reply → Activity (Option Outcome)} (hi : c.parties[i]? = some (.ask q next))
    (hq : q.isOutside = true) (r : q.Reply) :
    Sound { c with parties := c.parties.set i (next r) } where
  ledger := h.ledger
  parties := by
    obtain ⟨phase, ⟨-, hnext⟩, hholds⟩ := h.parties i _ hi
    -- Nothing outside the store leads to another phase.
    have hstays : rules.next phase q r = phase := (rules_of_isOutside phase hq).2 r
    have hexpects : rules.expects phase q r := by
      cases q with
      | transact t => cases hq
      | _ => trivial
    have hp := hnext r hexpects
    rw [hstays] at hp
    exact exists_phase_of_set hp hholds fun j p' _ => h.parties j p'
  found := h.found

/-- A party that has the reply to a transaction goes on in the next phase. The other parties hold
what they held. -/
theorem Sound.reply (h : c.Sound) {i : Nat} {t : Transaction}
    {answer : Except Failure t.Result × Store}
    {next : Except Failure t.Result → Activity (Option Outcome)}
    (hi : c.parties[i]? = some (.ask (.transact t) next))
    (hchange : ∀ phase, phase.MayTransact t → c.ledger.Holds i phase →
      Ledger.Change i phase c.ledger (phase.after t answer.1)
          (c.ledger.record answer.2 ⟨i, t, answer.1⟩) ∧
        phase.Expects t answer.1) :
    Sound (c.reply i t answer next) ∧
      ∀ id, JobStatus.Moves (c.store.status? id) ((c.reply i t answer next).store.status? id) := by
  obtain ⟨phase, ⟨hmay, hnext⟩, hholds⟩ := h.parties i _ hi
  obtain ⟨hmoved, hexpects⟩ := hchange phase hmay hholds
  refine ⟨⟨hmoved.sound h.ledger hholds, ?_, ?_⟩, hmoved.moves⟩
  · have hfollows := hnext answer.1 hexpects
    refine exists_phase_of_set hfollows (hmoved.holds hholds) fun j p' hne hp' => ?_
    obtain ⟨other, hfollows, hother⟩ := h.parties j p' hp'
    exact ⟨other, hfollows, hmoved.holds_of_ne h.ledger hholds hne hother⟩
  · intro j id job? hmem
    have hgrants : c.grants ⊆ (c.reply i t answer next).grants :=
      List.subset_append_right _ _
    rcases List.mem_cons.mp hmem with heq | hearlier
    · obtain ⟨res, store⟩ := answer
      cases heq
      -- Only a party that holds the job may look it up.
      cases phase with
      | seeking | ended => cases hmay
      | holding held =>
        obtain rfl := hmay
        obtain ⟨-, job, hjob, -, hprocessing⟩ := hexpects
        exact ⟨hgrants hholds.1, job, hjob, hprocessing⟩
    · obtain ⟨hgrant, hjob⟩ := h.found j id job? hearlier
      exact ⟨hgrants hgrant, hjob⟩

/-- A step keeps a scene sound and moves each job by one step at most. -/
theorem Step.sound (hstep : Step c d) (h : c.Sound) :
    d.Sound ∧ ∀ id, JobStatus.Moves (c.store.status? id) (d.store.status? id) := by
  cases hstep with
  | join p => exact ⟨h.join p, fun _ => .stay _⟩
  | perform i t next hi =>
    exact h.reply hi fun _ hmay hholds =>
      Ledger.change_of_effect (Store.perform_effect c.store t) hmay hholds
  | refuse i t next hi => exact h.reply hi fun _ _ _ => Ledger.change_of_refusal t
  | hear i q next r hi hq => exact ⟨h.hear hi hq r, fun _ => .stay _⟩

/-- Any number of steps keeps a scene sound. -/
theorem Steps.sound (hsteps : Steps c d) (h : c.Sound) : d.Sound := by
  induction hsteps with
  | refl => exact h
  | tail _ hstep ih => exact (hstep.sound ih).1

/-- A scene that can come about is sound. -/
theorem Reachable.sound (h : c.Reachable) : c.Sound := Steps.sound h sound_initial

/-- A job that has ended stays in its state, however many steps follow. -/
theorem Steps.status_of_isTerminal (hsteps : Steps c d) (h : c.Sound) {id : String}
    {status : JobStatus} (hstatus : c.store.status? id = some status)
    (hended : status.isTerminal = true) : d.store.status? id = some status := by
  induction hsteps with
  | refl => exact hstatus
  | tail hearlier hstep ih =>
    have hmoves := (hstep.sound (Steps.sound hearlier h)).2 id
    rw [ih] at hmoves
    -- No step leads out of a state in which a job has ended.
    generalize Store.status? _ id = after at hmoves ⊢
    cases hmoves with
    | stay => rfl
    | claim | complete | fail => cases hended

/-! ## Sharing is exclusive -/

/-- What the parties can rely on in a scene: exclusive grants, states that only move forward, and
artifacts and errors that fit the states. -/
structure Exclusive (c : Scene) : Prop where
  /-- Each job was granted once at most. -/
  granted_once : (c.grants.map Prod.snd).Nodup
  /-- In a step each job stays in its state, or goes on from pending to processing, or from there to
  its end; new jobs are pending. -/
  moves : ∀ d, Step c d → ∀ id, JobStatus.Moves (c.store.status? id) (d.store.status? id)
  /-- A job that has ended stays in its state. -/
  ended : ∀ d, Steps c d → ∀ id status, c.store.status? id = some status →
    status.isTerminal = true → d.store.status? id = some status
  /-- Whoever looked up a job had been granted it, and found it processing. -/
  found : ∀ i id job?, (⟨i, .find id, .ok job?⟩ : Event) ∈ c.history →
    (i, id) ∈ c.grants ∧ ∃ job, job? = some job ∧ job.status = .processing
  /-- No analysis ends by finding that its job is not to be processed, neither when the job is
  loaded nor later, unless the source of its snapshot says so. -/
  processable : ∀ (i : Nat) outcome, c.parties[i]? = some (.done (some outcome)) →
    ∀ st error, outcome.ending = .notProcessable st error →
      st = .fetchRepository ∨ st = .fetchContents
  /-- There is an artifact of the completed jobs and no others. -/
  artifact_iff : ∀ id, (∃ stored, c.store.artifacts.lookup? id = some stored) ↔
    ∃ job, c.store.job? id = some job ∧ job.status = .completed
  /-- Each artifact was written once at most. -/
  written_once : (c.writes.map (·.2.1)).Nodup
  /-- An artifact that is stored is the one that was written by the party that was granted the
  job. -/
  artifact_written : ∀ id stored, c.store.artifacts.lookup? id = some stored →
    ∃ i a, (i, id) ∈ c.grants ∧ (i, id, a) ∈ c.writes ∧ stored = ⟨a.toJson, a.digest⟩
  /-- There is an error of the failed jobs and no others. -/
  error_iff : ∀ id job, c.store.job? id = some job → (job.error ≠ none ↔ job.status = .failed)

/-- Every scene that is `Reachable` is `Exclusive`, in whatever order the parties take their steps.
-/
theorem exclusive_of_reachable (h : c.Reachable) : c.Exclusive where
  granted_once := h.sound.ledger.nodup_grants
  moves d hstep := (hstep.sound h.sound).2
  ended d hsteps id status := hsteps.status_of_isTerminal h.sound
  found := h.sound.found
  processable i outcome hdone := by
    obtain ⟨phase, hends, -⟩ := h.sound.parties i _ hdone
    exact hends outcome rfl
  artifact_iff id := by
    refine (h.sound.ledger.artifact_iff id).trans ?_
    simp [ledger, Store.status?, Store.job?]
  written_once := h.sound.ledger.nodup_writes
  artifact_written id stored hstored := by
    obtain ⟨i, a, hwrite⟩ := h.sound.ledger.stored id stored hstored
    obtain ⟨hgrant, hwritten⟩ := h.sound.ledger.written i id a hwrite
    exact ⟨i, a, hgrant, hwrite, Option.some.inj (hstored.symm.trans hwritten)⟩
  error_iff id job hjob := by
    obtain ⟨r, hr, rfl⟩ := Option.map_eq_some_iff.mp hjob
    exact h.sound.ledger.error_iff id r hr

/-- A job is created and granted to the one who then asks for it. -/
theorem exclusive_of_two_parties :
    ∃ c : Scene, c.Reachable ∧ c.grants = [(1, "1")] ∧ c.Exclusive := by
  -- Somebody joins and creates the job.
  have h₁ : Reachable ⟨.empty, [(Party.client "https://github.com/octo/demo" none).program], []⟩ :=
    Relation.ReflTransGen.refl.tail (.join _)
  have h₂ := h₁.tail (.hear 0 .newJob _ ("1", ⟨0, true⟩) rfl rfl)
  have h₃ := h₂.tail (.perform 0 (.insert "1" _) _ rfl)
  -- Somebody else joins and claims it.
  have h₄ := h₃.tail (.join (.direct ⟨.listing [], none, 200, 8⟩ "1"))
  have h₅ := h₄.tail (.perform 1 (.claim "1") _ rfl)
  exact ⟨_, h₅, rfl, exclusive_of_reachable h₅⟩

end Scene

end RepoGraph.Sharing
