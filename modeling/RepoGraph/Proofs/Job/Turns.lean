import RepoGraph.Proofs.Asked
import RepoGraph.Proofs.Interference
import RepoGraph.Proofs.Job.Calls

/-!
# What the tables keep in any turns

Whoever takes turns at the store enters jobs as pending ones without an error
(`Transaction.EntersPending`): no call of the store does anything else
(`Lifecycle.Call.asks_entersPending`). So each turn is a `Store.Step`, and whatever the turns are,
the tables still fit together after them, jobs and artifacts do not disappear, and what a job is
looked up by remains so. `Store.Keeps` says that of one job, and `Keeps.after` that turns keep it.
-/

namespace RepoGraph

/-- A job that the transaction enters is pending and has no error. -/
def Transaction.EntersPending : Transaction → Prop
  | insert _ record => record.status = .pending ∧ record.error = none
  | _ => True

/-- A job that is entered by way of the question is pending and has no error. -/
def Question.EntersPending : Question → Prop
  | transact t => t.EntersPending
  | _ => True

/-- Jobs are entered in these turns as pending ones without an error. -/
def EnterPending (turns : List Turn) : Prop := ∀ turn ∈ turns, turn.transaction.EntersPending

/-! ## The calls of the store -/

namespace Lifecycle

/-- A claim enters no job. -/
theorem asks_claim (id : String) : Asks Question.EntersPending (claim id) := by
  refine .bind (.transact trivial fun _ => trivial) fun claimed => ?_
  cases claimed with
  | true => exact .bind (.log (fun _ => trivial) ..) fun _ => .known _
  | false => exact .known _

/-- Claiming the oldest pending job enters no job, however many jobs are tried. -/
theorem asks_claimOldestWithin (attempts : Nat) :
    Asks Question.EntersPending (claimOldestWithin attempts) := by
  induction attempts with
  | zero => exact .known _
  | succ attempts ih =>
    rw [claimOldestWithin]
    refine .bind (.transact trivial fun _ => trivial) fun oldest? => ?_
    cases oldest? with
    | none => exact .known _
    | some id =>
      refine .bind (asks_claim id) fun claimed => ?_
      cases claimed with
      | true => exact .transact trivial fun _ => trivial
      | false => exact .bind (.log (fun _ => trivial) ..) fun _ => ih

/-- A job is created as a pending one without an error. -/
theorem asks_create (url : String) (requestedBy : Option String) :
    Asks Question.EntersPending (create url requestedBy) := by
  unfold create
  split
  · exact .known _
  · refine .bind ⟨trivial, fun _ => trivial⟩ fun named => ?_
    refine .bind (.transact ⟨rfl, rfl⟩ fun _ => trivial) fun _ => ?_
    exact .bind (.log (fun _ => trivial) ..) fun _ => .known _

/-- Whatever the call of the store, it enters jobs as pending ones without an error. -/
theorem Call.asks_entersPending (c : Call) : Asks Question.EntersPending c.action := by
  cases c with
  | create url requestedBy => exact asks_create url requestedBy
  | claim id => exact asks_claim id
  | claimOldest => exact asks_claimOldestWithin maxClaimAttempts
  | complete id a => exact .bind (.serialize trivial) fun _ => .transact trivial fun _ => trivial
  | find | fail | artifact | digest => exact .transact trivial fun _ => trivial

end Lifecycle

/-! ## The tables -/

namespace Store

variable {s s' : Store} {turns : List Turn} {id : String}

/-- A transaction that enters jobs as pending ones changes the tables by one step at most. -/
theorem Effect.step {t : Transaction} {reply : Except Failure t.Result} (h : Effect s t reply s')
    (ht : t.EntersPending) : s.Step s' := by
  cases h with
  | found | oldest | artifact | digest | present | unclaimed | uncompleted | unfailed => exact .stay
  | inserted id record hnew =>
    obtain ⟨hpending, herror⟩ := ht
    exact .entered id record hpending herror hnew
  | claimed id r hr hpending => exact .claimed id r hr hpending
  | completed id a r hr => exact .completed id a r hr
  | failed id message r hr => exact .failed id message r hr

/-- An artifact of the job is there. -/
def HasArtifact (s : Store) (id : String) : Prop :=
  ∃ stored, s.artifacts.lookup? id = some stored

/-- An artifact may be replaced in a step, and does not disappear. -/
theorem Step.hasArtifact (h : s.Step s') (hs : s.HasArtifact id) : s'.HasArtifact id := by
  cases h with
  | stay | entered | claimed | failed => exact hs
  | completed other a r hr =>
    rw [HasArtifact, Table.lookup?_insert]
    split
    · exact ⟨_, rfl⟩
    · exact hs

/-- The tables fit together, and a job is in them. -/
structure Keeps (s : Store) (id : String) : Prop where
  /-- The tables fit together. -/
  consistent : s.IsConsistent
  /-- The job is there. -/
  job : ∃ r, s.jobs.lookup? id = some r

/-- A step keeps a job in tables that fit together. -/
theorem Step.keeps (h : s.Step s') (hs : s.Keeps id) : s'.Keeps id where
  consistent := h.isConsistent hs.consistent
  job := by
    obtain ⟨r, hr⟩ := hs.job
    obtain ⟨r', hr', -⟩ := h.evolves id r hr
    exact ⟨r', hr'⟩

/-- What every step keeps is kept in any turns. -/
theorem after_induction {P : Store → Prop} (hstep : ∀ s s', Step s s' → P s → P s')
    (hturns : EnterPending turns) (hs : P s) : P (s.after turns) := by
  induction turns generalizing s with
  | nil => exact hs
  | cons turn turns ih =>
    obtain ⟨hturn, hturns⟩ := List.forall_mem_cons.mp hturns
    exact ih hturns (hstep _ _ ((s.perform_effect turn.transaction).step hturn) hs)

/-- Turns keep tables fitting together. -/
theorem IsConsistent.after (hs : s.IsConsistent) (hturns : EnterPending turns) :
    (s.after turns).IsConsistent :=
  after_induction (fun _ _ h => h.isConsistent) hturns hs

/-- Turns keep a job in tables that fit together. -/
theorem Keeps.after (hs : s.Keeps id) (hturns : EnterPending turns) : (s.after turns).Keeps id :=
  after_induction (fun _ _ h => h.keeps) hturns hs

/-- In no turns an artifact disappears. -/
theorem HasArtifact.after (hs : s.HasArtifact id) (hturns : EnterPending turns) :
    (s.after turns).HasArtifact id :=
  after_induction (fun _ _ h => h.hasArtifact) hturns hs

end Store

end RepoGraph
