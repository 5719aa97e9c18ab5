import RepoGraph.Job.Lifecycle
import RepoGraph.Proofs.Interference
import RepoGraph.Proofs.Job.Queue

/-!
# Claiming the oldest job among others

Whoever claims the oldest pending job looks it up in one turn and claims it in another, and others
take turns in between. `Attempts` lists how such a call may go: an attempt finds no pending job, or
claims the job that it found, or comes too late, and then the next attempt begins. What follows from
that rests on one fact about the store: a job that is there and not pending stays so, whoever does
what (`IsTaken.after`). So a job becomes a processing one only once in all its life, and a job that
was lost is not found again (`claimOldest_amid_others`).
-/

namespace RepoGraph

namespace Store

variable {s s' : Store} {id : String} {turns : List Turn}

/-! ## Jobs that are no longer pending -/

/-- `status?` of the job is known and not `.pending`. -/
def IsTaken (s : Store) (id : String) : Prop :=
  ∃ status, s.status? id = some status ∧ status ≠ .pending

/-- A pending job is not taken. -/
theorem IsTaken.ne_pending (h : s.IsTaken id) : s.status? id ≠ some .pending := by
  obtain ⟨status, hstatus, hne⟩ := h
  rw [hstatus]
  exact fun heq => hne (Option.some.inj heq)

/-- In one turn a job stays as it is, unless it is entered or taken: a record that is set of a job
that is there does not make it pending. -/
theorem status?_perform (s : Store) (t : Transaction) (id : String) :
    (s.perform t).2.status? id = s.status? id ∨ s.status? id = none ∨
      (s.perform t).2.IsTaken id := by
  -- A record that is set matters to its own job only.
  have hset {s' : Store} {other : String} {r : JobRecord} (hjobs : s'.jobs = s.jobs.insert other r)
      (hr : s.status? other = none ∨ r.status ≠ .pending) :
      s'.status? id = s.status? id ∨ s.status? id = none ∨ s'.IsTaken id := by
    unfold IsTaken
    rw [status?_of_jobs_eq hjobs]
    by_cases hid : id = other
    · rw [if_pos hid, hid]
      exact .inr (hr.imp_right fun hne => ⟨r.status, rfl, hne⟩)
    · rw [if_neg hid]
      exact .inl rfl
  have heffect := s.perform_effect t
  generalize (s.perform t).1 = reply at heffect
  generalize (s.perform t).2 = s' at heffect
  cases heffect with
  | found | oldest | artifact | digest | present | unclaimed | uncompleted | unfailed =>
    exact .inl rfl
  | inserted other record hnew => exact hset rfl (.inl (by rw [status?, hnew, Option.map_none]))
  | claimed other r hr hpending => exact hset rfl (.inr fun h => by cases h)
  | completed other a r hr => exact hset rfl (.inr fun h => by cases h)
  | failed other message r hr => exact hset rfl (.inr fun h => by cases h)

/-- A job that was taken stays so in one turn. -/
theorem IsTaken.perform (h : s.IsTaken id) (t : Transaction) : (s.perform t).2.IsTaken id := by
  rcases s.status?_perform t id with hsame | hnone | htaken
  · obtain ⟨status, hstatus, hne⟩ := h
    exact ⟨status, hsame.trans hstatus, hne⟩
  · obtain ⟨status, hstatus, -⟩ := h
    rw [hnone] at hstatus
    cases hstatus
  · exact htaken

/-- A job that was taken stays so, whatever turns follow. -/
theorem IsTaken.after (h : s.IsTaken id) (turns : List Turn) : (s.after turns).IsTaken id := by
  induction turns generalizing s with
  | nil => exact h
  | cons turn turns ih => exact ih (h.perform turn.transaction)

/-- A job that was taken is so in each turn. -/
theorem IsTaken.of_mem_steps (h : s.IsTaken id) {x : Store × Turn} (hx : x ∈ s.steps turns) :
    x.1.IsTaken id := by
  induction turns generalizing s with
  | nil => cases hx
  | cons turn turns ih =>
    rcases List.mem_cons.mp hx with rfl | hx
    · exact h
    · exact ih (h.perform turn.transaction) hx

/-- A pending job that is not pending any more was taken, and so in one of the turns. -/
theorem exists_step_of_taken (h : s.status? id = some .pending)
    (h' : (s.after turns).status? id ≠ some .pending) :
    (s.after turns).IsTaken id ∧ ∃ x ∈ s.steps turns, x.1.status? id = some .pending ∧
      (x.1.perform x.2.transaction).2.status? id ≠ some .pending := by
  induction turns generalizing s with
  | nil => exact absurd h h'
  | cons turn turns ih =>
    by_cases hnext : (s.perform turn.transaction).2.status? id = some .pending
    · obtain ⟨htaken, x, hx, hstep⟩ := ih hnext h'
      exact ⟨htaken, x, List.mem_cons_of_mem _ hx, hstep⟩
    · refine ⟨?_, _, List.mem_cons_self, h, hnext⟩
      rcases s.status?_perform turn.transaction id with hsame | hnone | htaken
      · exact absurd (hsame.trans h) hnext
      · rw [h] at hnone
        cases hnone
      · exact htaken.after turns

/-! ## Claims of one job -/

/-- In the step `status?` of the job goes from `.pending` to `.processing`. -/
def claimsJob (id : String) (x : Store × Turn) : Bool :=
  x.1.status? id == some .pending &&
    (x.1.perform x.2.transaction).2.status? id == some .processing

/-- The turns among `turns` whose step has `claimsJob`. -/
def claims (s : Store) (id : String) (turns : List Turn) : List Turn :=
  ((s.steps turns).filter (claimsJob id)).map Prod.snd

/-- Claims in turns after turns come after them. -/
theorem claims_append (s : Store) (id : String) (xs ys : List Turn) :
    s.claims id (xs ++ ys) = s.claims id xs ++ (s.after xs).claims id ys := by
  unfold claims
  rw [steps_append, List.filter_append, List.map_append]

/-- The first turn is a claim or not. -/
theorem claims_cons (s : Store) (id : String) (turn : Turn) (turns : List Turn) :
    s.claims id (turn :: turns) =
      (if claimsJob id (s, turn) then [turn] else []) ++
        (s.perform turn.transaction).2.claims id turns := by
  unfold claims
  rw [steps, List.filter_cons]
  split <;> rfl

/-- A job that was taken is not claimed again. -/
theorem IsTaken.claims_eq_nil (h : s.IsTaken id) (turns : List Turn) : s.claims id turns = [] := by
  refine List.map_eq_nil_iff.mpr (List.filter_eq_nil_iff.mpr fun x hx hclaims => ?_)
  rw [claimsJob, Bool.and_eq_true, beq_iff_eq] at hclaims
  exact (h.of_mem_steps hx).ne_pending hclaims.1

/-- A job that is pending after some turns was not claimed in them. -/
theorem claims_eq_nil_of_pending (h : (s.after turns).status? id = some .pending) :
    s.claims id turns = [] := by
  induction turns generalizing s with
  | nil => rfl
  | cons turn turns ih =>
    have hrest := ih h
    have hfirst : claimsJob id (s, turn) = false := by
      refine Bool.eq_false_iff.mpr fun hclaims => ?_
      rw [claimsJob, Bool.and_eq_true, beq_iff_eq, beq_iff_eq] at hclaims
      -- Had it been claimed, it would not be pending.
      have htaken : (s.perform turn.transaction).2.IsTaken id := ⟨_, hclaims.2, nofun⟩
      exact (htaken.after turns).ne_pending h
    rw [claims_cons, hfirst]
    exact hrest

/-- A pending job that is claimed is a processing one. -/
theorem status?_claim (h : s.status? id = some .pending) :
    (s.perform (.claim id)).2.status? id = some .processing := by
  obtain ⟨r, hr, hpending⟩ := Option.map_eq_some_iff.mp h
  rw [perform_claim hr hpending]
  exact (status?_of_jobs_eq rfl id).trans (if_pos rfl)

/-- A pending job that is claimed is taken. -/
theorem isTaken_claim (h : s.status? id = some .pending) :
    (s.perform (.claim id)).2.IsTaken id := ⟨_, status?_claim h, nofun⟩

/-- A job that was taken is looked up under its name. -/
theorem IsTaken.exists_job? (h : s.IsTaken id) : ∃ job, s.job? id = some job ∧ job.id = id := by
  obtain ⟨status, hstatus, -⟩ := h
  obtain ⟨r, hr, -⟩ := Option.map_eq_some_iff.mp hstatus
  exact ⟨{ r with id }, by rw [job?, hr, Option.map_some], rfl⟩

/-- A claim of a pending job is the only one in a whole history. -/
theorem claims_of_claim {before : List Turn} (h : (s.after before).status? id = some .pending)
    (after : List Turn) :
    s.claims id (before ++ .own (.claim id) :: after) = [.own (.claim id)] := by
  have hlater := (isTaken_claim h).claims_eq_nil after
  have hclaims : claimsJob id (s.after before, .own (.claim id)) = true := by
    rw [claimsJob, Bool.and_eq_true, beq_iff_eq, beq_iff_eq]
    exact ⟨h, status?_claim h⟩
  rw [claims_append, claims_eq_nil_of_pending h, claims_cons, if_pos hclaims]
  exact congrArg (List.cons _) hlater

/-- A claim of a job that is not pending yields nothing and does nothing. -/
theorem perform_claim_of_status? (h : s.status? id ≠ some .pending) :
    s.perform (.claim id) = (.ok false, s) :=
  perform_claim_of_ne fun _ hr hpending => h ((status?_eq_some hr).trans (congrArg some hpending))

/-- A claim that yields something finds a pending job if it is granted, and no such job if not. -/
theorem status?_of_claim {granted : Bool} (h : (s.perform (.claim id)).1 = .ok granted) :
    s.status? id = some .pending ↔ granted = true := by
  by_cases hpending : s.status? id = some .pending
  · obtain ⟨r, hr, hr'⟩ := Option.map_eq_some_iff.mp hpending
    rw [perform_claim hr hr'] at h
    exact iff_of_true hpending (Except.ok.inj h).symm
  · rw [perform_claim_of_status? hpending] at h
    exact iff_of_false hpending fun htrue => by cases h.trans (congrArg Except.ok htrue)

/-- Looking for the oldest pending job leaves the store alone. -/
theorem after_look (s : Store) (before turns : List Turn) :
    s.after (before ++ .own .oldestPending :: turns) = (s.after before).after turns := by
  rw [after_append, after_cons]
  rfl

/-- A claim of a job that is not pending leaves the store alone. -/
theorem after_claim (h : s.status? id ≠ some .pending) (turns : List Turn) :
    s.after (.own (.claim id) :: turns) = s.after turns := by
  rw [after_cons]
  exact congrArg (fun s => s.after turns) (congrArg Prod.snd (perform_claim_of_status? h))

/-- An attempt that comes too late leaves the store as others left it. -/
theorem after_lost {before between : List Turn}
    (h : ((s.after before).after between).status? id ≠ some .pending) (turns : List Turn) :
    s.after (before ++ .own .oldestPending :: (between ++ .own (.claim id) :: turns)) =
      ((s.after before).after between).after turns := by
  rw [after_look, after_append, after_claim h]

end Store

open Program

/-! ## The attempts of a call -/

/-- `Attempts n s turns job?`: from the store `s` and with these `turns`, a call of `claimOldest`
with `n` attempts left can yield `job?`. -/
inductive Attempts : Nat → Store → List Turn → Option Job → Prop
  /-- There is no attempt left. -/
  | exhausted (s : Store) {others : List Turn} (hothers : AreOthers others) :
    Attempts 0 s others none
  /-- No job is pending. -/
  | idle (n : Nat) (s : Store) {before after : List Turn} (hbefore : AreOthers before)
      (hafter : AreOthers after) (hlook : (s.after before).oldestPending? = none) :
    Attempts (n + 1) s (before ++ .own .oldestPending :: after) none
  /-- The oldest pending job is still pending when it is claimed. -/
  | won (n : Nat) (s : Store) {before between after : List Turn} {job : Job}
      (hlook : (s.after before).oldestPending? = some job.id)
      (hwon : ((s.after before).after between).status? job.id = some .pending) :
    Attempts (n + 1) s
      (before ++ .own .oldestPending :: (between ++ .own (.claim job.id) :: after)) (some job)
  /-- The oldest pending job is not pending any more when it is claimed. -/
  | lost (n : Nat) (s : Store) {before between rest : List Turn} {id : String} {job? : Option Job}
      (hbefore : AreOthers before) (hbetween : AreOthers between)
      (hlook : (s.after before).oldestPending? = some id)
      (hlost : ((s.after before).after between).status? id ≠ some .pending)
      (hrest : Attempts n ((s.after before).after between) rest job?) :
    Attempts (n + 1) s
      (before ++ .own .oldestPending :: (between ++ .own (.claim id) :: rest)) job?

namespace Lifecycle

variable {s : Store} {turns : List Turn}

/-- A claim that yields something takes one turn. -/
theorem amid_claim {id : String} {granted : Bool}
    (h : RunsAmid (claim id).run s turns (.ok granted)) :
    ∃ before after, turns = before ++ .own (.claim id) :: after ∧ AreOthers before ∧
      AreOthers after ∧ ((s.after before).status? id = some .pending ↔ granted = true) := by
  unfold claim at h
  obtain ⟨claimed, first, second, rfl, hclaim, hrest⟩ := RunsAmid.of_bind_action h
  obtain ⟨before, after, rfl, hbefore, hafter, hreply⟩ := RunsAmid.of_transact hclaim
  have hvalue : granted = claimed ∧ AreOthers second := by
    cases claimed with
    | true =>
      obtain ⟨u, third, fourth, rfl, hlog, hpure⟩ := RunsAmid.of_bind_action hrest
      obtain ⟨hvalue, hfourth⟩ := RunsAmid.of_pure hpure
      exact ⟨Except.ok.inj hvalue,
        List.forall_mem_append.mpr ⟨(RunsAmid.of_log hlog).2, hfourth⟩⟩
    | false =>
      obtain ⟨hvalue, hsecond⟩ := RunsAmid.of_pure hrest
      exact ⟨Except.ok.inj hvalue, hsecond⟩
  obtain ⟨rfl, hsecond⟩ := hvalue
  exact ⟨before, after ++ second, by simp, hbefore,
    List.forall_mem_append.mpr ⟨hafter, hsecond⟩, Store.status?_of_claim hreply⟩

/-- A look for the oldest pending job that yields something takes one turn. -/
theorem amid_look {found : Option String}
    (h : RunsAmid (Action.transact .oldestPending).run s turns (.ok found)) :
    ∃ before after, turns = before ++ .own .oldestPending :: after ∧ AreOthers before ∧
      AreOthers after ∧ (s.after before).oldestPending? = found := by
  obtain ⟨before, after, rfl, hbefore, hafter, hreply⟩ := RunsAmid.of_transact h
  exact ⟨before, after, rfl, hbefore, hafter, Except.ok.inj hreply⟩

/-- A job that was taken is found, whoever takes turns before it is looked up. -/
theorem amid_find {id : String} {job? : Option Job} (htaken : s.IsTaken id)
    (h : RunsAmid (find id).run s turns (.ok job?)) : ∃ job, job? = some job ∧ job.id = id := by
  obtain ⟨before, after, -, -, -, hreply⟩ := RunsAmid.of_transact h
  obtain ⟨job, hjob, hid⟩ := (htaken.after before).exists_job?
  exact ⟨job, (Except.ok.inj hreply).symm.trans hjob, hid⟩

/-- A call goes by attempts. -/
theorem attempts_of_runsAmid {n : Nat} {job? : Option Job}
    (h : RunsAmid (claimOldestWithin n).run s turns (.ok job?)) : Attempts n s turns job? := by
  induction n generalizing s turns with
  | zero =>
    obtain ⟨hvalue, hothers⟩ := RunsAmid.of_pure h
    obtain rfl := Except.ok.inj hvalue
    exact .exhausted s hothers
  | succ n ih =>
    unfold claimOldestWithin at h
    obtain ⟨found, first, second, rfl, hlook, h⟩ := RunsAmid.of_bind_action h
    obtain ⟨before, between, rfl, hbefore, hbetween, hfound⟩ := amid_look hlook
    rw [Store.after_look] at h
    cases found with
    | none =>
      obtain ⟨hvalue, hothers⟩ := RunsAmid.of_pure h
      obtain rfl := Except.ok.inj hvalue
      rw [List.append_assoc, List.cons_append]
      exact .idle n s hbefore (List.forall_mem_append.mpr ⟨hbetween, hothers⟩) hfound
    | some id =>
      obtain ⟨granted, third, fourth, rfl, hclaim, h⟩ := RunsAmid.of_bind_action h
      obtain ⟨between', after, rfl, hbetween', hafter, hgranted⟩ := amid_claim hclaim
      rw [← Store.after_append] at hgranted
      have hturns : before ++ .own .oldestPending :: between ++
          (between' ++ .own (.claim id) :: after ++ fourth) =
          before ++ .own .oldestPending ::
            (between ++ between' ++ .own (.claim id) :: (after ++ fourth)) := by simp
      rw [hturns]
      cases granted with
      | true =>
        have hpending := hgranted.mpr rfl
        rw [if_pos rfl, Store.after_append, Store.after_cons,
          ← Store.after_append (s.after before)] at h
        obtain ⟨job, rfl, rfl⟩ := amid_find ((Store.isTaken_claim hpending).after after) h
        exact .won n s hfound hpending
      | false =>
        have hlost : ((s.after before).after (between ++ between')).status? id ≠ some .pending :=
          fun hpending => nomatch hgranted.mp hpending
        obtain ⟨u, fifth, sixth, rfl, hlog, hrest⟩ := RunsAmid.of_bind_action h
        -- Only others take turns between the claim that came too late and the next attempt.
        rw [Store.after_append, ← Store.after_append (s.after before), Store.after_claim hlost,
          ← Store.after_append] at hrest
        rw [← List.append_assoc]
        exact .lost n s hbefore (List.forall_mem_append.mpr ⟨hbetween, hbetween'⟩) hfound hlost
          (ih (RunsAmid.after_others
            (List.forall_mem_append.mpr ⟨hafter, (RunsAmid.of_log hlog).2⟩) hrest))

end Lifecycle

/-! ## What a call comes to -/

/-- A call selects a job that is the oldest pending one, claims it, and nobody else does. -/
structure IsGranted (s : Store) (turns : List Turn) (id : String) : Prop where
  /-- The job is the oldest pending one when it is selected, and is claimed after that. -/
  selected : ∃ before between after,
    turns = before ++ .own .oldestPending :: (between ++ .own (.claim id) :: after) ∧
      (s.after before).IsOldestPending id
  /-- What makes it a processing one is the claim of the call, and nothing else. -/
  claims : s.claims id turns = [.own (.claim id)]

/-- A call selects a job that is the oldest pending one, but before it claims the job somebody else
takes it. -/
def LosesRace (s : Store) (turns : List Turn) (id : String) : Prop :=
  ∃ before between after,
    turns = before ++ .own .oldestPending :: (between ++ .own (.claim id) :: after) ∧
      (s.after before).IsOldestPending id ∧
      ∃ x ∈ (s.after before).steps between, x.2.isOwn = false ∧
        x.1.status? id = some .pending ∧
        (x.1.perform x.2.transaction).2.status? id ≠ some .pending

/-- Each turn of the program leaves the store that it finds as it is. -/
def IsQuiet (s : Store) (turns : List Turn) : Prop :=
  ∀ x ∈ s.steps turns, x.2.isOwn = true → (x.1.perform x.2.transaction).2 = x.1

/-- A call finds no pending job, or loses as many jobs as it has attempts, and changes nothing. -/
structure ComesToNothing (attempts : Nat) (s : Store) (turns : List Turn) : Prop where
  /-- No job is pending when the call looks for one, or it loses one job after another. -/
  reason : (∃ u, (u, .own .oldestPending) ∈ s.steps turns ∧ u.pending = []) ∨
    ∃ ids : List String, ids.length = attempts ∧ ids.Nodup ∧ ∀ id ∈ ids, LosesRace s turns id
  /-- No turn of the call changes the store. -/
  quiet : IsQuiet s turns

variable {s : Store} {turns : List Turn} {n : Nat} {id : String}

/-- A job that is lost after some turns is lost. -/
theorem LosesRace.append {first : List Turn} (h : LosesRace (s.after first) turns id) :
    LosesRace s (first ++ turns) id := by
  obtain ⟨before, between, after, rfl, hrace⟩ := h
  rw [← Store.after_append] at hrace
  exact ⟨first ++ before, between, after, by simp, hrace⟩

/-- A job that is taken is not lost to others. -/
theorem LosesRace.not_isTaken (h : LosesRace s turns id) : ¬s.IsTaken id := by
  obtain ⟨before, between, after, -, holdest, -⟩ := h
  exact fun htaken => (htaken.after before).ne_pending holdest.status?_eq

/-- While others take turns the program is quiet. -/
theorem AreOthers.isQuiet (h : AreOthers turns) (s : Store) : IsQuiet s turns := by
  intro x hx hown
  rw [h x.2 (Store.mem_of_mem_steps hx)] at hown
  cases hown

/-- The program is quiet in turns if it is in a first one and in those after it. -/
theorem IsQuiet.cons {turn : Turn} (h : (s.perform turn.transaction).2 = s)
    (hturns : IsQuiet s turns) : IsQuiet s (turn :: turns) := by
  intro x hx hown
  rw [Store.steps, h] at hx
  rcases List.mem_cons.mp hx with rfl | hx
  · exact h
  · exact hturns x hx hown

/-- The program is quiet in turns after turns if it is in both. -/
theorem IsQuiet.append {first : List Turn} (hfirst : IsQuiet s first)
    (h : IsQuiet (s.after first) turns) : IsQuiet s (first ++ turns) := by
  intro x hx hown
  rw [Store.steps_append] at hx
  rcases List.mem_append.mp hx with hx | hx
  · exact hfirst x hx hown
  · exact h x hx hown

/-- A call that returns a job selected it as the oldest pending one, and claimed it while it was
still pending. -/
theorem Attempts.exists_claim {job : Job} (h : Attempts n s turns (some job)) :
    ∃ before between after,
      turns = before ++ .own .oldestPending :: (between ++ .own (.claim job.id) :: after) ∧
        (s.after before).IsOldestPending job.id ∧
        ((s.after before).after between).status? job.id = some .pending := by
  generalize hjob : some job = job? at h
  induction h with
  | exhausted | idle => cases hjob
  | @won n s before between after _ hlook hwon =>
    obtain rfl := Option.some.inj hjob
    exact ⟨before, between, after, rfl, Store.oldestPending?_eq_some_iff.mp hlook, hwon⟩
  | @lost n s before between rest id _ _ _ _ hlost _ ih =>
    obtain ⟨before', between', after', rfl, holdest, hpending⟩ := ih hjob
    refine ⟨before ++ .own .oldestPending :: (between ++ .own (.claim id) :: before'), between',
      after', by simp, ?_, ?_⟩
    · rw [Store.after_lost hlost]
      exact holdest
    · rw [Store.after_lost hlost]
      exact hpending

/-- A call that returns nothing came to nothing: each attempt loses another job, as one that was
taken is not pending again. -/
theorem Attempts.comesToNothing (h : Attempts n s turns none) : ComesToNothing n s turns := by
  generalize hjob : none = job? at h
  induction h with
  | exhausted s hothers =>
    exact ⟨.inr ⟨[], rfl, .nil, fun _ hid => nomatch hid⟩, hothers.isQuiet s⟩
  | @idle n s before after hbefore hafter hlook =>
    refine ⟨.inl ⟨s.after before, ?_, Store.oldestPending?_eq_none_iff.mp hlook⟩, ?_⟩
    · rw [Store.steps_append]
      exact List.mem_append_right _ List.mem_cons_self
    · exact (hbefore.isQuiet s).append (.cons rfl (hafter.isQuiet _))
  | won => cases hjob
  | @lost n s before between rest id job? hbefore hbetween hlook hlost hrest ih =>
    obtain ⟨hreason, hquiet⟩ := ih hjob
    -- The attempt, after which the rest goes on from what others made of the store.
    let first := before ++ .own .oldestPending :: (between ++ [.own (.claim id)])
    have hturns : before ++ .own .oldestPending :: (between ++ .own (.claim id) :: rest) =
        first ++ rest := by simp [first]
    have hstore : s.after first = (s.after before).after between := Store.after_lost hlost []
    have hfirst : IsQuiet s first :=
      (hbefore.isQuiet s).append <| .cons rfl <| (hbetween.isQuiet _).append <|
        .cons (congrArg Prod.snd (Store.perform_claim_of_status? hlost)) fun _ hx => nomatch hx
    have holdest := Store.oldestPending?_eq_some_iff.mp hlook
    obtain ⟨htaken, x, hx, hstep⟩ := Store.exists_step_of_taken holdest.status?_eq hlost
    rw [hturns]
    rw [← hstore] at hreason hquiet htaken
    refine ⟨?_, hfirst.append hquiet⟩
    rcases hreason with ⟨u, hu, hpending⟩ | ⟨ids, hlength, hnodup, hraces⟩
    · refine .inl ⟨u, ?_, hpending⟩
      rw [Store.steps_append]
      exact List.mem_append_right _ hu
    · refine .inr ⟨id :: ids, by simp [hlength], List.nodup_cons.mpr ⟨fun hid => ?_, hnodup⟩, ?_⟩
      · exact (hraces id hid).not_isTaken htaken
      · refine List.forall_mem_cons.mpr ⟨?_, fun other hother => (hraces other hother).append⟩
        exact ⟨before, between, rest, hturns.symm, holdest, x, hx,
          hbetween x.2 (Store.mem_of_mem_steps hx), hstep⟩

/-- A call of `claimOldest` amid any turns of others that yields a job `IsGranted` it, and its claim
is the only one of this job in the whole history, with what came earlier and what comes later. A
call that yields `none` `ComesToNothing`. -/
theorem claimOldest_amid_others {s : Store} {earlier turns : List Turn} {job? : Option Job}
    (h : RunsAmid Lifecycle.claimOldest.run (s.after earlier) turns (.ok job?)) :
    (∀ job, job? = some job → IsGranted (s.after earlier) turns job.id ∧
      ∀ later, s.claims job.id (earlier ++ turns ++ later) = [.own (.claim job.id)]) ∧
    (job? = none → ComesToNothing Lifecycle.maxClaimAttempts (s.after earlier) turns) := by
  have hattempts := Lifecycle.attempts_of_runsAmid h
  constructor
  · rintro job rfl
    obtain ⟨before, between, after, hturns, holdest, hpending⟩ := hattempts.exists_claim
    rw [← Store.after_look] at hpending
    have hclaim : turns =
        before ++ .own .oldestPending :: between ++ .own (.claim job.id) :: after := by
      simp [hturns]
    refine ⟨⟨⟨before, between, after, hturns, holdest⟩, ?_⟩, fun later => ?_⟩
    · rw [hclaim]
      exact Store.claims_of_claim hpending after
    · rw [← Store.after_append] at hpending
      rw [hclaim, ← List.append_assoc, List.append_assoc, List.cons_append]
      exact Store.claims_of_claim hpending (after ++ later)
  · rintro rfl
    exact hattempts.comesToNothing

/-- A call that loses the older of two jobs is granted the other one, and a call on a store without
jobs comes to nothing. -/
theorem claimOldest_amid_others_of_two :
    let record (made : Int) : JobRecord :=
      { repository := ⟨"octo", "demo"⟩
        url := "https://github.com/octo/demo"
        createdAt := ⟨made, false⟩ }
    let earlier : List Turn := [.other (.insert "a" (record 0)), .other (.insert "b" (record 1))]
    let turns : List Turn := [.own .oldestPending, .other (.claim "a"), .own (.claim "a"),
      .own .oldestPending, .own (.claim "b"), .own (.find "b")]
    (RunsAmid Lifecycle.claimOldest.run (Store.empty.after earlier) turns
        (.ok (some { (record 1).claimed with id := "b" })) ∧
      IsGranted (Store.empty.after earlier) turns "b") ∧
    RunsAmid Lifecycle.claimOldest.run (Store.empty.after []) [.own .oldestPending] (.ok none) ∧
      ComesToNothing Lifecycle.maxClaimAttempts (Store.empty.after []) [.own .oldestPending] := by
  intro record earlier turns
  have hgranted : RunsAmid Lifecycle.claimOldest.run (Store.empty.after earlier) turns
      (.ok (some { (record 1).claimed with id := "b" })) :=
    .own .oldestPending _ _ <| .other _ _ _ <| .own (.claim "a") _ _ <| .hear _ _ _ () rfl <|
    .own .oldestPending _ _ <| .own (.claim "b") _ _ <| .hear _ _ _ () rfl <|
    .own (.find "b") _ _ <| .done _ _
  have hnothing : RunsAmid Lifecycle.claimOldest.run (Store.empty.after []) [.own .oldestPending]
      (.ok none) := .own .oldestPending _ _ <| .done _ _
  exact ⟨⟨hgranted, ((claimOldest_amid_others hgranted).1 _ rfl).1⟩, hnothing,
    (claimOldest_amid_others hnothing).2 rfl⟩

end RepoGraph
