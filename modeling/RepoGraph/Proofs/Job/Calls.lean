import Mathlib.Data.List.Induction
import RepoGraph.Job.Lifecycle
import RepoGraph.Proofs.Job.Tables
import RepoGraph.Proofs.Session

/-!
# What can be relied on when the store is called

Callers may create, claim, complete and fail jobs in any order and as often as they like, and the
database may refuse any of it. `reliable_of_calls` says what they can rely on all the same: the two
tables fit together, jobs stay and remain the same jobs, each of them is granted once at most, and
what fails has changed nothing.

`Call.Effect` lists all that a call can do, and `effect_of_runs` says that nothing else happens.
From it follows that a call changes the tables by one `Store.Step` at most (`Call.Effect.step`). The
guarantees are then inductions on the sequence of calls. That any calls can be made one after
another, whatever comes of them, is `Calls.exists_of_calls`.
-/

namespace RepoGraph.Lifecycle

open RepoGraph.Program

/-- A call of one of the functions of `Lifecycle`. -/
inductive Call
  /-- Create a job for a URL. -/
  | create (url : String) (requestedBy : Option String)
  /-- Look up a job. -/
  | find (id : String)
  /-- Claim a job. -/
  | claim (id : String)
  /-- Claim the oldest pending job. -/
  | claimOldest
  /-- Complete a job with its artifact. -/
  | complete (id : String) (a : Artifact)
  /-- Make a job a failed one. -/
  | fail (id message : String)
  /-- Look up the artifact of a job. -/
  | artifact (id : String)
  /-- Look up the digest of a job's artifact. -/
  | digest (id : String)

namespace Call

/-- The type of what a call yields. -/
abbrev Result : Call → Type
  | create .. => Job
  | find _ => Option Job
  | claim _ => Bool
  | claimOldest => Option Job
  | complete .. => Unit
  | fail .. => Unit
  | artifact _ => Option Artifact
  | digest _ => Option String

/-- The function of `Lifecycle` that is called. -/
def action : (c : Call) → Action c.Result
  | create url requestedBy => Lifecycle.create url requestedBy
  | find id => Lifecycle.find id
  | claim id => Lifecycle.claim id
  | claimOldest => Lifecycle.claimOldest
  | complete id a => Lifecycle.complete id a
  | fail id message => Lifecycle.fail id message
  | artifact id => Lifecycle.artifact id
  | digest id => Lifecycle.digest id

/-- `Effect s c r t`: called in the store `s`, `c` can yield `r` and leave the store `t`. -/
inductive Effect (s : Store) : (c : Call) → Except Failure c.Result → Store → Prop
  /-- The database refused the call, and nothing was done. -/
  | refused (c : Call) : Effect s c (.error .database) s
  /-- The URL is not one of a repository. -/
  | malformed (url : String) (requestedBy : Option String)
      (h : Repository.ofUrl? url = none) :
    Effect s (.create url requestedBy) (.error (.url url)) s
  /-- A new job is created. -/
  | created (record : JobRecord) (id : String)
      (hrepository : Repository.ofUrl? record.url = some record.repository)
      (hpending : record.status = .pending) (herror : record.error = none)
      (h : s.jobs.lookup? id = none) :
    Effect s (.create record.url record.requestedBy) (.ok { record with id })
      { s with jobs := s.jobs.insert id record.stored }
  /-- A job is looked up. -/
  | found (id : String) : Effect s (.find id) (.ok (s.job? id)) s
  /-- A job that is not pending is not claimed. -/
  | unclaimed (id : String) (h : ∀ r, s.jobs.lookup? id = some r → r.status ≠ .pending) :
    Effect s (.claim id) (.ok false) s
  /-- A pending job is claimed. -/
  | claimed (id : String) (r : JobRecord) (h : s.jobs.lookup? id = some r)
      (hpending : r.status = .pending) :
    Effect s (.claim id) (.ok true) { s with jobs := s.jobs.insert id r.claimed }
  /-- No pending job is claimed. -/
  | idle : Effect s .claimOldest (.ok none) s
  /-- A pending job is claimed, and looked up. -/
  | granted (id : String) (r : JobRecord) (h : s.jobs.lookup? id = some r)
      (hpending : r.status = .pending) :
    Effect s .claimOldest (.ok (some { r.claimed with id }))
      { s with jobs := s.jobs.insert id r.claimed }
  /-- A pending job is claimed, and the database refuses to look it up. -/
  | lost (id : String) (r : JobRecord) (h : s.jobs.lookup? id = some r)
      (hpending : r.status = .pending) :
    Effect s .claimOldest (.error .database) { s with jobs := s.jobs.insert id r.claimed }
  /-- No job is completed with an artifact that cannot be serialized. -/
  | unserialized (id : String) (a : Artifact) (f : Failure) : Effect s (.complete id a) (.error f) s
  /-- A job that is not there is not completed. -/
  | uncompleted (id : String) (a : Artifact) (h : s.jobs.lookup? id = none) :
    Effect s (.complete id a) (.error (Store.notFound id)) s
  /-- A job is completed. -/
  | completed (id : String) (a : Artifact) (r : JobRecord) (h : s.jobs.lookup? id = some r) :
    Effect s (.complete id a) (.ok ())
      ⟨s.jobs.insert id r.completed, s.artifacts.insert id ⟨a.toJson, a.digest⟩⟩
  /-- A job that is not there is not made a failed one. -/
  | unfailed (id message : String) (h : s.jobs.lookup? id = none) :
    Effect s (.fail id message) (.error (Store.notFound id)) s
  /-- A job is made a failed one. -/
  | failed (id message : String) (r : JobRecord) (h : s.jobs.lookup? id = some r) :
    Effect s (.fail id message) (.ok ()) { s with jobs := s.jobs.insert id (r.failed message) }
  /-- The artifact of a job is looked up. -/
  | artifact (id : String) : Effect s (.artifact id) (s.artifact? id) s
  /-- The digest of a job's artifact is looked up. -/
  | digest (id : String) :
    Effect s (.digest id) (.ok ((s.artifacts.lookup? id).map (·.digest))) s

end Call

variable {s s' : Store}

/-! ## What a call does -/

/-- A job is created for the URL of a repository, under a name that is new. -/
theorem effect_of_runs_create {url : String} {requestedBy : Option String}
    {r : Except Failure Job} (h : Runs (create url requestedBy).run s r s') :
    Call.Effect s (.create url requestedBy) r s' := by
  unfold create at h
  split at h
  · rename_i hurl
    obtain ⟨rfl, rfl⟩ := h.of_pure
    exact .malformed url requestedBy hurl
  · rename_i repository hurl
    obtain ⟨⟨id, now⟩, h⟩ := h.of_bind_outside rfl
    rcases h.of_bind_transact with ⟨_, t, hinsert, hnext⟩ | ⟨_, hinsert, rfl⟩ | ⟨rfl, rfl⟩
    · cases hinsert with
      | inserted _ _ hnew =>
        obtain ⟨_, hnext⟩ := hnext.of_bind_outside rfl
        obtain ⟨rfl, rfl⟩ := hnext.of_pure
        exact .created ⟨repository, url, .pending, none, requestedBy, now⟩ id hurl rfl rfl hnew
    · cases hinsert with
      | present => exact .refused _
    · exact .refused _

/-- A claim does what its transaction does. -/
theorem effect_of_runs_claim {id : String} {r : Except Failure Bool}
    (h : Runs (claim id).run s r s') : Call.Effect s (.claim id) r s' := by
  unfold claim at h
  rcases h.of_bind_transact with ⟨_, t, hclaim, hnext⟩ | ⟨_, hclaim, rfl⟩ | ⟨rfl, rfl⟩
  · cases hclaim with
    | unclaimed _ hpending =>
      obtain ⟨rfl, rfl⟩ := hnext.of_pure
      exact .unclaimed id hpending
    | claimed _ record hrecord hpending =>
      obtain ⟨_, hnext⟩ := hnext.of_bind_outside rfl
      obtain ⟨rfl, rfl⟩ := hnext.of_pure
      exact .claimed id record hrecord hpending
  · cases hclaim
  · exact .refused _

/-- However many jobs are tried, the first one that is claimed is looked up. -/
theorem effect_of_runs_claimOldestWithin (attempts : Nat) {r : Except Failure (Option Job)}
    (h : Runs (claimOldestWithin attempts).run s r s') : Call.Effect s .claimOldest r s' := by
  induction attempts generalizing s with
  | zero =>
    obtain ⟨rfl, rfl⟩ := h.of_pure
    exact .idle
  | succ attempts ih =>
    rw [claimOldestWithin] at h
    rcases h.of_bind_transact with ⟨oldest?, t, holdest, hnext⟩ | ⟨_, holdest, rfl⟩ | ⟨rfl, rfl⟩
    · cases holdest
      cases holdest : s.oldestPending? with
      | none =>
        rw [holdest] at hnext
        obtain ⟨rfl, rfl⟩ := hnext.of_pure
        exact .idle
      | some id =>
        rw [holdest] at hnext
        rcases hnext.of_bind_action with ⟨_, hclaim, rfl⟩ | ⟨claimed, u, hclaim, hnext⟩
        · cases effect_of_runs_claim hclaim with
          | refused => exact .refused _
        · cases effect_of_runs_claim hclaim with
          | unclaimed =>
            -- The next attempt begins with the tables as they were.
            obtain ⟨_, hnext⟩ := hnext.of_bind_outside rfl
            exact ih hnext
          | claimed _ record hrecord hpending =>
            rcases Runs.of_transact hnext with hfind | ⟨rfl, rfl⟩
            · cases hfind
              rw [Store.job?, Table.lookup?_insert_self]
              exact .granted id record hrecord hpending
            · exact .lost id record hrecord hpending
    · cases holdest
    · exact .refused _

/-- A call does what its effect says. -/
theorem effect_of_runs {c : Call} {r : Except Failure c.Result} (h : Runs c.action.run s r s') :
    Call.Effect s c r s' := by
  cases c with
  | create => exact effect_of_runs_create h
  | claim => exact effect_of_runs_claim h
  | claimOldest => exact effect_of_runs_claimOldestWithin maxClaimAttempts h
  | find id =>
    rcases Runs.of_transact h with hfind | ⟨rfl, rfl⟩
    · cases hfind
      exact .found id
    · exact .refused _
  | complete id a =>
    have houtside := (Action.IsDetached.serialize a).asksOutside
    rcases h.of_bind_action with ⟨f, hfails, rfl⟩ | ⟨text, t, hserialize, hnext⟩
    · obtain rfl := hfails.of_outside houtside
      exact .unserialized id a f
    obtain rfl := hserialize.of_outside houtside
    rcases Runs.of_transact hnext with hcomplete | ⟨rfl, rfl⟩
    · cases hcomplete with
      | uncompleted _ _ hnone => exact .uncompleted id a hnone
      | completed _ _ record hrecord => exact .completed id a record hrecord
    · exact .refused _
  | fail id message =>
    rcases Runs.of_transact h with hfail | ⟨rfl, rfl⟩
    · cases hfail with
      | unfailed _ _ hnone => exact .unfailed id message hnone
      | failed _ _ record hrecord => exact .failed id message record hrecord
    · exact .refused _
  | artifact id =>
    rcases Runs.of_transact h with hartifact | ⟨rfl, rfl⟩
    · cases hartifact
      exact .artifact id
    · exact .refused _
  | digest id =>
    rcases Runs.of_transact h with hdigest | ⟨rfl, rfl⟩
    · cases hdigest
      exact .digest id
    · exact .refused _

/-! ## A call can always be made -/

/-- A job is created in a session. -/
theorem isSession_create (url : String) (requestedBy : Option String) :
    (create url requestedBy).IsSession := by
  unfold create
  split
  · exact .throw _
  · apply Action.IsSession.bind (.always rfl)
    rintro ⟨id, now⟩
    exact .bind (.transact _) fun _ => .bind (.always rfl) fun _ => .pure _

/-- A job is claimed in a session. -/
theorem isSession_claim (id : String) : (claim id).IsSession := by
  apply Action.IsSession.bind (.transact _)
  intro claimed
  cases claimed with
  | true => exact .bind (.always rfl) fun _ => .pure _
  | false => exact .pure _

/-- The oldest pending job is claimed in a session, however many jobs are tried. -/
theorem isSession_claimOldestWithin (attempts : Nat) : (claimOldestWithin attempts).IsSession := by
  induction attempts with
  | zero => exact .pure _
  | succ attempts ih =>
    rw [claimOldestWithin]
    apply Action.IsSession.bind (.transact _)
    intro oldest?
    cases oldest? with
    | none => exact .pure _
    | some id =>
      apply Action.IsSession.bind (isSession_claim id)
      intro claimed
      cases claimed with
      | true => exact .transact _
      | false => exact .bind (.always rfl) fun _ => ih

/-- Whatever the call, it is made in a session. -/
theorem isSession_action (c : Call) : c.action.IsSession := by
  cases c with
  | create url requestedBy => exact isSession_create url requestedBy
  | claim id => exact isSession_claim id
  | claimOldest => exact isSession_claimOldestWithin maxClaimAttempts
  | complete id a =>
    exact .bind (.of_outside (Action.IsDetached.serialize a).asksOutside) fun _ => .transact _
  | find | fail | artifact | digest => exact .transact _

/-! ## What was granted -/

/-- A call that was made, with what it yielded. -/
structure Reply where
  /-- The call. -/
  call : Call
  /-- What it yielded. -/
  result : Except Failure call.Result

/-- The job that was granted to the caller, if the call was a claim that succeeded. -/
def Reply.granted : Reply → List String
  | ⟨.claim id, .ok true⟩ => [id]
  | ⟨.claimOldest, .ok (some job)⟩ => [job.id]
  | _ => []

namespace Call.Effect

variable {c : Call} {r : Except Failure c.Result}

/-- A call changes the tables by one step at most. -/
theorem step (h : Effect s c r s') : s.Step s' := by
  cases h with
  | refused | malformed | found | unclaimed | idle | unserialized | uncompleted | unfailed |
    artifact | digest => exact .stay
  | created record id _ hpending herror hnew => exact .entered id record hpending herror hnew
  | claimed id record hrecord hpending => exact .claimed id record hrecord hpending
  | granted id record hrecord hpending => exact .claimed id record hrecord hpending
  | lost id record hrecord hpending => exact .claimed id record hrecord hpending
  | completed id a record hrecord => exact .completed id a record hrecord
  | failed id message record hrecord => exact .failed id message record hrecord

/-- A call that fails leaves the tables as they are. The exception takes a call of several
transactions: the oldest pending job is claimed, and then the database refuses to look it up. -/
theorem eq_of_error {f : Failure} (h : Effect s c (.error f) s') :
    s' = s ∨ c = .claimOldest ∧ f = .database ∧
      ∃ id record, s.jobs.lookup? id = some record ∧ record.status = .pending ∧
        s' = { s with jobs := s.jobs.insert id record.claimed } := by
  generalize hr : (.error f : Except Failure c.Result) = r at h
  cases h with
  | refused | malformed | unserialized | uncompleted | unfailed | artifact => exact .inl rfl
  | created | found | unclaimed | claimed | idle | granted | completed | failed | digest => cases hr
  | lost id record hrecord hpending =>
    cases hr
    exact .inr ⟨rfl, rfl, id, record, hrecord, hpending, rfl⟩

/-- A call is granted one job at most, which it found pending and leaves processing. -/
theorem granted_eq (h : Effect s c r s') :
    Reply.granted ⟨c, r⟩ = [] ∨
      ∃ id, Reply.granted ⟨c, r⟩ = [id] ∧ s.status? id = some .pending ∧
        s'.status? id = some .processing := by
  have hclaimed (id : String) (record : JobRecord) (hrecord : s.jobs.lookup? id = some record)
      (hpending : record.status = .pending) :
      s.status? id = some .pending ∧
        Store.status? { s with jobs := s.jobs.insert id record.claimed } id = some .processing := by
    constructor
    · rw [Store.status?_eq_some hrecord, hpending]
    · rw [Store.status?_of_jobs_eq (s := s) rfl, if_pos rfl]
      rfl
  cases h with
  | malformed | created | found | unclaimed | idle | lost | unserialized | uncompleted |
    completed | unfailed | failed | artifact | digest => exact .inl rfl
  | refused => cases c <;> exact .inl rfl
  | claimed id record hrecord hpending => exact .inr ⟨id, rfl, hclaimed id record hrecord hpending⟩
  | granted id record hrecord hpending => exact .inr ⟨id, rfl, hclaimed id record hrecord hpending⟩

end Call.Effect

/-! ## Calls one after another -/

/-- `Calls s replies t`: calls made one after another, with these replies, can lead from the store
`s` to `t`. -/
inductive Calls (s : Store) : List Reply → Store → Prop
  /-- No call is made. -/
  | none : Calls s [] s
  /-- One more call is made. -/
  | call {replies : List Reply} {t u : Store} (h : Calls s replies t) (c : Call)
      (r : Except Failure c.Result) (hrun : Runs c.action.run t r u) :
    Calls s (replies ++ [⟨c, r⟩]) u

namespace Calls

variable {replies : List Reply}

/-- Any calls can be made one after another. -/
theorem exists_of_calls (s : Store) (cs : List Call) :
    ∃ replies s', Calls s replies s' ∧ replies.map Reply.call = cs := by
  induction cs using List.reverseRecOn with
  | nil => exact ⟨[], s, .none, rfl⟩
  | append_singleton cs c ih =>
    obtain ⟨replies, t, hcalls, rfl⟩ := ih
    have hruns := World.isolated.runs_run (isSession_action c).within t
    exact ⟨_, _, hcalls.call c _ hruns, List.map_append⟩

/-- Calls keep the tables fitting together. -/
theorem isConsistent (h : Calls s replies s') (hs : s.IsConsistent) : s'.IsConsistent := by
  induction h with
  | none => exact hs
  | call _ c r hrun ih => exact (effect_of_runs hrun).step.isConsistent ih

/-- The jobs are there after any calls. -/
theorem evolves (h : Calls s replies s') : s.Evolves s' := by
  induction h with
  | none => exact .refl s
  | call _ c r hrun ih => exact ih.trans (effect_of_runs hrun).step.evolves

/-- No job was granted twice, and the jobs that were granted are there and are not pending. -/
theorem nodup_granted (h : Calls s replies s') :
    (replies.flatMap Reply.granted).Nodup ∧
      ∀ id ∈ replies.flatMap Reply.granted,
        ∃ status, s'.status? id = some status ∧ status ≠ .pending := by
  induction h with
  | none => exact ⟨List.nodup_nil, fun id hid => nomatch hid⟩
  | @call replies t u _ c r hrun ih =>
    obtain ⟨hnodup, hleft⟩ := ih
    have heffect : Call.Effect t c r u := effect_of_runs hrun
    have hremain : ∀ id ∈ replies.flatMap Reply.granted,
        ∃ status, u.status? id = some status ∧ status ≠ .pending :=
      fun id hid => heffect.step.evolves.exists_notPending (hleft id hid)
    rw [List.flatMap_append, List.flatMap_singleton]
    -- A job that is granted now was pending, which no job is that was granted before.
    rcases heffect.granted_eq with hnone | ⟨id, hone, hbefore, hafter⟩
    · rw [hnone, List.append_nil]
      exact ⟨hnodup, hremain⟩
    · have hnew : id ∉ replies.flatMap Reply.granted := fun hmem => by
        obtain ⟨status, hstatus, hne⟩ := hleft id hmem
        exact hne (Option.some.inj (hstatus.symm.trans hbefore))
      rw [hone]
      constructor
      · rw [← List.concat_eq_append]
        exact hnodup.concat hnew
      · intro other hother
        rcases List.mem_append.mp hother with hearlier | hlast
        · exact hremain other hearlier
        · obtain rfl := List.mem_singleton.mp hlast
          exact ⟨.processing, hafter, by decide⟩

end Calls

/-- What can be relied on in the store `s`, once `replies` were given. -/
structure Reliable (replies : List Reply) (s : Store) : Prop where
  /-- The tables fit together. -/
  consistent : s.IsConsistent
  /-- An artifact is read back, and the digest beside it is that of its text. -/
  digest : ∀ id stored, s.artifacts.lookup? id = some stored →
    ∃ a, s.artifact? id = .ok (some a) ∧ stored.digest = Digest.sha256Text a.stableText
  /-- No job was granted twice. -/
  granted_once : (replies.flatMap Reply.granted).Nodup
  /-- A call that is granted a job found it pending, and leaves it processing. -/
  granted : ∀ (c : Call) r t, Runs c.action.run s r t → ∀ id ∈ Reply.granted ⟨c, r⟩,
    s.status? id = some .pending ∧ t.status? id = some .processing
  /-- Whatever calls follow, the jobs remain those that were entered. -/
  evolves : ∀ more t, Calls s more t → s.Evolves t
  /-- A call that fails leaves the tables as they are. The exception takes a call of several
  transactions: the oldest pending job is claimed, and then the database refuses to look it up. -/
  failed : ∀ (c : Call) (f : Failure) (t : Store), Runs c.action.run s (.error f) t →
    t = s ∨ c = .claimOldest ∧ f = .database ∧
      ∃ id record, s.jobs.lookup? id = some record ∧ record.status = .pending ∧
        t = { s with jobs := s.jobs.insert id record.claimed }

/-- Whatever calls lead from the empty store to `s`, with whatever replies, these are `Reliable` in
`s`. -/
theorem reliable_of_calls {replies : List Reply} (h : Calls .empty replies s) :
    Reliable replies s where
  consistent := h.isConsistent Store.isConsistent_empty
  digest _ _ hstored := (h.isConsistent Store.isConsistent_empty).exists_artifact hstored
  granted_once := h.nodup_granted.1
  granted c r t hrun id hid := by
    rcases (effect_of_runs hrun).granted_eq with hnone | ⟨id', hone, hmoved⟩
    · rw [hnone] at hid
      cases hid
    · rw [hone] at hid
      obtain rfl := List.mem_singleton.mp hid
      exact hmoved
  evolves _ _ hmore := hmore.evolves
  failed _ _ _ hrun := (effect_of_runs hrun).eq_of_error

/-- A job is created, claimed as the oldest one, not claimed again, completed, and made a failed one
after that; another job is not there to be completed. -/
theorem reliable_of_calls_about_one_job :
    ∃ replies s, Calls .empty replies s ∧ replies.flatMap Reply.granted = ["1"] ∧
      Reliable replies s := by
  have h₁ := Calls.none.call (.create "https://github.com/octo/demo" none) _
    (.hear .newJob _ .empty ("1", ⟨0, true⟩) rfl
      (.perform (.insert "1" _) _ _ (.hear (.log _) _ _ () rfl (.done _ _))))
  have h₂ := h₁.call .claimOldest _ (.perform .oldestPending _ _
    (.perform (.claim "1") _ _ (.hear (.log _) _ _ () rfl (.perform (.find "1") _ _ (.done _ _)))))
  have h₃ := h₂.call (.claim "1") _ (.perform (.claim "1") _ _ (.done _ _))
  have h₄ := h₃.call (.complete "1" (.ofFiles [])) _
    (.hear (.dump _) _ _ (.ok ()) rfl (.perform (.complete "1" _) _ _ (.done _ _)))
  have h₅ := h₄.call (.complete "2" (.ofFiles [])) _
    (.hear (.dump _) _ _ (.ok ()) rfl (.perform (.complete "2" _) _ _ (.done _ _)))
  have h₆ := h₅.call (.fail "1" "late") _ (.perform (.fail "1" "late") _ _ (.done _ _))
  exact ⟨_, _, h₆, rfl, reliable_of_calls h₆⟩

end RepoGraph.Lifecycle
