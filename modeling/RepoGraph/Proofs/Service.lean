import RepoGraph.Proofs.Job.Claiming
import RepoGraph.Proofs.Job.Turns
import RepoGraph.Service.Basic

/-!
# What is seen of a job among others

A job is looked at in two transactions, the state first and the artifact of a completed job after
it, and others take turns in between. What is seen fits together all the same
(`JobView.IsCoherent`): the error is of one moment with the state, and an artifact that was there
once does not disappear, even if the job is made a failed one before it is looked up. Waiting for a
job is looking at it again and again, so that one look (`sees_poll`) gives the loop by induction on
the pauses (`settles_untilDeadline`), whatever the clock shows.

Neither of them changes anything: they ask only what `Question.isLook` allows, and a program that
does no more is quiet in any turns (`Program.RunsAmid.isQuiet`).
-/

namespace RepoGraph

open Program

/-! ## Programs that only look -/

/-- The question is a transaction without `changed?`, or one with `isOutside`. -/
def Question.isLook : Question → Bool
  | transact t => t.changed?.isNone
  | q => q.isOutside

/-- A transaction that changes no job changes nothing. -/
theorem Store.perform_of_changed? {t : Transaction} (h : t.changed? = none) (s : Store) :
    (s.perform t).2 = s := by
  cases t with
  | find | oldestPending | artifact | digest => rfl
  | insert | claim | complete | fail => cases h

/-- A program that only looks changes nothing in any of its turns. -/
theorem Program.RunsAmid.isQuiet {α : Type} {ends : α → Prop} {p : Activity α} {s : Store}
    {turns : List Turn} {a : α} (hp : p.Within (·.isLook = true) ends) (h : RunsAmid p s turns a) :
    IsQuiet s turns := by
  induction h with
  | done a s => exact AreOthers.isQuiet (List.forall_mem_nil _) s
  | other p s t h ih =>
    have hother : AreOthers [Turn.other t] := List.forall_mem_singleton.mpr rfl
    exact IsQuiet.append (hother.isQuiet s) (ih hp)
  | own t next s h ih =>
    obtain ⟨hlook, hnext⟩ := hp
    have hsame := Store.perform_of_changed? (Option.isNone_iff_eq_none.mp hlook) s
    rw [hsame] at h ih
    exact IsQuiet.cons hsame (ih (hnext _))
  | refuse t next s h ih => exact ih (hp.2 _)
  | hear q next s r hq h ih => exact ih (hp.2 r)

/-! ## Views -/

/-- A view shows an artifact of a completed job and no other, and an error of a failed one and no
other. -/
structure JobView.IsCoherent (v : JobView) : Prop where
  /-- There is an artifact exactly if the job is completed. -/
  artifact : v.artifact ≠ none ↔ v.job.status = .completed
  /-- There is an error exactly if the job failed. -/
  error : v.error? ≠ none ↔ v.job.status = .failed

/-- The name of a state says which it is. -/
theorem JobStatus.name_injective : Function.Injective JobStatus.name := by
  intro a b h
  cases a <;> cases b <;> first | rfl | exact absurd h (by decide)

/-- In the members of a view that fits together, the artifact is no null exactly if the state is
that of a completed job, and the error is no null exactly if it is that of a failed one. -/
theorem JobView.IsCoherent.members {v : JobView} (h : v.IsCoherent) :
    (v.members.lookup "artifact" ≠ some .null ↔
        v.members.lookup "status" = some (.str JobStatus.completed.name)) ∧
      (v.members.lookup "error" ≠ some .null ↔
        v.members.lookup "status" = some (.str JobStatus.failed.name)) := by
  have hstatus (status : JobStatus) :
      v.members.lookup "status" = some (.str status.name) ↔ v.job.status = status := by
    show some (Json.str v.job.status.name) = some (.str status.name) ↔ _
    rw [Option.some.injEq, Json.str.injEq, JobStatus.name_injective.eq_iff]
  have hartifact : v.members.lookup "artifact" ≠ some .null ↔ v.artifact ≠ none := by
    show some ((v.artifact.map Artifact.toJson).getD .null) ≠ some .null ↔ _
    cases v.artifact <;> simp [Artifact.toJson]
  have herror : v.members.lookup "error" ≠ some .null ↔ v.error? ≠ none := by
    show some (Json.ofOption v.error?) ≠ some .null ↔ _
    cases v.error? <;> simp [Json.ofOption]
  exact ⟨(hartifact.trans h.artifact).trans (hstatus _).symm,
    (herror.trans h.error).trans (hstatus _).symm⟩

/-- A job has ended if it is completed or failed. -/
theorem JobView.isFinal_iff (v : JobView) :
    v.isFinal = true ↔ v.job.status = .completed ∨ v.job.status = .failed := by
  unfold isFinal JobStatus.isTerminal
  cases v.job.status <;> simp

/-- A job without an error, or that did not fail, is shown without one. -/
theorem JobView.error?_ne_none_iff {v : JobView}
    (h : v.job.error ≠ none ↔ v.job.status = .failed) :
    v.error? ≠ none ↔ v.job.status = .failed := by
  unfold error?
  split
  · exact h
  · rename_i hstatus
    exact iff_of_false (fun hne => hne rfl) hstatus

namespace Service

variable {s : Store} {turns : List Turn} {id : String}

/-! ## Looking at a job -/

/-- Looking at a job only looks. -/
theorem asks_poll (id : String) : Asks (·.isLook = true) (poll id) := by
  refine .bind (.transact rfl fun _ => rfl) fun job? => ?_
  cases job? with
  | none => exact .known _
  | some job =>
    dsimp only
    split
    · exact .bind (.transact rfl fun _ => rfl) fun _ => .known _
    · exact .known _

/-- The result is `.error .database`, or `.ok` with a value that meets `sort`. -/
def Yields {α : Type} (r : Except Failure α) (sort : α → Prop) : Prop :=
  r = .error .database ∨ ∃ a, r = .ok a ∧ sort a

/-- A value is of the sort that its result yields. -/
theorem Yields.of_ok {α : Type} {a : α} {sort : α → Prop} (h : Yields (.ok a) sort) : sort a := by
  rcases h with hrefused | ⟨_, hok, hsort⟩
  · cases hrefused
  · obtain rfl := Except.ok.inj hok
    exact hsort

/-- Two actions one after the other yield what the second one does, whatever the first one yields.
The sort of that may depend on the turns that were taken meanwhile. -/
theorem yields_bind {α β : Type} {x : Action α} {f : α → Action β} {r : Except Failure β}
    {between : List Turn → α → Prop} {sort : β → Prop} (hturns : EnterPending turns)
    (h : RunsAmid (x >>= f).run s turns r)
    (hx : ∀ first res, EnterPending first → RunsAmid x.run s first res → Yields res (between first))
    (hf : ∀ first second a, EnterPending first → EnterPending second → between first a →
      RunsAmid (f a).run (s.after first) second r → Yields r sort) : Yields r sort := by
  rcases RunsAmid.of_bind_cases h with
    ⟨e, first, second, rfl, rfl, hfailed, -⟩ | ⟨a, first, second, rfl, hyielded, hrest⟩
  · obtain ⟨hfirst, -⟩ := List.forall_mem_append.mp hturns
    rcases hx first _ hfirst hfailed with hrefused | ⟨_, hok, -⟩
    · exact .inl (congrArg Except.error (Except.error.inj hrefused))
    · cases hok
  · obtain ⟨hfirst, hsecond⟩ := List.forall_mem_append.mp hturns
    exact hf first second a hfirst hsecond (hx first _ hfirst hyielded).of_ok hrest

/-- A job is looked up as its record is at one moment. -/
theorem yields_find (hs : s.Keeps id) (hturns : EnterPending turns)
    {r : Except Failure (Option Job)} (h : RunsAmid (Lifecycle.find id).run s turns r) :
    Yields r fun job? => ∃ before after record, turns = before ++ .own (.find id) :: after ∧
      (s.after before).jobs.lookup? id = some record ∧ job? = some { record with id } := by
  rcases RunsAmid.of_transact_cases h with hrefused | ⟨before, after, rfl, -, -, hreply⟩
  · exact .inl hrefused
  obtain ⟨hbefore, -⟩ := List.forall_mem_append.mp hturns
  obtain ⟨record, hrecord⟩ := (hs.after hbefore).job
  have hfound : (s.after before).job? id = some { record with id } := by
    rw [Store.job?, hrecord, Option.map_some]
  exact .inr ⟨_, hreply.symm, before, after, record, rfl, hrecord, hfound⟩

/-- An artifact that is there is looked up, whatever turns come first. -/
theorem yields_artifact (hs : s.Keeps id) (hartifact : s.HasArtifact id)
    (hturns : EnterPending turns) {r : Except Failure (Option Artifact)}
    (h : RunsAmid (Lifecycle.artifact id).run s turns r) : Yields r fun a? => a? ≠ none := by
  rcases RunsAmid.of_transact_cases h with hrefused | ⟨before, after, rfl, -, -, hreply⟩
  · exact .inl hrefused
  obtain ⟨hbefore, -⟩ := List.forall_mem_append.mp hturns
  obtain ⟨stored, hstored⟩ := hartifact.after hbefore
  obtain ⟨a, ha, -⟩ := (hs.after hbefore).consistent.exists_artifact hstored
  exact .inr ⟨some a, hreply.symm.trans ha, nofun⟩

/-- The view is one of the job `id`, and has `IsCoherent`. -/
def Shows (id : String) (v : JobView) : Prop := v.job.id = id ∧ v.IsCoherent

/-- What is seen of a job fits together, whatever others do between looking up its state and its
artifact. -/
theorem sees_poll (hs : s.Keeps id) (hturns : EnterPending turns) {r : Except Failure JobView}
    (h : RunsAmid (poll id).run s turns r) : Yields r (Shows id) := by
  unfold poll at h
  refine yields_bind hturns h (fun _ _ hfirst hfind => yields_find hs hfirst hfind) ?_
  rintro _ second _ hfirst hsecond ⟨before, after, record, rfl, hrecord, rfl⟩ hrest
  obtain ⟨hbefore, hafter⟩ := List.forall_mem_append.mp hfirst
  have hkeeps := hs.after hbefore
  -- The error was recorded together with the state.
  have herror := hkeeps.consistent.error_iff id record hrecord
  dsimp only at hrest
  split at hrest
  · rename_i hcompleted
    -- The artifact was there when the state was looked up, and does not disappear.
    have hartifact : (s.after before).HasArtifact id :=
      hkeeps.consistent.completed id record hrecord hcompleted
    rw [Store.after_append] at hrest
    refine yields_bind hsecond hrest
      (fun _ _ hthird hlook => yields_artifact (hkeeps.after hafter) (hartifact.after hafter) hthird
        hlook) ?_
    intro _ _ a? _ _ hsome hend
    obtain ⟨rfl, -⟩ := RunsAmid.of_pure hend
    exact .inr ⟨_, rfl, rfl, iff_of_true hsome hcompleted, JobView.error?_ne_none_iff herror⟩
  · rename_i hother
    obtain ⟨rfl, -⟩ := RunsAmid.of_pure hrest
    exact .inr ⟨_, rfl, rfl, iff_of_false (fun hne => hne rfl) hother,
      JobView.error?_ne_none_iff herror⟩

/-! ## Waiting for a job -/

/-- The view that was waited for `Shows` the job `id`, and `timedOut` says whether the job has not
ended. -/
structure Settles (id : String) (w : Waited JobView) : Prop where
  /-- The view is one of the job, and fits together. -/
  view : Shows id w.view
  /-- The time was not used up exactly if the job has ended. -/
  timedOut : w.timedOut = false ↔ w.view.job.status = .completed ∨ w.view.job.status = .failed

/-- A view that is final was waited for in time. -/
theorem settles_of_isFinal {v : JobView} (hview : Shows id v) (hfinal : v.isFinal = true) :
    Settles id ⟨v, false⟩ :=
  ⟨hview, iff_of_true rfl (v.isFinal_iff.mp hfinal)⟩

/-- A view that is not final was not waited for in time. -/
theorem settles_of_not_isFinal {v : JobView} (hview : Shows id v) (hfinal : v.isFinal = false) :
    Settles id ⟨v, true⟩ := by
  refine ⟨hview, iff_of_false nofun fun hended => ?_⟩
  rw [v.isFinal_iff.mpr hended] at hfinal
  cases hfinal

/-- The clock shows something, and pauses end. -/
theorem yields_always {q : Question} (hq : q.isOutside = true) {r : Except Failure q.Reply}
    (h : RunsAmid (Action.always (Activity.query q)).run s turns r) : Yields r fun _ => True := by
  obtain ⟨⟨reply, rfl⟩, -⟩ := RunsAmid.of_always_query hq h
  exact .inr ⟨reply, rfl, trivial⟩

/-- What is waited for fits together, whatever the clock shows and whatever others do between two
looks. The induction is on the pauses; after each of them the job is still kept. -/
theorem settles_untilDeadline {interval deadline : Float} {pauses : Nat} (hs : s.Keeps id)
    (hturns : EnterPending turns) {r : Except Failure (Waited JobView)}
    (h : RunsAmid
      (Waited.untilDeadline timer (poll id) JobView.isFinal interval deadline pauses).run
      s turns r) : Yields r (Settles id) := by
  induction pauses generalizing s turns with
  | zero =>
    refine yields_bind hturns h (fun _ _ hfirst hpoll => sees_poll hs hfirst hpoll) ?_
    intro _ _ v _ _ hview hend
    obtain ⟨rfl, -⟩ := RunsAmid.of_pure hend
    refine .inr ⟨_, rfl, ?_⟩
    cases hfinal : v.isFinal with
    | true => exact settles_of_isFinal hview hfinal
    | false => exact settles_of_not_isFinal hview hfinal
  | succ pauses ih =>
    refine yields_bind hturns h (fun _ _ hfirst hpoll => sees_poll hs hfirst hpoll) ?_
    intro first _ v hfirst hsecond hview hrest
    have hs := hs.after hfirst
    split at hrest
    · rename_i hfinal
      obtain ⟨rfl, -⟩ := RunsAmid.of_pure hrest
      exact .inr ⟨_, rfl, settles_of_isFinal hview hfinal⟩
    rename_i hfinal
    -- The clock is read, which may say that the time is used up.
    refine yields_bind hsecond hrest (fun _ _ _ hnow => yields_always rfl hnow) ?_
    intro third _ now hthird hfourth _ hrest
    have hs := hs.after hthird
    dsimp only at hrest
    split at hrest
    · obtain ⟨rfl, -⟩ := RunsAmid.of_pure hrest
      exact .inr ⟨_, rfl, settles_of_not_isFinal hview (Bool.eq_false_iff.mpr hfinal)⟩
    -- If it is not, the next look comes after a pause.
    refine yields_bind hfourth hrest (fun _ _ _ hpause => yields_always rfl hpause) ?_
    intro fifth _ _ hfifth hsixth _ hrest
    exact ih (hs.after hfifth) hsixth hrest

/-- What is waited for within a budget fits together. -/
theorem settles_within {interval budget : Float} {pauses : Nat} (hs : s.Keeps id)
    (hturns : EnterPending turns) {r : Except Failure (Waited JobView)}
    (h : RunsAmid (Waited.within timer (poll id) JobView.isFinal interval budget pauses).run
      s turns r) : Yields r (Settles id) := by
  unfold Waited.within at h
  refine yields_bind hturns h (fun _ _ _ hnow => yields_always rfl hnow) ?_
  intro first _ _ hfirst hsecond _ hloop
  exact settles_untilDeadline (hs.after hfirst) hsecond hloop

/-- Waiting for a job ends with a view that fits together. -/
theorem settles_await (service : Service) {budget : Option Float} {interval : Float} {pauses : Nat}
    (hs : s.Keeps id) (hturns : EnterPending turns) {r : Except Failure (Waited JobView)}
    (h : RunsAmid (service.await id budget interval pauses).run s turns r) :
    Yields r (Settles id) := by
  unfold await at h
  refine yields_bind hturns h (fun _ _ hfirst hwithin => settles_within hs hfirst hwithin) ?_
  intro _ _ w _ hsecond hsettles hrest
  split at hrest
  · refine yields_bind hsecond hrest (fun _ _ _ hlog => yields_always rfl hlog) ?_
    intro _ _ _ _ _ _ hend
    obtain ⟨rfl, -⟩ := RunsAmid.of_pure hend
    exact .inr ⟨_, rfl, hsettles⟩
  · obtain ⟨rfl, -⟩ := RunsAmid.of_pure hrest
    exact .inr ⟨_, rfl, hsettles⟩

/-- Waiting for a job only looks. -/
theorem asks_untilDeadline (id : String) (interval deadline : Float) (pauses : Nat) :
    Asks (·.isLook = true)
      (Waited.untilDeadline timer (poll id) JobView.isFinal interval deadline pauses) := by
  induction pauses with
  | zero => exact .bind (asks_poll id) fun _ => .known _
  | succ pauses ih =>
    refine .bind (asks_poll id) fun v => ?_
    split
    · exact .known _
    refine .bind ⟨rfl, fun _ => trivial⟩ fun now => ?_
    dsimp only
    split
    · exact .known _
    · exact .bind ⟨rfl, fun _ => trivial⟩ fun _ => ih

/-- Waiting for a job within a budget only looks. -/
theorem asks_await (service : Service) (id : String) (budget : Option Float) (interval : Float)
    (pauses : Nat) : Asks (·.isLook = true) (service.await id budget interval pauses) := by
  refine .bind (.bind ⟨rfl, fun _ => trivial⟩ fun _ => asks_untilDeadline ..) fun w => ?_
  split
  · exact .bind (.log (fun _ => rfl) ..) fun _ => .known _
  · exact .known _

/-- In a store that turns have led to, and amid whatever turns of others, `poll` of a job that is
there yields a view that `Shows` it, and `await` a view that `Settles` it, unless the database
refuses to be read: `timedOut` says whether the job has not ended in the view. Neither changes
anything (`IsQuiet`). -/
theorem poll_and_await_amid_others (service : Service) {earlier : List Turn}
    (hearlier : EnterPending earlier) (hturns : EnterPending turns)
    (hjob : ∃ record, (Store.empty.after earlier).jobs.lookup? id = some record) :
    (∀ r, RunsAmid (poll id).run (Store.empty.after earlier) turns r →
      Yields r (Shows id) ∧ IsQuiet (Store.empty.after earlier) turns) ∧
    ∀ budget interval pauses r,
      RunsAmid (service.await id budget interval pauses).run (Store.empty.after earlier) turns r →
        Yields r (Settles id) ∧ IsQuiet (Store.empty.after earlier) turns := by
  have hs : (Store.empty.after earlier).Keeps id :=
    ⟨Store.isConsistent_empty.after hearlier, hjob⟩
  constructor
  · intro r h
    exact ⟨sees_poll hs hturns h, h.isQuiet (asks_poll id)⟩
  · intro budget interval pauses r h
    exact ⟨settles_await service hs hturns h,
      h.isQuiet (asks_await service id budget interval pauses)⟩

/-- A job is seen completed with its artifact, though somebody makes it a failed one before the
artifact is looked up, and waiting for it ends in time with the same view. -/
theorem poll_and_await_amid_failure :
    let record : JobRecord :=
      { repository := ⟨"octo", "demo"⟩
        url := "https://github.com/octo/demo"
        createdAt := ⟨0, true⟩ }
    let earlier := [Turn.other (.insert "1" record), .other (.claim "1")]
    let turns := [Turn.other (.complete "1" (.ofFiles [])), .own (.find "1"),
      .other (.fail "1" "late"), .own (.artifact "1")]
    let s := Store.empty.after earlier
    let service : Service := ⟨{}⟩
    let v : JobView := ⟨{ record.stored.claimed.completed with id := "1" }, some (.ofFiles [])⟩
    (EnterPending earlier ∧ EnterPending turns ∧ ∃ record, s.jobs.lookup? "1" = some record) ∧
      (RunsAmid (poll "1").run s turns (.ok v) ∧ Shows "1" v) ∧
      (RunsAmid (service.await "1" none 1.0 2).run s turns (.ok ⟨v, false⟩) ∧
        Settles "1" ⟨v, false⟩) ∧
      IsQuiet s turns := by
  intro record earlier turns s service v
  have hearlier : EnterPending earlier := by
    simp [EnterPending, Transaction.EntersPending, earlier, Turn.other, record]
  have hturns : EnterPending turns := by
    simp [EnterPending, Transaction.EntersPending, turns, Turn.other, Turn.own]
  have hjob : ∃ record, s.jobs.lookup? "1" = some record := ⟨record.stored.claimed, rfl⟩
  obtain ⟨hpoll, hawait⟩ := poll_and_await_amid_others service hearlier hturns hjob
  -- The artifact is still looked up after the job was made a failed one.
  let u := s.after [.other (.complete "1" (.ofFiles [])), .own (.find "1"),
    .other (.fail "1" "late")]
  have hlook : u.perform (.artifact "1") = (.ok (some (.ofFiles [])), u) := by
    have hstored : u.artifacts.lookup? "1" =
        some ⟨(Artifact.ofFiles []).toJson, (Artifact.ofFiles []).digest⟩ := rfl
    simp only [Store.perform, Store.artifact?, hstored, Artifact.decode_toJson]
  have hv : RunsAmid (poll "1").run s turns (.ok v) :=
    .other _ _ _ (.own (.find "1") _ _ (.other _ _ _ (.own_of_eq hlook (.done _ _))))
  have hw : RunsAmid (service.await "1" none 1.0 2).run s turns (.ok ⟨v, false⟩) :=
    .hear .clock _ _ 0.0 rfl
      (.other _ _ _ (.own (.find "1") _ _ (.other _ _ _ (.own_of_eq hlook (.done _ _)))))
  exact ⟨⟨hearlier, hturns, hjob⟩, ⟨hv, (hpoll _ hv).1.of_ok⟩, ⟨hw, (hawait _ _ _ _ hw).1.of_ok⟩,
    (hpoll _ hv).2⟩

end Service

end RepoGraph
