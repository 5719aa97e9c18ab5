import RepoGraph.Proofs.World

/-!
# Programs over a database that may refuse

`Program.Runs p s a s'` says that `p` can lead from the store `s` to `s'` and end with `a`, if the
database is free to refuse any transaction, which is then rolled back as a whole, and if whatever
lies outside may answer in any way. An answer from outside leaves the store alone
(`Runs.of_bind_outside`), and a transaction has its effect, or is refused and nothing follows it
(`Runs.of_bind_transact`). What becomes of a program in a `World`, where the store decides alone, is
one of its runs (`World.runs_run`).
-/

namespace RepoGraph.Program

variable {α β : Type} {s s' : Store}

/-- `Runs p s a s'`: `p` can lead from the store `s` to the store `s'` and end with `a`. -/
inductive Runs : Activity α → Store → α → Store → Prop
  /-- A program that is `done` has ended, and the store stays. -/
  | done (a : α) (s : Store) : Runs (.done a) s a s
  /-- `p` asks for the transaction `t`, and the store performs it. -/
  | perform (t : Transaction) (next : Except Failure t.Result → Activity α) (s : Store) {a : α}
      {s' : Store} (h : Runs (next (s.perform t).1) (s.perform t).2 a s') :
    Runs (.ask (.transact t) next) s a s'
  /-- `p` asks for the transaction `t`, and is told `.database`; the store stays. -/
  | refuse (t : Transaction) (next : Except Failure t.Result → Activity α) (s : Store) {a : α}
      {s' : Store} (h : Runs (next (.error .database)) s a s') :
    Runs (.ask (.transact t) next) s a s'
  /-- `p` asks a question with `isOutside`, and is told any reply; the store stays. -/
  | hear (q : Question) (next : q.Reply → Activity α) (s : Store) (r : q.Reply) {a : α} {s' : Store}
      (hq : q.isOutside = true) (h : Runs (next r) s a s') : Runs (.ask q next) s a s'

namespace Runs

/-- A value changes nothing. -/
theorem of_pure {a b : α} (h : Runs (pure a : Activity α) s b s') : b = a ∧ s' = s := by
  cases h
  exact ⟨rfl, rfl⟩

/-- Two programs one after the other run through both. -/
theorem of_bind {p : Activity α} {f : α → Activity β} {b : β} (h : Runs (p >>= f) s b s') :
    ∃ a t, Runs p s a t ∧ Runs (f a) t b s' := by
  induction p generalizing s with
  | done a => exact ⟨a, s, .done a s, h⟩
  | ask q next ih =>
    cases h with
    | perform t _ _ h =>
      obtain ⟨a, u, hp, hf⟩ := ih _ h
      exact ⟨a, u, .perform t next s hp, hf⟩
    | refuse t _ _ h =>
      obtain ⟨a, u, hp, hf⟩ := ih _ h
      exact ⟨a, u, .refuse t next s hp, hf⟩
    | hear _ _ _ r hq h =>
      obtain ⟨a, u, hp, hf⟩ := ih r h
      exact ⟨a, u, .hear q next s r hq hp, hf⟩

/-- Two actions one after the other run through both, or the first one fails. -/
theorem of_bind_action {x : Action α} {f : α → Action β} {r : Except Failure β}
    (h : Runs (x >>= f).run s r s') :
    (∃ e, Runs x.run s (.error e) s' ∧ r = .error e) ∨
      ∃ a t, Runs x.run s (.ok a) t ∧ Runs (f a).run t r s' := by
  rw [ExceptT.run_bind] at h
  obtain ⟨res, t, hx, hf⟩ := of_bind h
  cases res with
  | error e =>
    obtain ⟨rfl, rfl⟩ := of_pure hf
    exact .inl ⟨e, hx, rfl⟩
  | ok a => exact .inr ⟨a, t, hx, hf⟩

/-- A question about what lies outside leaves the store alone. -/
theorem of_query {q : Question} (hq : q.isOutside = true) {r : q.Reply}
    (h : Runs (Activity.query q) s r s') : s' = s := by
  cases h with
  | perform | refuse => cases hq
  | hear _ _ _ _ _ h =>
    cases h
    rfl

/-- What follows a question about what lies outside goes on from the same store. -/
theorem of_bind_outside {q : Question} (hq : q.isOutside = true) {f : q.Reply → Action β}
    {r : Except Failure β} (h : Runs (Action.always (Activity.query q) >>= f).run s r s') :
    ∃ reply, Runs (f reply).run s r s' := by
  have hask (r : Except Failure q.Reply) (t : Store)
      (h : Runs (Action.always (Activity.query q)).run s r t) : t = s ∧ ∃ reply, r = .ok reply := by
    unfold Action.always at h
    rw [ExceptT.run_lift, map_eq_pure_bind] at h
    obtain ⟨reply, u, hreply, hr⟩ := of_bind h
    obtain ⟨rfl, rfl⟩ := of_pure hr
    exact ⟨of_query hq hreply, reply, rfl⟩
  rcases of_bind_action h with ⟨e, hfails, -⟩ | ⟨reply, t, hanswers, hnext⟩
  · obtain ⟨-, reply, hreply⟩ := hask _ _ hfails
    cases hreply
  · obtain ⟨rfl, -⟩ := hask _ _ hanswers
    exact ⟨reply, hnext⟩

/-- An action that asks nothing about the store leaves it alone. -/
theorem of_outside {p : Activity α} {ends : α → Prop} {a : α}
    (hp : p.Within (·.isOutside = true) ends) (h : Runs p s a s') : s' = s := by
  induction p generalizing s with
  | done a =>
    cases h
    rfl
  | ask q next ih =>
    cases h with
    | perform | refuse => cases hp.1
    | hear _ _ _ r _ h => exact ih r (hp.2 r) h

/-- A transaction has its effect or is refused. -/
theorem of_transact {t : Transaction} {r : Except Failure t.Result}
    (h : Runs (Action.transact t).run s r s') :
    s.Effect t r s' ∨ r = .error .database ∧ s' = s := by
  unfold Action.transact at h
  rw [ExceptT.run_mk] at h
  obtain ⟨reply, u, hreply, h⟩ := of_bind h
  obtain ⟨_, v, hlog, h⟩ := of_bind h
  obtain ⟨rfl, rfl⟩ := of_pure h
  -- What is logged leaves the store as the transaction did.
  have hlog : s' = u := by
    unfold Activity.logRefusal at hlog
    split at hlog
    · exact of_query rfl hlog
    · exact (of_pure hlog).2
  subst hlog
  cases hreply with
  | perform _ _ _ h =>
    cases h
    exact .inl (s.perform_effect t)
  | refuse _ _ _ h =>
    cases h
    exact .inr ⟨rfl, rfl⟩
  | hear _ _ _ _ hq _ => cases hq

/-- What follows a transaction goes on from where the transaction led, unless it failed or was
refused. -/
theorem of_bind_transact {t : Transaction} {f : t.Result → Action β} {r : Except Failure β}
    (h : Runs (Action.transact t >>= f).run s r s') :
    (∃ a u, s.Effect t (.ok a) u ∧ Runs (f a).run u r s') ∨
      (∃ e, s.Effect t (.error e) s' ∧ r = .error e) ∨ r = .error .database ∧ s' = s := by
  rcases of_bind_action h with ⟨e, hfails, rfl⟩ | ⟨a, u, hyields, h⟩
  · rcases of_transact hfails with heffect | ⟨herror, rfl⟩
    · exact .inr (.inl ⟨e, heffect, rfl⟩)
    · obtain rfl := Except.error.inj herror
      exact .inr (.inr ⟨rfl, rfl⟩)
  · rcases of_transact hyields with heffect | ⟨herror, -⟩
    · exact .inl ⟨a, u, heffect, h⟩
    · cases herror

end Runs

end RepoGraph.Program

namespace RepoGraph

/-- The question is a `transact`, or one with `isOutside`. -/
def Question.IsAnswered (q : Question) : Prop := q.isOutside = true ∨ ∃ t, q = .transact t

/-- Whatever is replied, each question of the action is one with `IsAnswered`. -/
structure Action.IsSession {α : Type} (a : Action α) : Prop where
  /-- All its questions are such. -/
  within : a.run.Within Question.IsAnswered fun _ => True

namespace Action.IsSession

variable {α β : Type}

/-- A value asks nothing. -/
theorem pure (a : α) : (Pure.pure a : Action α).IsSession := ⟨trivial⟩

/-- A failure asks nothing. -/
theorem throw (f : Failure) : (throwThe Failure f : Action α).IsSession := ⟨trivial⟩

/-- One action after another. -/
theorem bind {a : Action α} {f : α → Action β} (ha : a.IsSession) (hf : ∀ x, (f x).IsSession) :
    (a >>= f).IsSession := by
  refine ⟨Program.Within.bind ha.within fun r _ => ?_⟩
  cases r with
  | ok x => exact (hf x).within
  | error failure => trivial

/-- A question about what lies outside. -/
theorem always {q : Question} (hq : q.isOutside = true) :
    (Action.always (Activity.query q)).IsSession := ⟨⟨.inl hq, fun _ => trivial⟩⟩

/-- An action that asks nothing about the store. -/
theorem of_outside {a : Action α} (h : a.AsksOutside) : a.IsSession :=
  ⟨h.mono (fun _ hq => .inl hq) fun _ _ => trivial⟩

/-- A transaction. -/
theorem transact (t : Transaction) : (Action.transact t).IsSession := by
  refine ⟨⟨.inr ⟨t, rfl⟩, fun reply => ?_⟩⟩
  have hlogged : (Activity.logRefusal reply).Within Question.IsAnswered fun _ => True := by
    unfold Activity.logRefusal
    split
    · exact ⟨.inl rfl, fun _ => trivial⟩
    · trivial
  show ((Activity.logRefusal reply).bind fun _ => .done reply).Within _ _
  exact Program.Within.bind hlogged fun _ _ => trivial

end Action.IsSession

namespace World

variable {σ α : Type} {ends : α → Prop}

/-- What becomes of a program in a world is one of its runs. -/
theorem runs_run (W : World σ) {p : Activity α} (h : p.Within Question.IsAnswered ends) (s : σ) :
    p.Runs (W.store s) (W.run p s).1 (W.store (W.run p s).2) := by
  induction p generalizing s with
  | done a => exact .done a _
  | ask q next ih =>
    obtain ⟨hq, hnext⟩ := h
    have hruns := ih (W.answer q s).1 (hnext _) (W.answer q s).2
    rcases hq with hq | ⟨t, rfl⟩
    · rw [W.store_outside q s hq] at hruns
      exact .hear q next _ _ hq hruns
    · rw [W.store_transact] at hruns
      refine .perform t next _ ?_
      rw [← W.reply_transact]
      exact hruns

end World

end RepoGraph
