import RepoGraph.Proofs.World

/-!
# Programs among others

A `Turn` is a transaction on the store that is taken by the program or by somebody else.
`RunsAmid p s turns a` says that `p` can end with `a` from the store `s` while `turns` are taken:
each transaction of `p` takes one turn as a whole, or is refused and takes none, and before, between
and after them others take theirs, as many as they like and for whatever transactions.
`Store.steps` gives each turn with the store that it finds. `RunsAmid.of_bind` divides the turns
between two programs one after the other, and `RunsAmid.of_transact` finds the turn of a transaction
that is not refused. Both have a form for programs that may fail (`RunsAmid.of_bind_cases`,
`RunsAmid.of_transact_cases`).
-/

namespace RepoGraph

/-- A transaction on the store, by the program or by somebody else. -/
structure Turn where
  /-- The program takes the turn, and nobody else. -/
  isOwn : Bool
  /-- The transaction. -/
  transaction : Transaction

namespace Turn

/-- A turn of the program. -/
def own (t : Transaction) : Turn := ⟨true, t⟩

/-- A turn of somebody else. -/
def other (t : Transaction) : Turn := ⟨false, t⟩

end Turn

/-- All turns are those of others. -/
def AreOthers (turns : List Turn) : Prop := ∀ turn ∈ turns, turn.isOwn = false

namespace Store

/-- The store after `turns`, in each of which `perform` is applied. -/
def after (s : Store) (turns : List Turn) : Store :=
  turns.foldl (fun s turn => (s.perform turn.transaction).2) s

/-- The turns, each with the store that it finds. -/
def steps : Store → List Turn → List (Store × Turn)
  | _, [] => []
  | s, turn :: turns => (s, turn) :: steps (s.perform turn.transaction).2 turns

/-- The first turn happens first. -/
@[simp]
theorem after_cons (s : Store) (turn : Turn) (turns : List Turn) :
    s.after (turn :: turns) = (s.perform turn.transaction).2.after turns := rfl

/-- Turns after turns happen after them. -/
theorem after_append (s : Store) (xs ys : List Turn) : s.after (xs ++ ys) = (s.after xs).after ys :=
  List.foldl_append

/-- Turns after turns find the store after them. -/
theorem steps_append (s : Store) (xs ys : List Turn) :
    s.steps (xs ++ ys) = s.steps xs ++ (s.after xs).steps ys := by
  induction xs generalizing s with
  | nil => rfl
  | cons x xs ih => simp [steps, ih]

/-- A step is one of the turns. -/
theorem mem_of_mem_steps {s u : Store} {turn : Turn} {turns : List Turn}
    (h : (u, turn) ∈ s.steps turns) : turn ∈ turns := by
  induction turns generalizing s with
  | nil => cases h
  | cons x xs ih =>
    rcases List.mem_cons.mp h with h | h
    · exact List.mem_cons.mpr (.inl (Prod.mk.inj h).2)
    · exact List.mem_cons_of_mem _ (ih h)

end Store

namespace Program

variable {α β : Type} {s : Store} {turns : List Turn}

/-- `RunsAmid p s turns a`: from the store `s`, and with just these `turns` taken by `p` and by
others, `p` can end with `a`. -/
inductive RunsAmid : Activity α → Store → List Turn → α → Prop
  /-- A program that is `done` has ended, and no turns are left. -/
  | done (a : α) (s : Store) : RunsAmid (.done a) s [] a
  /-- Somebody else takes the next turn. -/
  | other (p : Activity α) (s : Store) (t : Transaction) {turns : List Turn} {a : α}
      (h : RunsAmid p (s.perform t).2 turns a) : RunsAmid p s (.other t :: turns) a
  /-- `p` asks for the transaction `t`, which is performed in the next turn. -/
  | own (t : Transaction) (next : Except Failure t.Result → Activity α) (s : Store)
      {turns : List Turn} {a : α} (h : RunsAmid (next (s.perform t).1) (s.perform t).2 turns a) :
    RunsAmid (.ask (.transact t) next) s (.own t :: turns) a
  /-- `p` asks for the transaction `t`, and is told `.database`, which takes no turn. -/
  | refuse (t : Transaction) (next : Except Failure t.Result → Activity α) (s : Store)
      {turns : List Turn} {a : α} (h : RunsAmid (next (.error .database)) s turns a) :
    RunsAmid (.ask (.transact t) next) s turns a
  /-- `p` asks a question with `isOutside`, and is told any reply. -/
  | hear (q : Question) (next : q.Reply → Activity α) (s : Store) (r : q.Reply)
      {turns : List Turn} {a : α} (hq : q.isOutside = true) (h : RunsAmid (next r) s turns a) :
    RunsAmid (.ask q next) s turns a

namespace RunsAmid

/-- Turns of others may be put in front. -/
theorem after_others {p : Activity α} {others : List Turn} {a : α} (hothers : AreOthers others)
    (h : RunsAmid p (s.after others) turns a) : RunsAmid p s (others ++ turns) a := by
  induction others generalizing s with
  | nil => exact h
  | cons turn others ih =>
    obtain ⟨isOwn, t⟩ := turn
    obtain rfl : isOwn = false := hothers _ List.mem_cons_self
    exact .other p s t (ih (fun x hx => hothers x (List.mem_cons_of_mem _ hx)) h)

/-- `RunsAmid.own` for a transaction whose result and store are known. -/
theorem own_of_eq {t : Transaction} {next : Except Failure t.Result → Activity α} {s' : Store}
    {r : Except Failure t.Result} {a : α} (ht : s.perform t = (r, s'))
    (h : RunsAmid (next r) s' turns a) :
    RunsAmid (.ask (.transact t) next) s (.own t :: turns) a := by
  refine .own t next s ?_
  rw [ht]
  exact h

/-- Amid `pure a` only others take turns. -/
theorem of_pure {a b : α} (h : RunsAmid (pure a : Activity α) s turns b) :
    b = a ∧ AreOthers turns := by
  generalize hp : (pure a : Activity α) = p at h
  induction h with
  | done =>
    cases hp
    exact ⟨rfl, List.forall_mem_nil _⟩
  | other _ _ t _ ih =>
    obtain ⟨rfl, hothers⟩ := ih hp
    exact ⟨rfl, List.forall_mem_cons.mpr ⟨rfl, hothers⟩⟩
  | own | refuse | hear => cases hp

/-- Two programs one after the other share the turns. -/
theorem of_bind {p : Activity α} {f : α → Activity β} {b : β} (h : RunsAmid (p >>= f) s turns b) :
    ∃ a first second, turns = first ++ second ∧ RunsAmid p s first a ∧
      RunsAmid (f a) (s.after first) second b := by
  induction p generalizing s turns with
  | done a => exact ⟨a, [], turns, rfl, .done a s, h⟩
  | ask q next ih =>
    -- Others may take turns until the first question is answered.
    generalize hp : (ask q next : Activity α) >>= f = p at h
    induction h with
    | done => cases hp
    | other _ s t h hlater =>
      obtain ⟨a, first, second, rfl, hfirst, hsecond⟩ := hlater ih hp
      exact ⟨a, .other t :: first, second, rfl, .other _ s t hfirst, hsecond⟩
    | own t _ s h =>
      cases hp
      obtain ⟨a, first, second, rfl, hfirst, hsecond⟩ := ih _ h
      exact ⟨a, .own t :: first, second, rfl, .own t next s hfirst, hsecond⟩
    | refuse t _ s h =>
      cases hp
      obtain ⟨a, first, second, rfl, hfirst, hsecond⟩ := ih _ h
      exact ⟨a, first, second, rfl, .refuse t next s hfirst, hsecond⟩
    | hear _ _ s r houtside h =>
      cases hp
      obtain ⟨a, first, second, rfl, hfirst, hsecond⟩ := ih r h
      exact ⟨a, first, second, rfl, .hear q next s r houtside hfirst, hsecond⟩

/-- Two actions one after the other share the turns, or the first one fails and after that only
others take turns. -/
theorem of_bind_cases {x : Action α} {f : α → Action β} {r : Except Failure β}
    (h : RunsAmid (x >>= f).run s turns r) :
    (∃ e first second, r = .error e ∧ turns = first ++ second ∧ RunsAmid x.run s first (.error e) ∧
        AreOthers second) ∨
      ∃ a first second, turns = first ++ second ∧ RunsAmid x.run s first (.ok a) ∧
        RunsAmid (f a).run (s.after first) second r := by
  rw [ExceptT.run_bind] at h
  obtain ⟨res, first, second, rfl, hfirst, hsecond⟩ := of_bind h
  cases res with
  | ok a => exact .inr ⟨a, first, second, rfl, hfirst, hsecond⟩
  | error e =>
    obtain ⟨rfl, hothers⟩ := of_pure hsecond
    exact .inl ⟨e, first, second, rfl, rfl, hfirst, hothers⟩

/-- Two actions that succeed one after the other share the turns. -/
theorem of_bind_action {x : Action α} {f : α → Action β} {b : β}
    (h : RunsAmid (x >>= f).run s turns (.ok b)) :
    ∃ a first second, turns = first ++ second ∧ RunsAmid x.run s first (.ok a) ∧
      RunsAmid (f a).run (s.after first) second (.ok b) := by
  rcases of_bind_cases h with ⟨e, first, second, hfailed, -⟩ | hboth
  · cases hfailed
  · exact hboth

/-- While something outside is asked for only others take turns. -/
theorem of_query {q : Question} (hq : q.isOutside = true) {r : q.Reply}
    (h : RunsAmid (Activity.query q) s turns r) : AreOthers turns := by
  generalize hp : (Activity.query q : Activity q.Reply) = p at h
  induction h with
  | done => cases hp
  | other _ _ t _ ih => exact List.forall_mem_cons.mpr ⟨rfl, ih hp⟩
  | own | refuse =>
    cases hp
    cases hq
  | hear q next s r houtside h =>
    cases hp
    exact (of_pure h).2

/-- Asking for something outside does not fail, and meanwhile only others take turns. -/
theorem of_always_query {q : Question} (hq : q.isOutside = true) {r : Except Failure q.Reply}
    (h : RunsAmid (Action.always (Activity.query q)).run s turns r) :
    (∃ reply, r = .ok reply) ∧ AreOthers turns := by
  unfold Action.always at h
  rw [ExceptT.run_lift, map_eq_pure_bind] at h
  obtain ⟨reply, first, second, rfl, hfirst, hsecond⟩ := of_bind h
  obtain ⟨rfl, hothers⟩ := of_pure hsecond
  exact ⟨⟨reply, rfl⟩, List.forall_mem_append.mpr ⟨of_query hq hfirst, hothers⟩⟩

/-- A log event takes no turn. -/
theorem of_log {level : Log.Level} {part : Log.Part} {name : String}
    {fields : List (String × Json)} {r : Except Failure Unit}
    (h : RunsAmid (Action.log level part name fields).run s turns r) :
    r = .ok () ∧ AreOthers turns := by
  obtain ⟨⟨_, hr⟩, hothers⟩ := of_always_query (q := .log ⟨level, part, name, fields⟩) rfl h
  exact ⟨hr, hothers⟩

/-- A question for a transaction takes one turn, unless it is refused. -/
theorem of_query_transact {t : Transaction} {r : Except Failure t.Result}
    (h : RunsAmid (Activity.query (.transact t)) s turns r) (hr : r ≠ .error .database) :
    ∃ before after, turns = before ++ .own t :: after ∧ AreOthers before ∧ AreOthers after ∧
      r = ((s.after before).perform t).1 := by
  generalize hp : (Activity.query (.transact t) : Activity (Except Failure t.Result)) = p at h
  induction h with
  | done => cases hp
  | other _ s t' _ ih =>
    obtain ⟨before, after, rfl, hbefore, hafter, hreply⟩ := ih hr hp
    exact ⟨.other t' :: before, after, rfl, List.forall_mem_cons.mpr ⟨rfl, hbefore⟩, hafter, hreply⟩
  | own t next s h =>
    cases hp
    obtain ⟨rfl, hothers⟩ := of_pure h
    exact ⟨[], _, rfl, List.forall_mem_nil _, hothers, rfl⟩
  | refuse t next s h =>
    cases hp
    exact absurd (of_pure h).1 hr
  | hear q next s r hq h =>
    cases hp
    cases hq

/-- What is logged of a refusal takes no turn. -/
theorem of_logRefusal {reply : Except Failure α} {u : Unit}
    (h : RunsAmid (Activity.logRefusal reply) s turns u) : AreOthers turns := by
  unfold Activity.logRefusal at h
  split at h
  · exact of_query rfl h
  · exact (of_pure h).2

/-- A transaction is refused, or it takes one turn. -/
theorem of_transact_cases {t : Transaction} {r : Except Failure t.Result}
    (h : RunsAmid (Action.transact t).run s turns r) :
    r = .error .database ∨
      ∃ before after, turns = before ++ .own t :: after ∧ AreOthers before ∧ AreOthers after ∧
        ((s.after before).perform t).1 = r := by
  by_cases hr : r = .error .database
  · exact .inl hr
  refine .inr ?_
  unfold Action.transact at h
  rw [ExceptT.run_mk] at h
  obtain ⟨reply, first, second, rfl, hquery, hrest⟩ := of_bind h
  obtain ⟨_, third, fourth, rfl, hlog, hpure⟩ := of_bind hrest
  obtain ⟨rfl, hfourth⟩ := of_pure hpure
  obtain ⟨before, after, rfl, hbefore, hafter, hreply⟩ := of_query_transact hquery hr
  refine ⟨before, after ++ (third ++ fourth), by simp, hbefore, ?_, hreply.symm⟩
  exact List.forall_mem_append.mpr
    ⟨hafter, List.forall_mem_append.mpr ⟨of_logRefusal hlog, hfourth⟩⟩

/-- A transaction that yields something takes one turn. -/
theorem of_transact {t : Transaction} {a : t.Result}
    (h : RunsAmid (Action.transact t).run s turns (.ok a)) :
    ∃ before after, turns = before ++ .own t :: after ∧ AreOthers before ∧ AreOthers after ∧
      ((s.after before).perform t).1 = .ok a := by
  rcases of_transact_cases h with hrefused | hturn
  · cases hrefused
  · exact hturn

end RunsAmid

end Program

end RepoGraph
