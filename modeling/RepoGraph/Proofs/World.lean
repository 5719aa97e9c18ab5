import RepoGraph.Proofs.Job.Store
import RepoGraph.World.Basic
import RepoGraph.World.Dump

/-!
# Programs in a world that keeps a store

A `World` replies to transactions as its store does; to whatever else is asked it replies as it
likes, and that leaves the store alone. What a program does in it is known piece by piece: an action
that succeeds went through all its parts (`run_bind_ok_iff`), and one that fails stopped at one of
them (`run_bind_error_iff`). A detached action changes nothing about the store (`run_detached`).
-/

namespace RepoGraph

/-- A world with a store that only transactions change. -/
structure World (σ : Type) where
  /-- The reply to a question, and the state after it. -/
  answer : (q : Question) → σ → q.Reply × σ
  /-- The store in a state. -/
  store : σ → Store
  /-- A transaction yields what the store says. -/
  reply_transact : ∀ t s, (answer (.transact t) s).1 = ((store s).perform t).1
  /-- A transaction does to the store what the store says. -/
  store_transact : ∀ t s, store (answer (.transact t) s).2 = ((store s).perform t).2
  /-- Other questions leave the store alone. -/
  store_outside : ∀ q s, q.isOutside = true → store (answer q s).2 = store s
  /-- What the library replies that is to dump an artifact. -/
  dumps : Artifact → Except OutsideFault Unit
  /-- The library replies the same at all times. -/
  reply_dump : ∀ a s, (answer (.dump a) s).1 = dumps a

namespace World

variable {σ α β ε : Type} (W : World σ) {s s' : σ}

/-- The value of a program, and the state after it. -/
def run (p : Activity α) (s : σ) : α × σ := p.run W.answer s

/-- A program that ends at once changes nothing. -/
@[simp]
theorem run_pure (a : α) (s : σ) : W.run (pure a) s = (a, s) := rfl

/-- A question is answered by the world. -/
@[simp]
theorem run_query (q : Question) (s : σ) : W.run (Activity.query q) s = W.answer q s := rfl

/-- Two programs run one after the other. -/
theorem run_bind (p : Activity α) (f : α → Activity β) (s : σ) :
    W.run (p >>= f) s = W.run (f (W.run p s).1) (W.run p s).2 :=
  Program.run_bind W.answer p f s

/-- A program that may fail goes on only where it did not. -/
theorem run_bind_eq (x : ExceptT ε Activity α) (f : α → ExceptT ε Activity β) (s : σ) :
    W.run (x >>= f).run s =
      match W.run x.run s with
      | (.ok a, t) => W.run (f a).run t
      | (.error e, t) => (.error e, t) := by
  rw [ExceptT.run_bind, run_bind]
  obtain ⟨r, t⟩ := W.run x.run s
  cases r with
  | ok a => rfl
  | error e => rfl

/-- Two programs that may fail succeed together exactly when one does after the other. -/
theorem run_bind_ok_iff {x : ExceptT ε Activity α} {f : α → ExceptT ε Activity β} {b : β} :
    W.run (x >>= f).run s = (.ok b, s') ↔
      ∃ a t, W.run x.run s = (.ok a, t) ∧ W.run (f a).run t = (.ok b, s') := by
  rw [run_bind_eq]
  constructor
  · intro h
    split at h
    · rename_i a t hx
      exact ⟨a, t, hx, h⟩
    · cases h
  · rintro ⟨a, t, hx, hf⟩
    rw [hx]
    exact hf

/-- Two programs that may fail fail together exactly when the first does, or the second after it. -/
theorem run_bind_error_iff {x : ExceptT ε Activity α} {f : α → ExceptT ε Activity β} {e : ε} :
    W.run (x >>= f).run s = (.error e, s') ↔
      W.run x.run s = (.error e, s') ∨
        ∃ a t, W.run x.run s = (.ok a, t) ∧ W.run (f a).run t = (.error e, s') := by
  rw [run_bind_eq]
  constructor
  · intro h
    split at h
    · rename_i a t hx
      exact .inr ⟨a, t, hx, h⟩
    · rename_i e' t hx
      cases h
      exact .inl hx
  · rintro (hx | ⟨a, t, hx, hf⟩)
    · rw [hx]
    · rw [hx]
      exact hf

/-- A program that always ends, as one that may fail. -/
theorem run_always (p : Activity α) (s : σ) :
    W.run (Action.always p).run s = (.ok (W.run p s).1, (W.run p s).2) := by
  unfold Action.always
  rw [ExceptT.run_lift, map_eq_pure_bind, run_bind, run_pure]

/-- A question whose reply is a result. -/
theorem run_demand {q : Question} {as : q.Reply → Except Failure α} (s : σ) :
    W.run (Action.demand q as).run s = (as (W.answer q s).1, (W.answer q s).2) := by
  unfold Action.demand
  rw [ExceptT.run_mk, run_bind, run_query, run_pure]

/-- A program that asks only about what lies outside the store leaves the store alone. -/
theorem run_within {ends : α → Prop} {p : Activity α} (h : p.Within (·.isOutside = true) ends)
    (s : σ) : ends (W.run p s).1 ∧ W.store (W.run p s).2 = W.store s := by
  induction p generalizing s with
  | done a => exact ⟨h, rfl⟩
  | ask q next ih =>
    obtain ⟨hq, hnext⟩ := h
    obtain ⟨hends, hstore⟩ := ih (W.answer q s).1 (hnext _) (W.answer q s).2
    exact ⟨hends, hstore.trans (W.store_outside q s hq)⟩

/-- An action that asks nothing about the store leaves it alone. -/
theorem run_asksOutside {a : Action α} (h : a.AsksOutside) {r : Except Failure α}
    (hrun : W.run a.run s = (r, s')) : W.store s' = W.store s := by
  have hwithin := W.run_within h s
  rw [hrun] at hwithin
  exact hwithin.2

/-- A detached action leaves the store alone, and does not fail as the loading of a job does. -/
theorem run_detached {a : Action α} (h : a.IsDetached) {r : Except Failure α}
    (hrun : W.run a.run s = (r, s')) : SparesJob r ∧ W.store s' = W.store s := by
  have hwithin := W.run_within h s
  rw [hrun] at hwithin
  exact hwithin

/-- Writing to the log leaves the store alone. -/
theorem store_run_log (level : Log.Level) (part : Log.Part) (name : String)
    (fields : List (String × Json)) (s : σ) :
    W.store (W.run (Activity.log level part name fields) s).2 = W.store s :=
  W.store_outside _ s rfl

/-- A transaction yields what the store says, and does to the store what it says. -/
theorem exists_run_transact (t : Transaction) (s : σ) :
    ∃ s', W.run (Action.transact t).run s = (((W.store s).perform t).1, s') ∧
      W.store s' = ((W.store s).perform t).2 := by
  have hreply := W.reply_transact t s
  have hstore := W.store_transact t s
  -- What is logged of a refusal leaves the store as the transaction left it.
  have hlogged : W.store (W.run (Activity.logRefusal (W.answer (.transact t) s).1)
      (W.answer (.transact t) s).2).2 = W.store (W.answer (.transact t) s).2 := by
    unfold Activity.logRefusal
    split
    · exact W.store_run_log ..
    · rfl
  have hrun : W.run (Action.transact t).run s =
      ((W.answer (.transact t) s).1, (W.run (Activity.logRefusal (W.answer (.transact t) s).1)
        (W.answer (.transact t) s).2).2) := by
    unfold Action.transact
    rw [ExceptT.run_mk, run_bind, run_query, run_bind, run_pure]
  rw [hreply] at hrun hlogged
  exact ⟨_, hrun, hlogged.trans hstore⟩

/-! ## Serializing artifacts -/

/-- The library dumps the artifact, and its integers can be written. -/
def Serializes (a : Artifact) : Prop := W.dumps a = .ok () ∧ a.IsWritable

variable {a : Artifact}

/-- Serializing an artifact is one question. -/
theorem run_serialize_eq (a : Artifact) (s : σ) :
    W.run (Action.serialize a).run s =
      (Action.serialized a (W.dumps a), (W.answer (.dump a) s).2) := by
  unfold Action.serialize
  rw [run_demand, W.reply_dump]

/-- An artifact that can be serialized is. -/
theorem run_serialize (h : W.Serializes a) (s : σ) :
    W.run (Action.serialize a).run s = (.ok a.stableText, (W.answer (.dump a) s).2) := by
  obtain ⟨hdumps, hwritable⟩ := h
  rw [run_serialize_eq, hdumps, Action.serialized, if_pos hwritable]
  rfl

/-- An artifact that cannot be serialized is not. -/
theorem exists_run_serialize_of_not (h : ¬W.Serializes a) (s : σ) :
    ∃ f, W.run (Action.serialize a).run s = (.error f, (W.answer (.dump a) s).2) := by
  rw [run_serialize_eq]
  cases hdumps : W.dumps a with
  | error f => exact ⟨.outside f, rfl⟩
  | ok u =>
    rw [Action.serialized, if_neg fun hwritable => h ⟨hdumps, hwritable⟩]
    exact ⟨.longInteger, rfl⟩

/-- An artifact is serialized exactly when it can be, as its text. -/
theorem run_serialize_ok_iff {text : String} :
    W.run (Action.serialize a).run s = (.ok text, s') ↔
      W.Serializes a ∧ text = a.stableText ∧ s' = (W.answer (.dump a) s).2 := by
  constructor
  · intro hrun
    by_cases h : W.Serializes a
    · rw [W.run_serialize h] at hrun
      obtain ⟨htext, rfl⟩ := Prod.mk.inj hrun
      exact ⟨h, (Except.ok.inj htext).symm, rfl⟩
    · obtain ⟨f, hfails⟩ := W.exists_run_serialize_of_not h s
      rw [hfails] at hrun
      cases hrun
  · rintro ⟨h, rfl, rfl⟩
    exact W.run_serialize h s

/-- Serializing leaves the store alone. -/
theorem store_answer_dump (a : Artifact) (s : σ) :
    W.store (W.answer (.dump a) s).2 = W.store s := W.store_outside _ s rfl

/-! ## Worlds whose state is their store -/

/-- A world whose state is its store, in which nothing outside is reached. -/
def isolated : World Store where
  answer q s :=
    match q with
    | .newJob => (("", ⟨0, false⟩), s)
    | .openStore _ => (.ok (), s)
    | .transact t => s.perform t
    | .fetch _ => (.error (.transport "ConnectError" ""), s)
    | .fetchAll _ requests =>
      (.replicate requests.length (.error (.transport "ConnectError" "")), s)
    | .dump a => (a.dumped, s)
    | .put _ => (.error ⟨"ConnectError", ""⟩, s)
    | .openLog .. => ((), s)
    | .log _ => ((), s)
    | .background .. => ((), s)
    | .clock => (0, s)
    | .sleep _ => ((), s)
    | .stopRequested => (true, s)
    | .wait _ => (.ready, s)
    | .openModel => (.error "", s)
    | .explain _ => (.error "", s)
    | .file path => (.error (.missing path), s)
  store s := s
  reply_transact _ _ := rfl
  store_transact _ _ := rfl
  store_outside q s h := by
    cases q with
    | transact t => cases h
    | _ => rfl
  dumps := Artifact.dumped
  reply_dump _ _ := rfl

/-- It serializes the artifacts that are not nested too deep and have no size that cannot be
written. -/
theorem serializes_isolated_iff {a : Artifact} :
    isolated.Serializes a ↔ a.tree.depth < Artifact.depthLimit ∧ a.IsWritable := by
  refine and_congr_left fun _ => ?_
  show a.dumped = .ok () ↔ _
  unfold Artifact.dumped
  split
  · rename_i h
    exact iff_of_true rfl h
  · rename_i h
    exact iff_of_false nofun h

/-- A world whose state is its store, in which jobs are named in one way and requests are answered
one by one, and nothing else outside is reached. -/
def online (name : String) (web : Http.Request → Except Http.Fault Http.Response) :
    World Store where
  answer q s :=
    match q with
    | .newJob => ((name, ⟨0, true⟩), s)
    | .fetch request => (web request, s)
    | .fetchAll _ requests => (⟨(requests.map web).toArray, by simp⟩, s)
    | q => isolated.answer q s
  store s := s
  reply_transact _ _ := rfl
  store_transact _ _ := rfl
  store_outside q s h := by
    cases q with
    | newJob | fetch | fetchAll => rfl
    | _ => exact isolated.store_outside _ s h
  dumps := Artifact.dumped
  reply_dump _ _ := rfl

end World

end RepoGraph
