import RepoGraph.Proofs.World
import RepoGraph.Snapshot.GitHub

/-!
# What a program asks on its way

`World.asked` lists the questions that a program asks in a world, each with the state in which it is
asked, and `World.gathered` what is of interest of them. Both go along with the program: two
programs one after the other ask what the first one asks and then what the second one does
(`asked_bind`), and after a failure nothing more is asked (`asked_bind_of_error`).

What a program may ask at all limits what it asks in any world (`forall_asked`). So a source of
snapshots that asks only certain questions (`Source.Asks`) is known by these, and a server asks for
nothing but replies to its requests (`GitHub.asks_source`).
-/

namespace RepoGraph

namespace Program

variable {Question : Type} {Reply : Question → Type} {α β σ : Type}

/-- The questions that a program asks of `answer` in turn, each with the state in which it asks. -/
def asked (answer : (q : Question) → σ → Reply q × σ) :
    Program Question Reply α → σ → List (σ × Question)
  | done _, _ => []
  | ask q next, s => (s, q) :: (next (answer q s).1).asked answer (answer q s).2

/-- Two programs one after the other ask in turn. -/
theorem asked_bind (answer : (q : Question) → σ → Reply q × σ) (p : Program Question Reply α)
    (f : α → Program Question Reply β) (s : σ) :
    (p.bind f).asked answer s =
      p.asked answer s ++ (f (p.run answer s).1).asked answer (p.run answer s).2 := by
  induction p generalizing s with
  | done a => rfl
  | ask q next ih => simp [Program.bind, asked, run, ih]

/-- What holds of all that a program may ask holds of what it asks in a world. -/
theorem Within.forall_asked {may : Question → Prop} {ends : α → Prop}
    {p : Program Question Reply α} (h : p.Within may ends)
    (answer : (q : Question) → σ → Reply q × σ) (s : σ) :
    ∀ x ∈ p.asked answer s, may x.2 := by
  induction p generalizing s with
  | done a => exact fun x hx => nomatch hx
  | ask q next ih =>
    obtain ⟨hq, hnext⟩ := h
    intro x hx
    rcases List.mem_cons.mp hx with rfl | hx
    · exact hq
    · exact ih _ (hnext _) _ x hx

/-- Two limits of what a program may ask are one. -/
theorem Within.and {may may' : Question → Prop} {ends ends' : α → Prop}
    {p : Program Question Reply α} (h : p.Within may ends) (h' : p.Within may' ends') :
    p.Within (fun q => may q ∧ may' q) ends' := by
  induction p with
  | done a => exact h'
  | ask q next ih => exact ⟨⟨h.1, h'.1⟩, fun r => ih r (h.2 r) (h'.2 r)⟩

end Program

namespace World

variable {σ α β γ ε : Type} (W : World σ) {s t : σ}

/-- The questions that a program asks, each with the state in which it is asked. -/
def asked (p : Activity α) (s : σ) : List (σ × Question) := p.asked W.answer s

/-- What `pick` takes of the questions that a program asks, and of the states in which it asks them.
-/
def gathered (pick : σ → Question → Option γ) (p : Activity α) (s : σ) : List γ :=
  (W.asked p s).filterMap fun x => pick x.1 x.2

/-- A program that ends at once asks nothing. -/
@[simp]
theorem asked_pure (a : α) (s : σ) : W.asked (pure a) s = [] := rfl

/-- A question is what is asked. -/
@[simp]
theorem asked_query (q : Question) (s : σ) : W.asked (Activity.query q) s = [(s, q)] := rfl

/-- Writing to the log is asking for just that. -/
@[simp]
theorem asked_log (level : Log.Level) (part : Log.Part) (name : String)
    (fields : List (String × Json)) (s : σ) :
    W.asked (Activity.log level part name fields) s = [(s, .log ⟨level, part, name, fields⟩)] := rfl

/-- Two programs one after the other ask in turn. -/
theorem asked_bind (p : Activity α) (f : α → Activity β) (s : σ) :
    W.asked (p >>= f) s = W.asked p s ++ W.asked (f (W.run p s).1) (W.run p s).2 :=
  Program.asked_bind W.answer p f s

/-- Where the first of two programs succeeds, the second one asks after it. -/
theorem asked_bind_of_ok {x : ExceptT ε Activity α} {f : α → ExceptT ε Activity β} {a : α}
    (h : W.run x.run s = (.ok a, t)) :
    W.asked (x >>= f).run s = W.asked x.run s ++ W.asked (f a).run t := by
  rw [ExceptT.run_bind, asked_bind, h]

/-- Where the first of two programs fails, nothing is asked after it. -/
theorem asked_bind_of_error {x : ExceptT ε Activity α} {f : α → ExceptT ε Activity β} {e : ε}
    (h : W.run x.run s = (.error e, t)) : W.asked (x >>= f).run s = W.asked x.run s := by
  rw [ExceptT.run_bind, asked_bind, h]
  exact List.append_nil _

/-- A program that always ends, as one that may fail, asks the same. -/
theorem asked_always (p : Activity α) (s : σ) :
    W.asked (Action.always p).run s = W.asked p s := by
  unfold Action.always
  rw [ExceptT.run_lift, map_eq_pure_bind, asked_bind, asked_pure, List.append_nil]

/-- What holds of all that a program may ask holds of what it asks. -/
theorem forall_asked {may : Question → Prop} {ends : α → Prop} {p : Activity α}
    (h : p.Within may ends) (s : σ) : ∀ x ∈ W.asked p s, may x.2 := h.forall_asked W.answer s

/-- A program that asks only what leaves the store alone leaves it alone. -/
theorem store_run_within {may : Question → Prop} {ends : α → Prop} {p : Activity α}
    (h : p.Within may ends) (hmay : ∀ q s, may q → W.store (W.answer q s).2 = W.store s) (s : σ) :
    W.store (W.run p s).2 = W.store s := by
  induction p generalizing s with
  | done a => rfl
  | ask q next ih => exact (ih _ (h.2 _) _).trans (hmay q s h.1)

/-- A transaction is what is asked, if the database does not refuse it. -/
theorem asked_transact (tr : Transaction) (s : σ)
    (h : ((W.store s).perform tr).1 ≠ .error .database) :
    W.asked (Action.transact tr).run s = [(s, .transact tr)] := by
  have hreply := W.reply_transact tr s
  unfold Action.transact
  rw [ExceptT.run_mk, asked_bind, asked_query, run_query, asked_bind, asked_pure, hreply]
  -- Nothing is logged of a reply that is no refusal.
  unfold Activity.logRefusal
  split
  · rename_i hrefused
    exact absurd hrefused h
  · rfl

variable (pick : σ → Question → Option γ)

/-- What is gathered from a program that ends at once is nothing. -/
@[simp]
theorem gathered_pure (a : α) (s : σ) : W.gathered pick (pure a) s = [] := rfl

/-- What is gathered from two programs one after the other. -/
theorem gathered_bind (p : Activity α) (f : α → Activity β) (s : σ) :
    W.gathered pick (p >>= f) s =
      W.gathered pick p s ++ W.gathered pick (f (W.run p s).1) (W.run p s).2 := by
  unfold gathered
  rw [asked_bind, List.filterMap_append]

/-- What is gathered from two programs of which the first one succeeds. -/
theorem gathered_bind_of_ok {x : ExceptT ε Activity α} {f : α → ExceptT ε Activity β} {a : α}
    (h : W.run x.run s = (.ok a, t)) :
    W.gathered pick (x >>= f).run s =
      W.gathered pick x.run s ++ W.gathered pick (f a).run t := by
  unfold gathered
  rw [asked_bind_of_ok W h, List.filterMap_append]

/-- What is gathered from two programs of which the first one fails. -/
theorem gathered_bind_of_error {x : ExceptT ε Activity α} {f : α → ExceptT ε Activity β} {e : ε}
    (h : W.run x.run s = (.error e, t)) :
    W.gathered pick (x >>= f).run s = W.gathered pick x.run s := by
  unfold gathered
  rw [asked_bind_of_error W h]

/-- What is gathered from a program that always ends, as one that may fail. -/
theorem gathered_always (p : Activity α) (s : σ) :
    W.gathered pick (Action.always p).run s = W.gathered pick p s := by
  unfold gathered
  rw [asked_always]

/-- What is gathered from a program that asks nothing of interest. -/
theorem gathered_eq_nil {may : Question → Prop} {ends : α → Prop} {p : Activity α}
    (h : p.Within may ends) (hpick : ∀ s q, may q → pick s q = none) (s : σ) :
    W.gathered pick p s = [] :=
  List.filterMap_eq_nil_iff.mpr fun x hx => hpick x.1 x.2 (W.forall_asked h s x hx)

/-- What is gathered from a program that asks one question. -/
theorem gathered_of_asked {p : Activity α} {q : Question} (h : W.asked p s = [(t, q)]) :
    W.gathered pick p s = (pick t q).toList := by
  unfold gathered
  rw [h, List.filterMap_cons, List.filterMap_nil]
  cases pick t q <;> rfl

/-- Writing to the log is of no interest where events are not. -/
theorem gathered_log (h : ∀ s e, pick s (.log e) = none) (level : Log.Level) (part : Log.Part)
    (name : String) (fields : List (String × Json)) (s : σ) :
    W.gathered pick (Activity.log level part name fields) s = [] := by
  rw [W.gathered_of_asked pick (W.asked_log ..), h, Option.toList_none]

/-- An artifact is dumped to be serialized. -/
theorem asked_serialize (a : Artifact) (s : σ) :
    W.asked (Action.serialize a).run s = [(s, .dump a)] := by
  unfold Action.serialize Action.demand
  rw [ExceptT.run_mk, asked_bind, asked_query, asked_pure, List.append_nil]

/-- What is gathered from a transaction that the database does not refuse. -/
theorem gathered_transact (tr : Transaction) (s : σ)
    (h : ((W.store s).perform tr).1 ≠ .error .database) :
    W.gathered pick (Action.transact tr).run s = (pick s (.transact tr)).toList :=
  W.gathered_of_asked pick (W.asked_transact tr s h)

end World

/-! ## What a source asks -/

/-- Whatever is replied, each question `q` of the program meets `may q`. -/
def Asks {ε α : Type} (may : Question → Prop) (x : ExceptT ε Activity α) : Prop :=
  x.run.Within may fun _ => True

namespace Asks

variable {ε α β : Type} {may more : Question → Prop}

/-- A value or a failure asks nothing. -/
theorem known (r : Except ε α) : Asks may (ExceptT.mk (pure r)) := trivial

/-- One program after another asks what both ask. -/
theorem bind {x : ExceptT ε Activity α} {f : α → ExceptT ε Activity β} (hx : Asks may x)
    (hf : ∀ a, Asks may (f a)) : Asks may (x >>= f) := by
  refine Program.Within.bind hx fun r _ => ?_
  cases r with
  | ok a => exact hf a
  | error e => trivial

/-- A program that asks some questions asks no more than others beside them. -/
theorem mono {x : ExceptT ε Activity α} (hx : Asks may x) (h : ∀ q, may q → more q) :
    Asks more x := Program.Within.mono hx h fun _ h => h

/-- A program that asks nothing about the store asks only what else is known of it. -/
theorem of_outside {x : Action α} (houtside : x.AsksOutside) (hx : Asks may x) :
    Asks (fun q => q.isOutside = true ∧ may q) x := Program.Within.and houtside hx

/-- Serializing an artifact asks for it to be dumped. -/
theorem serialize {artifact : Artifact} (hmay : may (.dump artifact)) :
    Asks may (Action.serialize artifact) := ⟨hmay, fun _ => trivial⟩

/-- A transaction asks for just that, and for a refusal to be logged. -/
theorem transact {t : Transaction} (ht : may (.transact t)) (hlog : ∀ e, may (.log e)) :
    Asks may (Action.transact t) := by
  refine ⟨ht, fun reply => ?_⟩
  have hlogged : (Activity.logRefusal reply).Within may fun _ => True := by
    unfold Activity.logRefusal
    split
    · exact ⟨hlog _, fun _ => trivial⟩
    · trivial
  show ((Activity.logRefusal reply).bind fun _ => .done reply).Within may _
  exact Program.Within.bind hlogged fun _ _ => trivial

/-- Writing to the log. -/
theorem log (hmay : ∀ e, may (.log e)) (level : Log.Level) (part : Log.Part) (name : String)
    (fields : List (String × Json)) : Asks may (Action.log level part name fields) :=
  ⟨hmay _, fun _ => trivial⟩

end Asks

/-- `describe`, `list` and `contents` of the source ask only questions that meet `may`. -/
structure Source.Asks (source : Source) (may : Question → Prop) : Prop where
  /-- Telling about a repository asks only these. -/
  describe : ∀ r, RepoGraph.Asks may (source.describe r)
  /-- Listing files asks only these. -/
  list : ∀ r branch, RepoGraph.Asks may (source.list r branch)
  /-- Fetching texts asks only these. -/
  contents : ∀ r entries limit, RepoGraph.Asks may (source.contents r entries limit)

/-- A source that asks some questions asks no more than others beside them. -/
theorem Source.Asks.mono {source : Source} {may more : Question → Prop} (h : source.Asks may)
    (hmay : ∀ q, may q → more q) : source.Asks more where
  describe r := (h.describe r).mono hmay
  list r branch := (h.list r branch).mono hmay
  contents r entries limit := (h.contents r entries limit).mono hmay

/-- A source asks only about what lies outside the store. -/
theorem Source.asks_isOutside (source : Source) : source.Asks (·.isOutside = true) where
  describe := source.outside_describe
  list := source.outside_list
  contents := source.outside_contents

/-- The question is a request to a server or an event for the log. -/
def Question.isRemote : Question → Bool
  | fetch _ => true
  | fetchAll .. => true
  | log _ => true
  | _ => false

/-- A server is asked for replies to requests, and events are written to the log. -/
theorem GitHub.asks_source (g : GitHub) : g.source.Asks (·.isRemote = true) where
  describe _ := .bind ⟨rfl, fun _ => trivial⟩ fun _ => .known _
  list _ _ := by
    refine .bind ⟨rfl, fun _ => trivial⟩ fun response => .bind (.known _) fun listed => ?_
    obtain ⟨items, isComplete⟩ := listed
    cases isComplete with
    | true => exact .known _
    | false => exact .bind (.log (fun _ => rfl) ..) fun _ => .known _
  contents _ _ _ := ⟨rfl, fun _ => trivial⟩

end RepoGraph
