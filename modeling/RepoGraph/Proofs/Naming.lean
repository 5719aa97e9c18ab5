import RepoGraph.Proofs.Program
import RepoGraph.World.Basic

/-!
# Failures with names

A failure whose `summary` would be without words has a `kind` to go by (`Failure.IsNamed`), so that
something can be said of it (`Failure.IsNamed.summary_ne_empty`). All failures of the program's own
do; one that the store, or the library that dumps artifacts, reports from outside is called what it
was called there. A program whose questions about these fail with names only `Reaches` a value that
meets a condition, and an action `Delivers` one, unless it fails with a name. Both go through bind.
-/

namespace RepoGraph

/-- `kind` is not empty. -/
def Failure.IsNamed (f : Failure) : Prop := f.kind ≠ ""

instance : DecidablePred Failure.IsNamed := fun f => inferInstanceAs (Decidable (f.kind ≠ ""))

/-- A failure has a name, unless it came from outside. -/
theorem Failure.IsNamed.of_ne_outside {f : Failure} (h : ∀ fault, f ≠ .outside fault) :
    f.IsNamed := by
  cases f with
  | outside fault => exact absurd rfl (h fault)
  | _ => exact of_decide_eq_true rfl

/-- What is said of a failure with a name is not nothing. -/
theorem Failure.IsNamed.summary_ne_empty {f : Failure} (h : f.IsNamed) : f.summary ≠ "" := by
  unfold summary
  split
  · exact h
  · assumption

/-! ## Results -/

/-- The condition that any value meets. -/
abbrev Anything {α : Type} : α → Prop := fun _ => True

/-- The result is `.ok` with a value that meets `ends`, or `.error` with an `IsNamed` failure. -/
def Conforms {α : Type} (ends : α → Prop) : Except Failure α → Prop
  | .ok a => ends a
  | .error f => f.IsNamed

namespace Conforms

variable {α β ε : Type} {between : α → Prop} {ends : β → Prop}

/-- A failure with a name. -/
theorem error {f : Failure} (h : f.IsNamed) : Conforms between (.error f) := h

/-- One result after another. -/
theorem bind {r : Except Failure α} {next : α → Except Failure β} (hr : Conforms between r)
    (hnext : ∀ a, between a → Conforms ends (next a)) : Conforms ends (r >>= next) := by
  cases r with
  | ok a => exact hnext a hr
  | error f => exact hr

/-- A result with failures of another sort, all of which are given names. -/
theorem mapError (r : Except ε α) {cause : ε → Failure} (hcause : ∀ e, (cause e).IsNamed) :
    Conforms Anything (r.mapError cause) := by
  cases r with
  | ok a => trivial
  | error e => exact hcause e

/-- Results for the items of a list, one after another. -/
theorem mapM {items : List ε} {f : ε → Except Failure α}
    (hf : ∀ x, Conforms Anything (f x)) : Conforms Anything (items.mapM f) := by
  induction items with
  | nil => trivial
  | cons x xs ih =>
    rw [List.mapM_cons]
    exact bind (hf x) fun _ _ => bind ih fun _ _ => trivial

end Conforms

/-! ## Programs -/

/-- A reply to `openStore`, `transact` or `dump` that is an error is an `IsNamed` failure. -/
def Question.NamesFailures : (q : Question) → q.Reply → Prop
  | openStore _, reply => Conforms Anything reply
  | transact _, reply => Conforms Anything reply
  | dump _, reply => Conforms Anything (reply.mapError Failure.outside)
  | _, _ => True

/-- The protocol in one phase that allows all questions, and expects replies with `NamesFailures`.
-/
def naming : Protocol Question Question.Reply Unit where
  allows _ _ := True
  expects _ q r := q.NamesFailures r
  next _ _ _ := ()

/-- As long as its replies have `NamesFailures`, the program ends with a value that meets `ends`. -/
def Reaches {α : Type} (ends : α → Prop) (p : Activity α) : Prop :=
  p.Obeys naming (fun _ => ends) ()

/-- As long as its replies have `NamesFailures`, the result of the action has `Conforms ends`. -/
def Delivers {α : Type} (ends : α → Prop) (x : Action α) : Prop := Reaches (Conforms ends) x.run

namespace Reaches

variable {α β σ : Type} {between : α → Prop} {ends : β → Prop} {p : Activity α}

/-- A value. -/
theorem pure {a : α} (h : between a) : Reaches between (Pure.pure a) := h

/-- A program ends with a value of whatever sort. -/
theorem any (p : Activity α) : Reaches Anything p := by
  induction p with
  | done a => trivial
  | ask q next ih => exact ⟨trivial, fun r _ => ih r⟩

/-- A question has a reply that names its failure, if it is one. -/
theorem query (q : Question) : Reaches q.NamesFailures (Activity.query q) :=
  ⟨trivial, fun _ hr => hr⟩

/-- One program after another. -/
theorem bind {f : α → Activity β} (hp : Reaches between p)
    (hf : ∀ a, between a → Reaches ends (f a)) : Reaches ends (p >>= f) :=
  Program.Obeys.bind hp fun _ a ha => hf a ha

/-- A program that reaches a value that meets a condition reaches one that meets a weaker one. -/
theorem mono {weaker : α → Prop} (hp : Reaches between p) (h : ∀ a, between a → weaker a) :
    Reaches weaker p :=
  Program.Obeys.mono hp fun _ => h

/-- A program that always ends does not fail. -/
theorem run_always (hp : Reaches between p) :
    Reaches (fun r => ∃ a, r = .ok a ∧ between a) (Action.always p).run := by
  unfold Action.always
  rw [ExceptT.run_lift, map_eq_pure_bind]
  exact hp.bind fun a ha => pure ⟨a, rfl, ha⟩

/-- What a program reaches it ends with in a world where failures about the store have names. -/
theorem ends_run (hp : Reaches between p) {answer : (q : Question) → σ → q.Reply × σ}
    (hanswer : ∀ q s, Question.NamesFailures q (answer q s).1) (s : σ) :
    between (p.run answer s).1 := by
  obtain ⟨-, h⟩ := Program.Obeys.ends_run hp (fun _ => hanswer) s
  exact h

end Reaches

namespace Delivers

variable {α β σ : Type} {between : α → Prop} {ends : β → Prop} {x : Action α}

/-- The result of an action is what the action delivers. -/
theorem reaches_run (h : Delivers between x) : Reaches (Conforms between) x.run := h

/-- A value. -/
theorem pure {a : α} (h : between a) : Delivers between (Pure.pure a) := h

/-- A failure. -/
theorem throw {f : Failure} (h : f.IsNamed) : Delivers between (throw f : Action α) := h

/-- A result that is known. -/
theorem ofExcept {r : Except Failure α} (h : Conforms between r) :
    Delivers between (Action.ofExcept r) := h

/-- A program that always ends. -/
theorem always {p : Activity α} (h : Reaches between p) : Delivers between (Action.always p) := by
  refine h.run_always.mono ?_
  rintro _ ⟨a, rfl, ha⟩
  exact ha

/-- One action after another. -/
theorem bind {f : α → Action β} (hx : Delivers between x)
    (hf : ∀ a, between a → Delivers ends (f a)) : Delivers ends (x >>= f) := by
  unfold Delivers
  rw [ExceptT.run_bind]
  refine Reaches.bind hx fun r hr => ?_
  cases r with
  | ok a => exact hf a hr
  | error f => exact hr

/-- One action after another, whatever the first one delivers. -/
theorem next {f : α → Action β} (hx : Delivers Anything x) (hf : ∀ a, Delivers ends (f a)) :
    Delivers ends (x >>= f) :=
  hx.bind fun a _ => hf a

/-- A question of whose reply a result is made. -/
theorem demand {q : Question} {as : q.Reply → Except Failure α}
    (has : ∀ r, q.NamesFailures r → Conforms between (as r)) :
    Delivers between (Action.demand q as) :=
  ⟨trivial, has⟩

/-- The text of an artifact. -/
theorem serialize (a : Artifact) : Delivers Anything (Action.serialize a) := by
  refine .demand fun reply hreply => Conforms.bind hreply fun _ _ => ?_
  split
  · trivial
  · exact .error (.of_ne_outside nofun)

/-- A transaction. -/
theorem transact (t : Transaction) : Delivers Anything (Action.transact t) := by
  unfold Action.transact Delivers
  rw [ExceptT.run_mk]
  exact Reaches.bind (.query _) fun reply hreply => (Reaches.any _).bind fun _ _ => hreply

/-- Writing to the log. -/
theorem log (level : Log.Level) (part : Log.Part) (name : String) (fields : List (String × Json)) :
    Delivers Anything (Action.log level part name fields) :=
  .always (.any _)

end Delivers

attribute [irreducible] Reaches Delivers

end RepoGraph
