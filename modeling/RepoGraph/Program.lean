/-!
# Programs that ask

A program is a tree of questions to the world around it: it is done with a value, or it asks and
goes on with the reply. What a question means is left to whoever runs the program: `Program.run`
gives meaning by a function from questions and states to replies and states, and a scheduler may run
several programs in turns by answering one question of each at a time.
-/

namespace RepoGraph

/-- A program that asks questions, each with a type of replies, and ends with a value. -/
inductive Program (Question : Type) (Reply : Question → Type) (α : Type) : Type
  /-- The program ends with a value. -/
  | done (value : α)
  /-- The program asks, and goes on with the reply. -/
  | ask (question : Question) (next : Reply question → Program Question Reply α)

namespace Program

variable {Question : Type} {Reply : Question → Type} {α β γ : Type}

/-- One program after another. -/
def bind : Program Question Reply α → (α → Program Question Reply β) → Program Question Reply β
  | done a, f => f a
  | ask q next, f => ask q fun r => (next r).bind f

instance : Monad (Program Question Reply) where
  pure := done
  bind := bind

/-- A single question. -/
def query (q : Question) : Program Question Reply (Reply q) := ask q done

/-- Ending in between changes nothing. -/
theorem bind_done (p : Program Question Reply α) : p.bind done = p := by
  induction p with
  | done a => rfl
  | ask q next ih => simp [bind, ih]

/-- Programs may be put together in any grouping. -/
theorem bind_assoc (p : Program Question Reply α) (f : α → Program Question Reply β)
    (g : β → Program Question Reply γ) :
    (p.bind f).bind g = p.bind fun a => (f a).bind g := by
  induction p with
  | done a => rfl
  | ask q next ih => simp [bind, ih]

instance : LawfulMonad (Program Question Reply) := LawfulMonad.mk' _
  (fun p => bind_done p)
  (fun _ _ => rfl)
  (fun p f g => bind_assoc p f g)

/-- The value and the last state of a program, in a world that answers from its state. -/
def run {σ : Type} (answer : (q : Question) → σ → Reply q × σ) :
    Program Question Reply α → σ → α × σ
  | done a, s => (a, s)
  | ask q next, s =>
    let (r, s) := answer q s
    (next r).run answer s

/-- Running two programs one after the other runs the second from where the first ended. -/
theorem run_bind {σ : Type} (answer : (q : Question) → σ → Reply q × σ)
    (p : Program Question Reply α) (f : α → Program Question Reply β) (s : σ) :
    (p.bind f).run answer s = (f (p.run answer s).1).run answer (p.run answer s).2 := by
  induction p generalizing s with
  | done a => rfl
  | ask q next ih => simp [bind, run, ih]

/-- Whatever is replied, the program asks only what it may ask, and ends with a value that meets a
condition. -/
def Within (may : Question → Prop) (ends : α → Prop) : Program Question Reply α → Prop
  | done a => ends a
  | ask q next => may q ∧ ∀ r, (next r).Within may ends

/-- Two programs one after the other ask only what each of them may ask. -/
theorem Within.bind {may : Question → Prop} {between : α → Prop} {ends : β → Prop}
    {p : Program Question Reply α} {f : α → Program Question Reply β}
    (hp : p.Within may between) (hf : ∀ a, between a → (f a).Within may ends) :
    (p.bind f).Within may ends := by
  induction p with
  | done a => exact hf a hp
  | ask q next ih =>
    obtain ⟨hq, hnext⟩ := hp
    exact ⟨hq, fun r => ih r (hnext r)⟩

/-- A program that may ask some questions, and ends in some way, does so by weaker measures. -/
theorem Within.mono {may more : Question → Prop} {ends weaker : α → Prop}
    {p : Program Question Reply α} (h : p.Within may ends) (hmay : ∀ q, may q → more q)
    (hends : ∀ a, ends a → weaker a) : p.Within more weaker := by
  induction p with
  | done a => exact hends a h
  | ask q next ih => exact ⟨hmay q h.1, fun r => ih r (h.2 r)⟩

end Program

end RepoGraph
