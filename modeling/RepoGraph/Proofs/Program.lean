import RepoGraph.Program

/-!
# Programs that obey a protocol

Whether a program may ask something can depend on what it asked before. A `Protocol` has phases: in
a phase some questions may be asked (`allows`), some replies can be expected (`expects`), and the
reply determines the phase after it (`next`). `p.Obeys rules ends phase` says that `p` asks only
what is allowed as long as the replies are expected ones, and ends with a value that meets `ends` in
the phase it has come to.
-/

namespace RepoGraph

/-- Rules for asking questions, in phases. -/
structure Protocol (Question : Type) (Reply : Question → Type) (Phase : Type) where
  /-- The question may be asked. -/
  allows : Phase → Question → Prop
  /-- The reply can be expected. -/
  expects : Phase → (q : Question) → Reply q → Prop
  /-- The phase after the reply. -/
  next : Phase → (q : Question) → Reply q → Phase

namespace Program

variable {Question : Type} {Reply : Question → Type} {Phase α β : Type}
  {rules : Protocol Question Reply Phase} {p : Program Question Reply α} {phase : Phase}

/-- From `phase` on, and as long as each reply meets `rules.expects`, each question of the program
meets `rules.allows`, and its value meets `ends` in the last phase. -/
def Obeys (rules : Protocol Question Reply Phase) (ends : Phase → α → Prop) :
    Phase → Program Question Reply α → Prop
  | phase, done a => ends phase a
  | phase, ask q next => rules.allows phase q ∧
      ∀ r, rules.expects phase q r → (next r).Obeys rules ends (rules.next phase q r)

/-- `Obeys` goes through the bind of programs, from the phase that the first one ends in. -/
theorem Obeys.bind {between : Phase → α → Prop} {ends : Phase → β → Prop}
    {f : α → Program Question Reply β} (hp : p.Obeys rules between phase)
    (hf : ∀ later a, between later a → (f a).Obeys rules ends later) :
    (p.bind f).Obeys rules ends phase := by
  induction p generalizing phase with
  | done a => exact hf phase a hp
  | ask q next ih =>
    obtain ⟨hallows, hnext⟩ := hp
    exact ⟨hallows, fun r hr => ih r (hnext r hr)⟩

/-- `Obeys` with `ends` gives `Obeys` with what `ends` implies. -/
theorem Obeys.mono {ends weaker : Phase → α → Prop} (hp : p.Obeys rules ends phase)
    (h : ∀ later a, ends later a → weaker later a) : p.Obeys rules weaker phase := by
  induction p generalizing phase with
  | done a => exact h phase a hp
  | ask q next ih =>
    obtain ⟨hallows, hnext⟩ := hp
    exact ⟨hallows, fun r hr => ih r (hnext r hr)⟩

/-- A program that is `Within` questions that `phase` allows, and that do not lead out of it, obeys
the rules and stays in `phase`. -/
theorem Obeys.of_within {may : Question → Prop} {ends : α → Prop}
    (hmay : ∀ q, may q → rules.allows phase q ∧ ∀ r, rules.next phase q r = phase)
    (hp : p.Within may ends) : p.Obeys rules (fun later a => later = phase ∧ ends a) phase := by
  induction p with
  | done a => exact ⟨rfl, hp⟩
  | ask q next ih =>
    obtain ⟨hq, hnext⟩ := hp
    obtain ⟨hallows, hstays⟩ := hmay q hq
    refine ⟨hallows, fun r _ => ?_⟩
    rw [hstays r]
    exact ih r (hnext r)

/-- A program that obeys the rules ends with a value that meets `ends`, where all replies meet
`rules.expects`. -/
theorem Obeys.ends_run {σ : Type} {ends : Phase → α → Prop}
    {answer : (q : Question) → σ → Reply q × σ} (hp : p.Obeys rules ends phase)
    (hanswer : ∀ phase q s, rules.expects phase q (answer q s).1) (s : σ) :
    ∃ later, ends later (p.run answer s).1 := by
  induction p generalizing phase s with
  | done a => exact ⟨phase, hp⟩
  | ask q next ih => exact ih _ (hp.2 _ (hanswer phase q s)) _

end Program

end RepoGraph
