/-!
# Waiting within a budget

`waitFor` polls until what it sees is final or the time is used up. It pauses between two polls, for
an interval or for what is left of the time, whichever is shorter. Times are of any type with the
operations that this takes, so that what holds of exact numbers can be said about this very loop.
-/

namespace RepoGraph

/-- What waiting takes: a clock and a way to let time pass. -/
structure Timer (m : Type → Type) (τ : Type) where
  /-- The time on the clock. -/
  now : m τ
  /-- Lets some time pass. -/
  pause : τ → m Unit

/-- What was seen last, and whether the time was used up before it was final. -/
structure Waited (α : Type) where
  /-- What was seen last. -/
  view : α
  /-- It was not final. -/
  timedOut : Bool
  deriving DecidableEq, Repr

namespace Waited

variable {m : Type → Type} {τ α : Type}

section

variable [Monad m] [Sub τ] [OfNat τ 0] [LE τ] [DecidableLE τ] [LT τ] [DecidableLT τ]

/-- Polls until a deadline, with at most so many pauses. -/
def untilDeadline (timer : Timer m τ) (poll : m α) (isFinal : α → Bool) (interval deadline : τ) :
    (pauses : Nat) → m (Waited α)
  | 0 => do
    let view ← poll
    return ⟨view, !isFinal view⟩
  | pauses + 1 => do
    let view ← poll
    if isFinal view then return ⟨view, false⟩
    let remaining := deadline - (← timer.now)
    if remaining ≤ 0 then return ⟨view, true⟩
    -- The last pause ends at the deadline.
    timer.pause (if remaining < interval then remaining else interval)
    untilDeadline timer poll isFinal interval deadline pauses

/-- Polls within a budget, with at most so many pauses. A budget below zero is one of zero. -/
def within [Add τ] (timer : Timer m τ) (poll : m α) (isFinal : α → Bool) (interval budget : τ)
    (pauses : Nat) : m (Waited α) := do
  let start ← timer.now
  untilDeadline timer poll isFinal interval (start + if 0 < budget then budget else 0) pauses

end

end Waited

end RepoGraph
