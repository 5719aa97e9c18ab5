import Mathlib.Algebra.Order.Floor.Semiring
import Mathlib.Data.Rat.Floor
import RepoGraph.Service.Waiting

/-!
# Waiting by an exact clock

The clock of a `Watch` advances only by the pauses that are made, and its times are exact, so that
what waiting does can be told from the budget and the interval alone. As long as it goes on,
`IsWaiting` holds: the pauses and what is left of the time are the budget together, and what is left
is no more than the pauses that may still come can take. A poll that sees nothing final in time is
followed by a pause that keeps this (`IsWaiting.paused`), until the end has come (`HasSettled`). The
loop is given a number of pauses that it may make; from the bound on, the number does not matter
(`settles_untilDeadline`).
-/

namespace RepoGraph

variable {τ α : Type}

/-- What has happened since waiting began. -/
structure Watch (τ : Type) where
  /-- The time on the clock. -/
  now : τ
  /-- How many polls were made. -/
  polls : Nat
  /-- The pauses that were made, in their order. -/
  pauses : List τ
  deriving DecidableEq

namespace Watch

/-- The watch before anything has happened. -/
def start (now : τ) : Watch τ := ⟨now, 0, []⟩

/-- The watch after one more poll. -/
def polled (s : Watch τ) : Watch τ := { s with polls := s.polls + 1 }

/-- All polls with one more of them. -/
theorem forall_lt_polled {s : Watch τ} {P : Nat → Prop} :
    (∀ i < s.polled.polls, P i) ↔ (∀ i < s.polls, P i) ∧ P s.polls := by
  show (∀ i < s.polls + 1, P i) ↔ _
  constructor
  · intro h
    exact ⟨fun i hi => h i (by omega), h _ (by omega)⟩
  · rintro ⟨hold, hnew⟩ i hi
    rcases Nat.lt_succ_iff_lt_or_eq.mp hi with hi | rfl
    · exact hold i hi
    · exact hnew

/-- The watch after a pause. -/
def paused [Add τ] (s : Watch τ) (d : τ) : Watch τ :=
  { s with now := s.now + d, pauses := s.pauses ++ [d] }

/-- The clock that advances by the pauses alone. -/
def timer [Add τ] : Timer (StateM (Watch τ)) τ where
  now s := (s.now, s)
  pause d s := ((), s.paused d)

/-- Polls that see one thing after another. -/
def poll (views : Nat → α) : StateM (Watch τ) α := fun s => (views s.polls, s.polled)

end Watch

namespace Waited

/-- Waiting has ended as it should, where so many pauses use up the budget. -/
structure HasSettled [AddCommGroup τ] [LinearOrder τ] (views : Nat → α) (isFinal : α → Bool)
    (budget interval : τ) (bound : Nat) (w : Waited α) (s : Watch τ) : Prop where
  /-- There was a poll after each pause, and one before. -/
  polls_le : s.polls ≤ bound + 1
  /-- What was seen last is what is told. -/
  view_eq : ∃ last, s.polls = last + 1 ∧ w.view = views last
  /-- No pause is empty or longer than the interval. -/
  pause_le : ∀ d ∈ s.pauses, 0 < d ∧ d ≤ interval
  /-- The pauses keep within the budget. -/
  sum_le : s.pauses.sum ≤ budget
  /-- Time has run out exactly if no poll saw anything final. -/
  timedOut_iff : w.timedOut = true ↔ ∀ i < s.polls, isFinal (views i) = false
  /-- If time has run out, then all of it. -/
  sum_eq : w.timedOut = true → s.pauses.sum = budget

section Loop

variable [AddCommGroup τ] [LinearOrder τ] {views : Nat → α} {isFinal : α → Bool}
  {budget interval deadline : τ} {bound left : Nat} {s : Watch τ}

/-- Waiting goes on, and so many more pauses use up the budget. -/
structure IsWaiting (views : Nat → α) (isFinal : α → Bool) (budget interval deadline : τ)
    (bound left : Nat) (s : Watch τ) : Prop where
  /-- Nothing final was seen. -/
  open_polls : ∀ i < s.polls, isFinal (views i) = false
  /-- There was a pause after each poll. -/
  polls_add : s.polls + left = bound
  /-- No pause is empty or longer than the interval. -/
  pause_le : ∀ d ∈ s.pauses, 0 < d ∧ d ≤ interval
  /-- The pauses and what is left of the time are the budget. -/
  sum_add : s.pauses.sum + (deadline - s.now) = budget
  /-- The deadline is not past. -/
  rest_nonneg : 0 ≤ deadline - s.now
  /-- What is left of the time is used up by the pauses that are left. -/
  rest_le : deadline - s.now ≤ left • interval

/-- One round of waiting: a poll, and a pause if there is cause and time for one. -/
theorem run_untilDeadline_succ (pauses : Nat) :
    (untilDeadline Watch.timer (Watch.poll views) isFinal interval deadline (pauses + 1)).run s =
      if isFinal (views s.polls) = true then (⟨views s.polls, false⟩, s.polled)
      else if deadline - s.now ≤ 0 then (⟨views s.polls, true⟩, s.polled)
      else (untilDeadline Watch.timer (Watch.poll views) isFinal interval deadline pauses).run
        (s.polled.paused (if deadline - s.now < interval then deadline - s.now else interval)) := by
  show (if isFinal (views s.polls) = true then _ else _ : StateM (Watch τ) (Waited α)) s.polled = _
  split
  · rfl
  · show (if deadline - s.now ≤ 0 then _ else _ : StateM (Watch τ) (Waited α)) s.polled = _
    split
    · rfl
    · rfl

/-- The last round, where no more pauses are allowed. -/
theorem run_untilDeadline_zero :
    (untilDeadline Watch.timer (Watch.poll views) isFinal interval deadline 0).run s =
      (⟨views s.polls, !isFinal (views s.polls)⟩, s.polled) := rfl

/-- Waiting ends when a poll sees something final. -/
theorem run_untilDeadline_of_isFinal (h : isFinal (views s.polls) = true) (pauses : Nat) :
    (untilDeadline Watch.timer (Watch.poll views) isFinal interval deadline pauses).run s =
      (⟨views s.polls, false⟩, s.polled) := by
  cases pauses with
  | zero => rw [run_untilDeadline_zero, h]; rfl
  | succ pauses => rw [run_untilDeadline_succ, if_pos h]

/-- Waiting ends when the time has run out. -/
theorem run_untilDeadline_of_late (h : isFinal (views s.polls) = false)
    (hlate : deadline - s.now ≤ 0) (pauses : Nat) :
    (untilDeadline Watch.timer (Watch.poll views) isFinal interval deadline pauses).run s =
      (⟨views s.polls, true⟩, s.polled) := by
  cases pauses with
  | zero => rw [run_untilDeadline_zero, h]; rfl
  | succ pauses => rw [run_untilDeadline_succ, if_neg (by rw [h]; decide), if_pos hlate]

/-- Waiting ends as it should when the time has run out. -/
theorem IsWaiting.hasSettled_of_late
    (h : IsWaiting views isFinal budget interval deadline bound left s)
    (hopen : isFinal (views s.polls) = false) (hlate : deadline - s.now ≤ 0) :
    HasSettled views isFinal budget interval bound ⟨views s.polls, true⟩ s.polled := by
  have hsum : s.pauses.sum = budget := by
    rw [← h.sum_add, le_antisymm hlate h.rest_nonneg, add_zero]
  exact {
    polls_le := by
      have := h.polls_add
      show s.polls + 1 ≤ bound + 1
      omega
    view_eq := ⟨s.polls, rfl, rfl⟩
    pause_le := h.pause_le
    sum_le := hsum.le
    timedOut_iff := by
      rw [Watch.forall_lt_polled]
      exact iff_of_true rfl ⟨h.open_polls, hopen⟩
    sum_eq := fun _ => hsum }

variable [IsOrderedAddMonoid τ]

/-- A poll that sees something final ends waiting as it should. -/
theorem IsWaiting.hasSettled_of_isFinal
    (h : IsWaiting views isFinal budget interval deadline bound left s)
    (hfinal : isFinal (views s.polls) = true) :
    HasSettled views isFinal budget interval bound ⟨views s.polls, false⟩ s.polled where
  polls_le := by
    have := h.polls_add
    show s.polls + 1 ≤ bound + 1
    omega
  view_eq := ⟨s.polls, rfl, rfl⟩
  pause_le := h.pause_le
  sum_le := by
    rw [← h.sum_add]
    exact le_add_of_nonneg_right h.rest_nonneg
  timedOut_iff := by
    rw [Watch.forall_lt_polled, hfinal]
    simp
  sum_eq := nofun

/-- Waiting ends as it should with the next poll, unless this sees nothing final in time. -/
theorem IsWaiting.settles_or_goes_on
    (h : IsWaiting views isFinal budget interval deadline bound left s) :
    (∃ w s', HasSettled views isFinal budget interval bound w s' ∧ ∀ pauses,
        (untilDeadline Watch.timer (Watch.poll views) isFinal interval deadline pauses).run s =
          (w, s')) ∨
      (isFinal (views s.polls) = false ∧ 0 < deadline - s.now) := by
  cases hfinal : isFinal (views s.polls) with
  | true =>
    exact .inl ⟨_, _, h.hasSettled_of_isFinal hfinal, run_untilDeadline_of_isFinal hfinal⟩
  | false =>
    rcases le_or_gt (deadline - s.now) 0 with hlate | htime
    · exact .inl ⟨_, _, h.hasSettled_of_late hfinal hlate, run_untilDeadline_of_late hfinal hlate⟩
    · exact .inr ⟨rfl, htime⟩

/-- A pause for an interval, or for what is left of the time, leaves what the pauses after it can
use up. -/
theorem pause_cases {rest : τ} (hinterval : 0 < interval) (hrest : 0 < rest)
    (hle : rest ≤ (left + 1) • interval) :
    let d := if rest < interval then rest else interval
    (0 < d ∧ d ≤ interval) ∧ 0 ≤ rest - d ∧ rest - d ≤ left • interval := by
  intro d
  by_cases hlast : rest < interval
  · have hd : d = rest := if_pos hlast
    rw [hd, sub_self]
    exact ⟨⟨hrest, hlast.le⟩, le_rfl, nsmul_nonneg hinterval.le left⟩
  · have hd : d = interval := if_neg hlast
    rw [hd, sub_nonneg, sub_le_iff_le_add, ← succ_nsmul]
    exact ⟨⟨hinterval, le_rfl⟩, not_lt.mp hlast, hle⟩

/-- Waiting goes on after a poll that sees nothing final in time and a pause. -/
theorem IsWaiting.paused
    (h : IsWaiting views isFinal budget interval deadline bound (left + 1) s)
    (hinterval : 0 < interval) (hopen : isFinal (views s.polls) = false)
    (htime : 0 < deadline - s.now) :
    IsWaiting views isFinal budget interval deadline bound left
      (s.polled.paused (if deadline - s.now < interval then deadline - s.now else interval)) := by
  obtain ⟨hpause, hnonneg, hrest⟩ := pause_cases hinterval htime h.rest_le
  generalize (if deadline - s.now < interval then deadline - s.now else interval) = d at *
  have hnow : deadline - (s.polled.paused d).now = deadline - s.now - d := sub_add_eq_sub_sub ..
  exact {
    open_polls := Watch.forall_lt_polled.mpr ⟨h.open_polls, hopen⟩
    polls_add := by
      have := h.polls_add
      show s.polls + 1 + left = bound
      omega
    pause_le := List.forall_mem_append.mpr ⟨h.pause_le, List.forall_mem_singleton.mpr hpause⟩
    sum_add := by
      show (s.pauses ++ [d]).sum + _ = budget
      rw [hnow, List.sum_append, List.sum_singleton, add_assoc, add_sub_cancel, h.sum_add]
    rest_nonneg := hnow ▸ hnonneg
    rest_le := hnow ▸ hrest }

/-- Waiting that goes on ends as it should, whatever number of pauses is allowed from some on. -/
theorem settles_untilDeadline (hinterval : 0 < interval)
    (h : IsWaiting views isFinal budget interval deadline bound left s) :
    ∃ w s', HasSettled views isFinal budget interval bound w s' ∧ ∀ pauses, left ≤ pauses →
      (untilDeadline Watch.timer (Watch.poll views) isFinal interval deadline pauses).run s =
        (w, s') := by
  induction left generalizing s with
  | zero =>
    rcases h.settles_or_goes_on with ⟨w, s', hsettled, hrun⟩ | ⟨-, htime⟩
    · exact ⟨w, s', hsettled, fun pauses _ => hrun pauses⟩
    · have hlate : deadline - s.now ≤ 0 := by simpa using h.rest_le
      exact absurd htime (not_lt.mpr hlate)
  | succ left ih =>
    rcases h.settles_or_goes_on with ⟨w, s', hsettled, hrun⟩ | ⟨hopen, htime⟩
    · exact ⟨w, s', hsettled, fun pauses _ => hrun pauses⟩
    · obtain ⟨w, s', hsettled, hrun⟩ := ih (h.paused hinterval hopen htime)
      refine ⟨w, s', hsettled, fun pauses hpauses => ?_⟩
      obtain ⟨n, rfl⟩ := Nat.exists_eq_add_of_le' (Nat.one_le_of_lt hpauses)
      rw [run_untilDeadline_succ, if_neg (by rw [hopen]; decide), if_neg (not_le.mpr htime)]
      exact hrun n (Nat.succ_le_succ_iff.mp hpauses)

/-- Waiting within a budget, by an exact clock and for polls that see one thing after another, ends
as it should. Any number of pauses from the bound on may be allowed, so that no limit on them is
what ends it. -/
def SettlesWithin (views : Nat → α) (isFinal : α → Bool) (start budget interval : τ)
    (bound : Nat) : Prop :=
  ∃ w s, HasSettled views isFinal (max 0 budget) interval bound w s ∧ ∀ pauses, bound ≤ pauses →
    (within Watch.timer (Watch.poll views) isFinal interval budget pauses).run (Watch.start start) =
      (w, s)

/-- Waiting ends as it should after no more pauses than use up the budget. -/
theorem settlesWithin_of_le (hinterval : 0 < interval) (hbound : max 0 budget ≤ bound • interval)
    (views : Nat → α) (isFinal : α → Bool) (start : τ) :
    SettlesWithin views isFinal start budget interval bound := by
  have hbudget : (if 0 < budget then budget else 0) = max 0 budget := by
    split
    · rename_i hpos
      exact (max_eq_right hpos.le).symm
    · rename_i hnot
      exact (max_eq_left (not_lt.mp hnot)).symm
  have hrest : start + max 0 budget - start = max 0 budget := add_sub_cancel_left ..
  have hwaiting : IsWaiting views isFinal (max 0 budget) interval (start + max 0 budget) bound bound
      (Watch.start start) :=
    { open_polls := fun _ hi => absurd hi (Nat.not_lt_zero _)
      polls_add := Nat.zero_add bound
      pause_le := nofun
      sum_add := (zero_add _).trans hrest
      rest_nonneg := hrest.symm ▸ le_max_left 0 budget
      rest_le := hrest.symm ▸ hbound }
  obtain ⟨w, s, hsettled, hrun⟩ := settles_untilDeadline hinterval hwaiting
  refine ⟨w, s, hsettled, fun pauses hpauses => ?_⟩
  rw [← hrun pauses hpauses, ← hbudget]
  rfl

end Loop

/-- With whole or rational numbers for times, waiting for what polls see, of a job or of anything
else, ends as it should: after as many polls at most as there are intervals in the budget, the last
one perhaps shorter, and one more. -/
theorem settlesWithin_ceil (views : Nat → α) (isFinal : α → Bool) :
    (∀ start budget interval : ℤ, 0 < interval →
      SettlesWithin views isFinal start budget interval ⌈(max 0 budget : ℚ) / interval⌉₊) ∧
    ∀ start budget interval : ℚ, 0 < interval →
      SettlesWithin views isFinal start budget interval ⌈max 0 budget / interval⌉₊ := by
  have hceil {budget interval : ℚ} (h : 0 < interval) :
      budget ≤ ⌈budget / interval⌉₊ * interval := (div_le_iff₀ h).mp (Nat.le_ceil _)
  constructor
  · intro start budget interval hinterval
    refine settlesWithin_of_le hinterval ?_ views isFinal start
    rw [nsmul_eq_mul, ← Int.cast_le (R := ℚ)]
    push_cast
    exact hceil (Int.cast_pos.mpr hinterval)
  · intro start budget interval hinterval
    refine settlesWithin_of_le hinterval ?_ views isFinal start
    rw [nsmul_eq_mul]
    exact hceil hinterval

/-- A budget of seven takes no more than three pauses of three. -/
theorem settlesWithin_ceil_seven :
    (0 : ℤ) < 3 ∧ SettlesWithin (fun i => i) (fun _ => false) (5 : ℤ) 7 3 3 := by
  have hinterval : (0 : ℤ) < 3 := by decide
  have hsettles := (settlesWithin_ceil (fun i => i) fun _ => false).1 5 7 3 hinterval
  have hbound : ⌈max 0 ((7 : ℤ) : ℚ) / (3 : ℤ)⌉₊ = 3 := by
    rw [Nat.ceil_eq_iff (by decide)]
    norm_num
  exact ⟨hinterval, hbound ▸ hsettles⟩

/-- Nothing final is seen within seven units of time: the last pause is for what is left of them. -/
example :
    (within Watch.timer (Watch.poll fun i => i) (fun _ => false) (3 : ℤ) 7 9).run (Watch.start 5) =
      (⟨3, true⟩, ⟨12, 4, [3, 3, 1]⟩) := rfl

end Waited

end RepoGraph
