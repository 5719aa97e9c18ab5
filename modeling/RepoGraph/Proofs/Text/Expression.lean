import Mathlib.Data.List.Infix
import RepoGraph.Proofs.Text.Split
import RepoGraph.Text.Expression

/-!
# The words of an expression

What an expression finds is one of its words, of which there are finitely many (`words`): `rests`
gives what comes after a word at the front of a text (`mem_rests_iff`), and a search succeeds where
one of the words stands before something that is accepted (`isFound_iff`).
-/

namespace RepoGraph.Text.Expression

variable {fold : Char → Char} {accepts : List Char → Bool} {e : Expression} {s rest : List Char}

/-- The words that the expression stands for. -/
def words : Expression → List (List Char)
  | text word => [word.toList]
  | maybe e => e.words ++ [[]]
  | either e f => e.words ++ f.words
  | seq e f => e.words.flatMap fun v => f.words.map (v ++ ·)

/-- What may be left of a text is what comes after a word of the expression at its front. -/
theorem mem_rests_iff : rest ∈ e.rests fold s ↔ ∃ w ∈ e.words, s = w.map fold ++ rest := by
  induction e generalizing s rest with
  | text word =>
    rw [rests, words, Option.mem_toList]
    constructor
    · intro h
      exact ⟨_, List.mem_singleton_self _, eq_append_of_after? h⟩
    · rintro ⟨w, hw, rfl⟩
      obtain rfl := List.mem_singleton.mp hw
      exact after?_append _ rest
  | maybe e ih =>
    rw [rests, words, List.mem_append, ih, List.mem_singleton]
    constructor
    · rintro (⟨w, hw, heq⟩ | rfl)
      · exact ⟨w, List.mem_append_left _ hw, heq⟩
      · exact ⟨[], List.mem_append_right _ List.mem_cons_self, rfl⟩
    · rintro ⟨w, hw, heq⟩
      rcases List.mem_append.mp hw with hw | hw
      · exact .inl ⟨w, hw, heq⟩
      · obtain rfl := List.mem_singleton.mp hw
        exact .inr heq.symm
  | either e f ihe ihf =>
    rw [rests, words, List.mem_append, ihe, ihf]
    constructor
    · rintro (⟨w, hw, heq⟩ | ⟨w, hw, heq⟩)
      · exact ⟨w, List.mem_append_left _ hw, heq⟩
      · exact ⟨w, List.mem_append_right _ hw, heq⟩
    · rintro ⟨w, hw, heq⟩
      rcases List.mem_append.mp hw with hw | hw
      · exact .inl ⟨w, hw, heq⟩
      · exact .inr ⟨w, hw, heq⟩
  | seq e f ihe ihf =>
    rw [rests, words, List.mem_flatMap]
    constructor
    · rintro ⟨middle, hmiddle, hrest⟩
      obtain ⟨v, hv, rfl⟩ := ihe.mp hmiddle
      obtain ⟨w, hw, rfl⟩ := ihf.mp hrest
      refine ⟨v ++ w, List.mem_flatMap.mpr ⟨v, hv, List.mem_map_of_mem hw⟩, ?_⟩
      rw [List.map_append, List.append_assoc]
    · rintro ⟨u, hu, rfl⟩
      obtain ⟨v, hv, hu⟩ := List.mem_flatMap.mp hu
      obtain ⟨w, hw, rfl⟩ := List.mem_map.mp hu
      refine ⟨w.map fold ++ rest, ihe.mpr ⟨v, hv, ?_⟩, ihf.mpr ⟨w, hw, rfl⟩⟩
      rw [List.map_append, List.append_assoc]

/-- A search succeeds where a word of the expression stands before something that is accepted. -/
theorem isFound_iff :
    e.isFound fold accepts s = true ↔
      ∃ w ∈ e.words, ∃ before rest, s = before ++ (w.map fold ++ rest) ∧ accepts rest = true := by
  have hhere (s : List Char) : (e.rests fold s).any accepts = true ↔
      ∃ w ∈ e.words, ∃ rest, s = w.map fold ++ rest ∧ accepts rest = true := by
    rw [List.any_eq_true]
    constructor
    · rintro ⟨rest, hrest, haccepts⟩
      obtain ⟨w, hw, heq⟩ := mem_rests_iff.mp hrest
      exact ⟨w, hw, rest, heq, haccepts⟩
    · rintro ⟨w, hw, rest, heq, haccepts⟩
      exact ⟨rest, mem_rests_iff.mpr ⟨w, hw, heq⟩, haccepts⟩
  induction s with
  | nil =>
    rw [isFound, hhere]
    constructor
    · rintro ⟨w, hw, rest, heq, haccepts⟩
      exact ⟨w, hw, [], rest, heq, haccepts⟩
    · rintro ⟨w, hw, before, rest, heq, haccepts⟩
      obtain ⟨rfl, hrest⟩ := List.append_eq_nil_iff.mp heq.symm
      exact ⟨w, hw, rest, hrest.symm, haccepts⟩
  | cons c s ih =>
    rw [isFound, Bool.or_eq_true]
    refine (or_congr (hhere _) ih).trans ?_
    constructor
    · rintro (⟨w, hw, rest, heq, haccepts⟩ | ⟨w, hw, before, rest, rfl, haccepts⟩)
      · exact ⟨w, hw, [], rest, heq, haccepts⟩
      · exact ⟨w, hw, c :: before, rest, rfl, haccepts⟩
    · rintro ⟨w, hw, before, rest, heq, haccepts⟩
      cases before with
      | nil => exact .inl ⟨w, hw, rest, heq, haccepts⟩
      | cons d before =>
        obtain ⟨-, rfl⟩ := List.cons.inj heq
        exact .inr ⟨w, hw, before, rest, rfl, haccepts⟩

end RepoGraph.Text.Expression
