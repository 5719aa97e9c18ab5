import Mathlib.Data.List.Count
import Mathlib.Data.List.Dedup
import RepoGraph.Graph.Names

/-!
# Lists of names as sets

What the questions about lists of names mean: no name is repeated exactly when the names are
pairwise distinct (`repeated_eq_nil_iff`), and two lists hold the same names exactly when each name
is in both or in neither (`sameSet_iff`); then they are the same once they are sorted
(`sorted_congr`).
-/

namespace RepoGraph.Names

/-- Taking out repetitions leaves each element once. -/
theorem nodup_eraseDups {α : Type} [BEq α] [LawfulBEq α] (xs : List α) : xs.eraseDups.Nodup := by
  match xs with
  | [] => simp
  | x :: xs =>
    rw [List.eraseDups_cons, List.nodup_cons]
    have ih := nodup_eraseDups (xs.filter fun y => !y == x)
    refine ⟨?_, ih⟩
    rw [List.mem_eraseDups]
    simp
termination_by xs.length
decreasing_by
  have := List.length_filter_le (fun y => !y == x) xs
  simp
  omega

/-- Sorting keeps the names. -/
theorem mem_sorted {name : String} {names : List String} : name ∈ sorted names ↔ name ∈ names := by
  rw [sorted, List.mem_mergeSort, List.mem_eraseDups]

/-- Sorting puts names in increasing order. -/
theorem pairwise_mergeSort (names : List String) :
    (names.mergeSort fun a b => decide (a ≤ b)).Pairwise fun a b => decide (a ≤ b) = true := by
  refine List.pairwise_mergeSort (fun a b c hab hbc => ?_) (fun a b => ?_) names
  · exact decide_eq_true (String.le_trans (of_decide_eq_true hab) (of_decide_eq_true hbc))
  · simpa using String.le_total a b

/-- Names in whichever order are the same once they are sorted. -/
theorem mergeSort_eq_of_perm {names others : List String} (h : names.Perm others) :
    names.mergeSort (fun a b => decide (a ≤ b)) = others.mergeSort fun a b => decide (a ≤ b) := by
  have hperm (names : List String) : (names.mergeSort fun a b => decide (a ≤ b)).Perm names :=
    List.mergeSort_perm names _
  refine List.Perm.eq_of_pairwise (fun a b _ _ hab hba => ?_) (pairwise_mergeSort names)
    (pairwise_mergeSort others) ((hperm names).trans (h.trans (hperm others).symm))
  exact String.le_antisymm (of_decide_eq_true hab) (of_decide_eq_true hba)

/-- The sorted names are known by what names there are. -/
theorem sorted_congr {names others : List String} (h : ∀ name, name ∈ names ↔ name ∈ others) :
    sorted names = sorted others := by
  refine mergeSort_eq_of_perm ?_
  rw [List.perm_ext_iff_of_nodup (nodup_eraseDups _) (nodup_eraseDups _)]
  intro name
  rw [List.mem_eraseDups, List.mem_eraseDups, h]

/-- No name is repeated exactly when the names are distinct. -/
theorem repeated_eq_nil_iff {names : List String} : repeated names = [] ↔ names.Nodup := by
  rw [List.eq_nil_iff_forall_not_mem, List.nodup_iff_count_le_one]
  constructor
  · intro h name
    by_contra hlt
    -- A name that is counted twice is one that is repeated.
    have hpos : 0 < names.count name := by omega
    have hmem : name ∈ names := List.count_pos_iff.mp hpos
    exact h name (by
      rw [repeated, mem_sorted, List.mem_filter]
      exact ⟨hmem, by simpa using hlt⟩)
  · intro h name hname
    rw [repeated, mem_sorted, List.mem_filter] at hname
    have hle := h name
    have hlt := of_decide_eq_true hname.2
    omega

/-- Two lists hold the same names exactly when each name is in both or in neither. -/
theorem sameSet_iff {names others : List String} :
    sameSet names others = true ↔ ∀ name, name ∈ names ↔ name ∈ others := by
  simp only [sameSet, Bool.and_eq_true, List.all_eq_true, List.contains_iff_mem]
  constructor
  · rintro ⟨hto, hfrom⟩ name
    exact ⟨hto name, hfrom name⟩
  · intro h
    exact ⟨fun name => (h name).mp, fun name => (h name).mpr⟩

end RepoGraph.Names
