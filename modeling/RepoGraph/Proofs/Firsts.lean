import Mathlib.Data.List.Nodup

/-!
# Keeping the first of each key

References are listed once for each specifier and edges once for each pair of files: of all that
agree in a key the first one is kept. `keepFirstBy` does so for any key. An element is kept exactly
when no earlier one has its key (`mem_keepFirstBy_iff`), so that a key is there exactly when it was
(`mem_map_keepFirstBy`), and once (`nodup_map_keepFirstBy`). What comes after a list does not change
what is kept of it (`keepFirstBy_append`), and taking out all elements of some keys beforehand comes
to taking them out afterwards (`keepFirstBy_filter`).
-/

namespace RepoGraph

variable {α β κ : Type} [BEq κ] [LawfulBEq κ] {key : α → κ} {seen : List κ} {xs ys : List α} {x : α}
  {k : κ}

/-- The elements whose key is not among `seen` and not that of an earlier one. -/
def keepFirstBy (key : α → κ) (seen : List κ) : List α → List α
  | [] => []
  | x :: xs =>
    if seen.contains (key x) then keepFirstBy key seen xs
    else x :: keepFirstBy key (key x :: seen) xs

/-- An element whose key was seen is not kept. -/
theorem keepFirstBy_cons_of_mem (h : key x ∈ seen) :
    keepFirstBy key seen (x :: xs) = keepFirstBy key seen xs := by
  rw [keepFirstBy, if_pos (List.contains_iff_mem.mpr h)]

/-- An element whose key was not seen is kept. -/
theorem keepFirstBy_cons_of_notMem (h : key x ∉ seen) :
    keepFirstBy key seen (x :: xs) = x :: keepFirstBy key (key x :: seen) xs := by
  rw [keepFirstBy, if_neg fun hcontains => h (List.contains_iff_mem.mp hcontains)]

/-- What is kept stands in its old order. -/
theorem keepFirstBy_sublist (key : α → κ) (seen : List κ) (xs : List α) :
    (keepFirstBy key seen xs).Sublist xs := by
  induction xs generalizing seen with
  | nil => exact .slnil
  | cons x xs ih =>
    by_cases hx : key x ∈ seen
    · rw [keepFirstBy_cons_of_mem hx]
      exact (ih seen).cons x
    · rw [keepFirstBy_cons_of_notMem hx]
      exact (ih _).cons_cons x

/-- An element is kept exactly when its key was not seen, before the list or in it. -/
theorem mem_keepFirstBy_iff :
    x ∈ keepFirstBy key seen xs ↔
      key x ∉ seen ∧ ∃ before after, xs = before ++ x :: after ∧ key x ∉ before.map key := by
  induction xs generalizing seen with
  | nil => simp [keepFirstBy]
  | cons y xs ih =>
    constructor
    · intro h
      by_cases hy : key y ∈ seen
      · rw [keepFirstBy_cons_of_mem hy] at h
        obtain ⟨hx, before, after, rfl, hbefore⟩ := ih.mp h
        refine ⟨hx, y :: before, after, rfl, ?_⟩
        rw [List.map_cons, List.mem_cons, not_or]
        exact ⟨fun heq => hx (heq ▸ hy), hbefore⟩
      · rw [keepFirstBy_cons_of_notMem hy] at h
        rcases List.mem_cons.mp h with rfl | h
        · exact ⟨hy, [], xs, rfl, List.not_mem_nil⟩
        · obtain ⟨hx, before, after, rfl, hbefore⟩ := ih.mp h
          rw [List.mem_cons, not_or] at hx
          refine ⟨hx.2, y :: before, after, rfl, ?_⟩
          rw [List.map_cons, List.mem_cons, not_or]
          exact ⟨hx.1, hbefore⟩
    · rintro ⟨hx, before, after, heq, hbefore⟩
      cases before with
      | nil =>
        obtain ⟨rfl, rfl⟩ := List.cons.inj heq
        rw [keepFirstBy_cons_of_notMem hx]
        exact List.mem_cons_self
      | cons z before =>
        obtain ⟨rfl, rfl⟩ := List.cons.inj heq
        rw [List.map_cons, List.mem_cons, not_or] at hbefore
        by_cases hy : key y ∈ seen
        · rw [keepFirstBy_cons_of_mem hy]
          exact ih.mpr ⟨hx, before, after, rfl, hbefore.2⟩
        · rw [keepFirstBy_cons_of_notMem hy]
          refine List.mem_cons_of_mem y (ih.mpr ⟨?_, before, after, rfl, hbefore.2⟩)
          rw [List.mem_cons, not_or]
          exact ⟨hbefore.1, hx⟩

/-- Of the elements that some items yield those are kept for which no earlier item yields one of the
same key. -/
theorem mem_keepFirstBy_filterMap_iff {yield : β → Option α} {items : List β} :
    x ∈ keepFirstBy key [] (items.filterMap yield) ↔
      ∃ before item after, items = before ++ item :: after ∧ yield item = some x ∧
        ∀ i ∈ before, ∀ y, yield i = some y → key y ≠ key x := by
  rw [mem_keepFirstBy_iff]
  constructor
  · rintro ⟨-, before, after, hsplit, hfirst⟩
    obtain ⟨items₁, items₂, rfl, rfl, hrest⟩ := List.filterMap_eq_append_iff.mp hsplit
    obtain ⟨skipped, item, items₃, rfl, hskipped, hitem, -⟩ := List.filterMap_eq_cons_iff.mp hrest
    refine ⟨items₁ ++ skipped, item, items₃, (List.append_assoc ..).symm, hitem, ?_⟩
    intro i hi y hy heq
    rcases List.mem_append.mp hi with hi | hi
    · exact hfirst (heq ▸ List.mem_map_of_mem (List.mem_filterMap.mpr ⟨i, hi, hy⟩))
    · rw [hskipped i hi] at hy
      cases hy
  · rintro ⟨before, item, after, rfl, hitem, hfirst⟩
    refine ⟨List.not_mem_nil, before.filterMap yield, after.filterMap yield, ?_, fun hmem => ?_⟩
    · rw [List.filterMap_append, List.filterMap_cons_some hitem]
    · obtain ⟨y, hy, heq⟩ := List.mem_map.mp hmem
      obtain ⟨i, hi, hy⟩ := List.mem_filterMap.mp hy
      exact hfirst i hi y hy heq

/-- The keys of what is kept are those of the list that were not seen. -/
theorem mem_map_keepFirstBy :
    k ∈ (keepFirstBy key seen xs).map key ↔ k ∉ seen ∧ k ∈ xs.map key := by
  induction xs generalizing seen with
  | nil => simp [keepFirstBy]
  | cons x xs ih =>
    rw [List.map_cons, List.mem_cons]
    by_cases hx : key x ∈ seen
    · rw [keepFirstBy_cons_of_mem hx, ih]
      refine and_congr_right fun hk => (or_iff_right ?_).symm
      exact fun heq => hk (heq ▸ hx)
    · rw [keepFirstBy_cons_of_notMem hx, List.map_cons, List.mem_cons, ih, List.mem_cons]
      by_cases heq : k = key x
      · simp [heq, hx]
      · simp [heq]

/-- No two of the elements that are kept have the same key. -/
theorem nodup_map_keepFirstBy (key : α → κ) (seen : List κ) (xs : List α) :
    ((keepFirstBy key seen xs).map key).Nodup := by
  induction xs generalizing seen with
  | nil => exact List.nodup_nil
  | cons x xs ih =>
    by_cases hx : key x ∈ seen
    · rw [keepFirstBy_cons_of_mem hx]
      exact ih seen
    · rw [keepFirstBy_cons_of_notMem hx, List.map_cons, List.nodup_cons]
      -- The key of `x` counts as seen from there on.
      exact ⟨fun hmem => (mem_map_keepFirstBy.mp hmem).1 List.mem_cons_self, ih _⟩

/-- Of the keys that were seen only those matter that the list has. -/
theorem keepFirstBy_congr {seen' : List κ} (h : ∀ x ∈ xs, key x ∈ seen ↔ key x ∈ seen') :
    keepFirstBy key seen xs = keepFirstBy key seen' xs := by
  induction xs generalizing seen seen' with
  | nil => rfl
  | cons x xs ih =>
    rw [List.forall_mem_cons] at h
    by_cases hx : key x ∈ seen
    · rw [keepFirstBy_cons_of_mem hx, keepFirstBy_cons_of_mem (h.1.mp hx), ih h.2]
    · rw [keepFirstBy_cons_of_notMem hx, keepFirstBy_cons_of_notMem fun hx' => hx (h.1.mpr hx')]
      refine congrArg (x :: ·) (ih fun y hy => ?_)
      rw [List.mem_cons, List.mem_cons, h.2 y hy]

/-- Of a list after another one those elements are kept whose key was not seen and is not one of the
first list. -/
theorem keepFirstBy_append (key : α → κ) (seen : List κ) (xs ys : List α) :
    keepFirstBy key seen (xs ++ ys) =
      keepFirstBy key seen xs ++ keepFirstBy key (xs.map key ++ seen) ys := by
  induction xs generalizing seen with
  | nil => rfl
  | cons x xs ih =>
    rw [List.cons_append]
    by_cases hx : key x ∈ seen
    · rw [keepFirstBy_cons_of_mem hx, keepFirstBy_cons_of_mem hx, ih]
      refine congrArg _ (keepFirstBy_congr fun y _ => ?_)
      have hsame : key y = key x → key y ∈ seen := fun heq => heq ▸ hx
      simp only [List.map_cons, List.cons_append, List.mem_cons, List.mem_append]
      tauto
    · rw [keepFirstBy_cons_of_notMem hx, keepFirstBy_cons_of_notMem hx, ih, List.cons_append]
      refine congrArg (x :: keepFirstBy key _ xs ++ ·) (keepFirstBy_congr fun y _ => ?_)
      simp only [List.map_cons, List.cons_append, List.mem_cons, List.mem_append]
      tauto

/-- What follows does not matter for what is kept of a list. -/
theorem keepFirstBy_append_isPrefix (key : α → κ) (seen : List κ) (xs ys : List α) :
    keepFirstBy key seen xs <+: keepFirstBy key seen (xs ++ ys) :=
  ⟨_, (keepFirstBy_append key seen xs ys).symm⟩

/-- Elements may be looked at through a function that keeps the key. -/
theorem keepFirstBy_map (f : β → α) (seen : List κ) (xs : List β) :
    keepFirstBy key seen (xs.map f) = (keepFirstBy (key ∘ f) seen xs).map f := by
  induction xs generalizing seen with
  | nil => rfl
  | cons x xs ih =>
    rw [List.map_cons]
    by_cases hx : key (f x) ∈ seen
    · have hx' : (key ∘ f) x ∈ seen := hx
      rw [keepFirstBy_cons_of_mem hx, keepFirstBy_cons_of_mem hx', ih]
    · have hx' : (key ∘ f) x ∉ seen := hx
      rw [keepFirstBy_cons_of_notMem hx, keepFirstBy_cons_of_notMem hx', ih]
      rfl

/-- Taking out the elements of some keys first leaves what taking them out last does. -/
theorem keepFirstBy_filter (p : κ → Bool) (seen : List κ) (xs : List α) :
    keepFirstBy key seen (xs.filter (p ∘ key)) = (keepFirstBy key seen xs).filter (p ∘ key) := by
  induction xs generalizing seen with
  | nil => rfl
  | cons x xs ih =>
    by_cases hp : (p ∘ key) x = true
    · rw [List.filter_cons_of_pos hp]
      by_cases hx : key x ∈ seen
      · rw [keepFirstBy_cons_of_mem hx, keepFirstBy_cons_of_mem hx, ih]
      · rw [keepFirstBy_cons_of_notMem hx, keepFirstBy_cons_of_notMem hx, ih,
          List.filter_cons_of_pos hp]
    · rw [List.filter_cons_of_neg hp]
      by_cases hx : key x ∈ seen
      · rw [keepFirstBy_cons_of_mem hx, ih]
      · rw [keepFirstBy_cons_of_notMem hx, List.filter_cons_of_neg hp, ← ih]
        -- No element that is left has the key of `x`.
        refine keepFirstBy_congr fun y hy => ?_
        have hy' : p (key y) = true := (List.mem_filter.mp hy).2
        have hne : key y ≠ key x := fun heq => hp ((congrArg p heq).symm.trans hy')
        simp [hne]

/-- Of two lists without a common key what is kept of each does not depend on the other. -/
theorem keepFirstBy_append_of_disjoint (h : ∀ x ∈ xs, ∀ y ∈ ys, key x ≠ key y) :
    keepFirstBy key seen (xs ++ ys) = keepFirstBy key seen xs ++ keepFirstBy key seen ys := by
  rw [keepFirstBy_append]
  refine congrArg _ (keepFirstBy_congr fun y hy => ?_)
  -- No element of the first list has the key of `y`.
  have hnew : key y ∉ xs.map key := fun hmem => by
    obtain ⟨x, hx, heq⟩ := List.mem_map.mp hmem
    exact h x hx y hy heq
  rw [List.mem_append, or_iff_right hnew]

/-- Of several lists, no two with a common key, what is kept of each does not depend on the
others. -/
theorem keepFirstBy_flatMap {parts : List β} {elements : β → List α}
    (h : parts.Pairwise fun a b => ∀ x ∈ elements a, ∀ y ∈ elements b, key x ≠ key y) :
    keepFirstBy key seen (parts.flatMap elements) =
      parts.flatMap fun part => keepFirstBy key seen (elements part) := by
  induction parts with
  | nil => rfl
  | cons part parts ih =>
    obtain ⟨hpart, hparts⟩ := List.pairwise_cons.mp h
    rw [List.flatMap_cons, List.flatMap_cons, ← ih hparts]
    refine keepFirstBy_append_of_disjoint fun x hx y hy => ?_
    obtain ⟨other, hother, hy⟩ := List.mem_flatMap.mp hy
    exact hpart other hother x hx y hy

end RepoGraph
