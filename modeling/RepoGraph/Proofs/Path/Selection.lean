import RepoGraph.Path.Selection
import RepoGraph.Proofs.Path.Below

/-!
# Files in directories that are never looked into

A path is excluded if it lies below a directory with one of the names that are never looked into, at
any depth (`isExcluded_iff`); its own last segment does not count. Entries that may all belong to a
snapshot are only cut off by a selection (`select_eq_take`), so that selecting again from what was
selected changes nothing.
-/

namespace RepoGraph.Path

open RepoGraph.Text

variable {path : String}

/-- The path lies below a directory with one of the names that are never looked into. -/
def LiesInExcluded (path : String) : Prop :=
  ∃ dir, IsBelow dir path ∧ base dir ∈ excludedDirectories

/-- The segments before the last one are those of the parent. -/
theorem dropLast_segments_of_mem (h : '/' ∈ path.toList) :
    (segments path).dropLast = segments (parent path) := by
  obtain ⟨hbase, ⟨hfree, -⟩ | heq⟩ := parent_base path
  · exact absurd h hfree
  · have hsegments : segments path = segments (parent path) ++ [base path] := by
      conv_lhs => rw [segments, heq, toList_append_slash, splitOn_append_cons,
        splitOn_of_notMem hbase, List.map_append, List.map_singleton, String.ofList_toList]
      rfl
    rw [hsegments, List.dropLast_concat]

/-- A single segment has no others before it. -/
theorem dropLast_segments_of_notMem (h : '/' ∉ path.toList) : (segments path).dropLast = [] := by
  rw [segments, splitOn_of_notMem h]
  rfl

/-- A path is excluded if one of the directories above it is never looked into. The induction goes
from a path to its parent. -/
theorem isExcluded_iff : isExcluded path = true ↔ LiesInExcluded path := by
  unfold isExcluded
  induction hn : path.length using Nat.strong_induction_on generalizing path with
  | _ n ih =>
    subst hn
    by_cases hslash : '/' ∈ path.toList
    · have hne : path ≠ "" := by
        rintro rfl
        cases hslash
      have habove := ih _ (length_parent_lt hne) rfl
      rw [dropLast_segments_of_mem hslash, segments_eq_concat_base, List.any_append,
        Bool.or_eq_true, habove]
      constructor
      · rintro (⟨dir, hbelow, hname⟩ | hname)
        · exact ⟨dir, isBelow_iff_parent.mpr ⟨hslash, .inr hbelow⟩, hname⟩
        · exact ⟨parent path, isBelow_iff_parent.mpr ⟨hslash, .inl rfl⟩, by simpa using hname⟩
      · rintro ⟨dir, hbelow, hname⟩
        rcases (isBelow_iff_parent.mp hbelow).2 with rfl | hparent
        · exact .inr (by simpa using hname)
        · exact .inl ⟨dir, hparent, hname⟩
    · rw [dropLast_segments_of_notMem hslash]
      refine iff_of_false (by decide) ?_
      rintro ⟨dir, hbelow, -⟩
      exact hslash (isBelow_iff_parent.mp hbelow).1

/-- A file may belong to a snapshot if it has a path that lies in no directory that is never looked
into. -/
theorem isSelectable_iff : isSelectable path = true ↔ path ≠ "" ∧ ¬LiesInExcluded path := by
  rw [isSelectable, Bool.and_eq_true, bne_iff_ne, Bool.not_eq_true', ← Bool.not_eq_true,
    isExcluded_iff]

section Select

variable {α : Type} {pathOf : α → String} {entries : List α}

/-- Entries that may all belong to a snapshot are only cut off. -/
theorem select_eq_take (h : ∀ e ∈ entries, isSelectable (pathOf e) = true) (maxFiles : Int) :
    select pathOf maxFiles entries = entries.take maxFiles.toNat := by
  rw [select, List.filter_eq_self.mpr h]

/-- Selecting again from what was selected changes nothing. -/
theorem select_select (maxFiles : Int) :
    select pathOf maxFiles (select pathOf maxFiles entries) = select pathOf maxFiles entries := by
  have hselected : ∀ e ∈ select pathOf maxFiles entries, isSelectable (pathOf e) = true :=
    fun e he => (List.mem_filter.mp (List.mem_of_mem_take he)).2
  rw [select_eq_take hselected, select, List.take_take, Nat.min_self]

end Select

end RepoGraph.Path
