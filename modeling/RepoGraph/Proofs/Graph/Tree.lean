import Mathlib.Data.List.Perm.Basic
import RepoGraph.Graph.Tree
import RepoGraph.Proofs.Names

/-!
# The leaves of a file tree

Planting a tree below directories adds its leaves to those that are there (`leavesOf_plant_perm`),
whether the directories were there before or are made. So the tree of a snapshot has one leaf for
each distinct path that is not empty (`leaves_ofPaths_perm`).
-/

namespace RepoGraph.Tree

/-- The leaves of two lists of trees are those of the first and then those of the second. -/
theorem leavesOf_append (ts us : List Tree) : leavesOf (ts ++ us) = leavesOf ts ++ leavesOf us := by
  induction ts with
  | nil => rfl
  | cons t ts ih => simp [leavesOf, ih]

/-- A file is its own leaf. -/
theorem leaves_file (path : String) :
    (file path).leaves = [⟨Path.base path, path, .file, Path.language? (Path.base path)⟩] := by
  simp [file, leaves]

/-- The leaves of a directory are those of its children. -/
theorem leaves_directory (name path : String) (children : List Tree) :
    (directory name path children).leaves = leavesOf children := by
  simp [directory, leaves]

/-- Changing the children of a directory by adding leaves adds these leaves to it. -/
theorem leaves_mapChildren_perm {change : List Tree → List Tree} {added : List TreeLabel}
    (hchange : ∀ ts, (leavesOf (change ts)).Perm (added ++ leavesOf ts)) {t : Tree}
    (ht : t.label.kind = .dir) : (t.mapChildren change).leaves.Perm (added ++ t.leaves) := by
  cases t with
  | bare l =>
    have hl : l.kind = .dir := ht
    simpa [mapChildren, leaves, leavesOf, hl] using hchange []
  | branch l cs =>
    have hl : l.kind = .dir := ht
    simpa [mapChildren, leaves, hl] using hchange cs

/-- A change of the children of a directory that adds leaves adds them to the trees among which the
directory is, or is made. -/
theorem leavesOf_plantIn_perm {change : List Tree → List Tree} {added : List TreeLabel}
    (hchange : ∀ ts, (leavesOf (change ts)).Perm (added ++ leavesOf ts)) (name path : String)
    (ts : List Tree) : (leavesOf (plantIn change name path ts)).Perm (added ++ leavesOf ts) := by
  induction ts with
  | nil => simpa [plantIn, leavesOf, leaves_directory] using hchange []
  | cons t ts ih =>
    rw [plantIn]
    split
    · rename_i hdir
      have hkind : t.label.kind = .dir := by
        simp only [isDirectory, Bool.and_eq_true, beq_iff_eq] at hdir
        exact hdir.1
      rw [leavesOf, leavesOf, ← List.append_assoc]
      exact (leaves_mapChildren_perm hchange hkind).append_right _
    · -- The directory is further on: its leaves move past those of `t`.
      rw [leavesOf, leavesOf]
      exact (ih.append_left _).trans (List.perm_append_comm_assoc ..)

/-- Planting a tree adds its leaves. -/
theorem leavesOf_plant_perm (tree : Tree) (ds : List (String × String)) (ts : List Tree) :
    (leavesOf (plant tree ds ts)).Perm (tree.leaves ++ leavesOf ts) := by
  induction ds generalizing ts with
  | nil =>
    rw [plant, leavesOf_append, leavesOf, leavesOf, List.append_nil]
    exact List.perm_append_comm
  | cons d ds ih => exact leavesOf_plantIn_perm ih d.1 d.2 ts

/-- Planting files one after another adds a leaf for each of their paths. -/
theorem leavesOf_foldl_plant_perm (paths : List String) (ts : List Tree) :
    ((leavesOf (paths.foldl (fun ts p => plant (file p) (directories p) ts) ts)).map
      TreeLabel.path).Perm (paths ++ (leavesOf ts).map TreeLabel.path) := by
  induction paths generalizing ts with
  | nil => simp
  | cons p paths ih =>
    have hplant := (leavesOf_plant_perm (file p) (directories p) ts).map TreeLabel.path
    rw [leaves_file, List.singleton_append, List.map_cons] at hplant
    rw [List.foldl_cons]
    exact ((ih _).trans (hplant.append_left paths)).trans List.perm_middle

/-- A path is among the distinct ones if it is there and not empty. -/
theorem mem_distinctPaths {path : String} {paths : List String} :
    path ∈ distinctPaths paths ↔ path ∈ paths ∧ path ≠ "" := by
  rw [distinctPaths, List.mem_mergeSort, List.mem_eraseDups, List.mem_filter]
  simp

/-- The distinct paths are distinct. -/
theorem nodup_distinctPaths (paths : List String) : (distinctPaths paths).Nodup :=
  (List.mergeSort_perm _ _).nodup_iff.mpr (Names.nodup_eraseDups _)

/-- The tree of a snapshot has a leaf for each distinct path that is not empty. -/
theorem leaves_ofPaths_perm (paths : List String) :
    ((ofPaths paths).leaves.map TreeLabel.path).Perm (distinctPaths paths) := by
  rw [ofPaths, leaves_directory]
  simpa [leavesOf] using leavesOf_foldl_plant_perm (distinctPaths paths) []

end RepoGraph.Tree
