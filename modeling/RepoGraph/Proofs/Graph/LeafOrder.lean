import RepoGraph.Proofs.Graph.Hierarchy

/-!
# The order of the leaves

From left to right the leaves of a snapshot's tree are its distinct paths in increasing order
(`Tree.ofPaths_leaves`). A file is planted in the first directory with the right path, wherever that
stands; it becomes the last leaf since in increasing order the paths below a directory stand
together, so that a directory above the next path is the last of the trees among which it is
(`IsForest.eq_nil_of_isDirectory`).
-/

namespace RepoGraph.Tree

open RepoGraph.Path

variable {above dir path : String} {t : Tree} {ts : List Tree}

/-- The paths of the leaves of several trees, from left to right. -/
def leafPaths (ts : List Tree) : List String := (leavesOf ts).map TreeLabel.path

/-- The leaves of one tree more come first. -/
theorem leafPaths_cons (t : Tree) (ts : List Tree) :
    leafPaths (t :: ts) = t.leaves.map TreeLabel.path ++ leafPaths ts := by
  rw [leafPaths, leavesOf, List.map_append, leafPaths]

/-- A file has one leaf. -/
theorem map_path_leaves_file (path : String) : (file path).leaves.map TreeLabel.path = [path] := by
  rw [leaves_file, List.map_singleton]

/-- The directories on the way to a file are above it. -/
theorem IsWay.isBelow {d : String × String} {ds : List (String × String)}
    (h : IsWay path above (d :: ds)) : IsBelow d.2 path := by
  induction ds generalizing above d with
  | nil => exact isBelow_of_parent_eq h.1 h.2.2.2
  | cons e ds ih =>
    obtain ⟨hd, -, -, hway⟩ := h
    exact (isBelow_of_parent_eq hd hway.2.2.1).trans (ih hway)

/-- After a directory above the next path there is no other tree, when the leaves are in increasing
order. A leaf after those of the directory would be between two paths below it, so that the
directory would be above it as well, and be there a second time. -/
theorem IsForest.eq_nil_of_isDirectory (h : IsForest above (t :: ts))
    (ht : t.isDirectory dir = true) (hbelow : IsBelow dir path)
    (hsorted : (leafPaths (t :: ts) ++ [path]).Pairwise (· < ·)) : ts = [] := by
  cases ts with
  | nil => rfl
  | cons u ts =>
    obtain ⟨htplaced, hrest, hnew⟩ := isForest_cons_iff.mp h
    have huplaced := hrest.placed u List.mem_cons_self
    obtain ⟨hkind, rfl⟩ := isDirectory_iff.mp ht
    have hmem : t.label.path ∈ directoryPaths (nodes t) := by
      rw [nodes_eq_cons, directoryPaths_cons_of_dir hkind]
      exact List.mem_cons_self
    obtain ⟨low, hlow, hlowbelow⟩ := htplaced.exists_leaf_isBelow hmem
    obtain ⟨middle, hmiddle⟩ := List.exists_mem_of_ne_nil _ huplaced.leaves_ne_nil
    have hmiddlemem : middle.path ∈ leafPaths (u :: ts) := by
      rw [leafPaths_cons]
      exact List.mem_append_left _ (List.mem_map_of_mem hmiddle)
    rw [leafPaths_cons, List.append_assoc, List.pairwise_append] at hsorted
    obtain ⟨-, hlater, hfirst⟩ := hsorted
    have hlt : low.path < middle.path :=
      hfirst _ (List.mem_map_of_mem hlow) _ (List.mem_append_left _ hmiddlemem)
    have hlt' : middle.path < path :=
      (List.pairwise_append.mp hlater).2.2 _ hmiddlemem _ (List.mem_singleton.mpr rfl)
    have hmiddlebelow := hlowbelow.between hbelow hlt hlt'
    obtain ⟨hparent, -, hne⟩ := htplaced.label
    have hshorter := length_parent_lt hne
    rw [hparent] at hshorter
    rcases huplaced.mem_directoryPaths_of_isBelow middle hmiddle hmiddlebelow with
      hagain | heq | hhigher
    · obtain ⟨-, hukind, heq⟩ := htplaced.label_eq_of_mem_directoryPaths huplaced hmem hagain
      refine absurd ?_ (hnew hkind)
      rw [heq, directoryPaths_cons_of_dir hukind]
      exact List.mem_cons_self
    · rw [heq] at hshorter
      exact absurd hshorter (Nat.lt_irrefl _)
    · exact absurd hhigher.length_lt (Nat.lt_asymm hshorter)

/-- What is planted in a directory above the next path comes last, if it does so among the
directory's children. -/
theorem IsForest.leafPaths_plantIn {change : List Tree → List Tree}
    (hchange : ∀ cs, IsForest dir cs → (leafPaths cs ++ [path]).Pairwise (· < ·) →
      leafPaths (change cs) = leafPaths cs ++ [path])
    (hbelow : IsBelow dir path) (h : IsForest above ts)
    (hsorted : (leafPaths ts ++ [path]).Pairwise (· < ·)) :
    leafPaths (Tree.plantIn change (base dir) dir ts) = leafPaths ts ++ [path] := by
  -- The leaves of the directory alone are those of its children.
  have hdirectory (cs : List Tree) :
      leafPaths [directory (base dir) dir cs] = leafPaths cs := by
    rw [leafPaths_cons, leaves_directory]
    exact List.append_nil _
  induction ts with
  | nil =>
    rw [Tree.plantIn, hdirectory]
    exact hchange [] (isForest_nil dir) (List.pairwise_singleton _ _)
  | cons t ts ih =>
    rw [Tree.plantIn]
    split
    · rename_i hdir
      obtain rfl := h.eq_nil_of_isDirectory hdir hbelow hsorted
      obtain ⟨cs, rfl, hcs⟩ := (h.placed t List.mem_cons_self).exists_eq_directory hdir
      rw [hdirectory] at hsorted ⊢
      exact (hdirectory (change cs)).trans (hchange cs hcs hsorted)
    · have hlater : (leafPaths ts ++ [path]).Pairwise (· < ·) := by
        rw [leafPaths_cons, List.append_assoc] at hsorted
        exact (List.pairwise_append.mp hsorted).2.1
      rw [leafPaths_cons, ih (isForest_cons_iff.mp h).2.1 hlater, leafPaths_cons,
        List.append_assoc]

/-- A file after all the others is planted as the last leaf. The induction is on the way to the
file, along which each directory is the last of the trees among which it is. -/
theorem IsForest.leafPaths_plant {ds : List (String × String)} (hway : IsWay path above ds)
    (h : IsForest above ts) (hsorted : (leafPaths ts ++ [path]).Pairwise (· < ·)) :
    leafPaths (Tree.plant (file path) ds ts) = leafPaths ts ++ [path] := by
  induction ds generalizing above ts with
  | nil =>
    have hfile : leafPaths [file path] = [path] := by
      rw [leafPaths_cons, map_path_leaves_file]
      rfl
    have happend : leafPaths (ts ++ [file path]) = leafPaths ts ++ leafPaths [file path] := by
      rw [leafPaths, leavesOf_append, List.map_append, leafPaths, leafPaths]
    rw [Tree.plant, happend, hfile]
  | cons d ds ih =>
    have hbelow := hway.isBelow
    obtain ⟨-, hname, -, hway⟩ := hway
    rw [Tree.plant, hname]
    exact h.leafPaths_plantIn (fun cs hcs hlast => ih hway hcs hlast) hbelow hsorted

/-- Files that are planted in increasing order, all after those that are there, are the next leaves
in that order. -/
theorem IsForest.leafPaths_foldl_plant {paths : List String} (hne : ∀ p ∈ paths, p ≠ "")
    (h : IsForest "" ts) (hsorted : (leafPaths ts ++ paths).Pairwise (· < ·)) :
    leafPaths (paths.foldl (fun ts p => Tree.plant (.file p) (directories p) ts) ts) =
      leafPaths ts ++ paths := by
  induction paths generalizing ts with
  | nil => exact (List.append_nil _).symm
  | cons p paths ih =>
    obtain ⟨hp, hpaths⟩ := List.forall_mem_cons.mp hne
    have hsorted' : (leafPaths ts ++ [p] ++ paths).Pairwise (· < ·) := by
      rwa [List.append_assoc]
    have hplant := h.leafPaths_plant (isWay_directories p) (List.pairwise_append.mp hsorted').1
    rw [← hplant] at hsorted'
    rw [List.foldl_cons, ih hpaths (h.plant hp (isWay_directories p)) hsorted', hplant,
      List.append_assoc]
    rfl

/-- The distinct paths are in increasing order. -/
theorem pairwise_distinctPaths (paths : List String) :
    (distinctPaths paths).Pairwise (· < ·) := by
  have hle := Names.pairwise_mergeSort (paths.filter (· != "")).eraseDups
  have hne := List.nodup_iff_pairwise_ne.mp (nodup_distinctPaths paths)
  refine (hle.and hne).imp fun ⟨hab, hneq⟩ => ?_
  exact lt_of_le_of_ne (of_decide_eq_true hab) hneq

/-- The leaves of a snapshot's tree are its distinct paths in their order. -/
theorem map_path_leaves_ofPaths (paths : List String) :
    (ofPaths paths).leaves.map TreeLabel.path = distinctPaths paths := by
  rw [ofPaths, leaves_directory]
  exact (isForest_nil "").leafPaths_foldl_plant (fun _ hp => (mem_distinctPaths.mp hp).2)
    (pairwise_distinctPaths paths)

/-- From left to right the leaves of a snapshot's tree are in increasing order of their paths, which
are those of the snapshot that are not empty; and so the tree can be built again from its leaves. -/
theorem ofPaths_leaves (paths : List String) :
    ((ofPaths paths).leaves.map TreeLabel.path).Pairwise (· < ·) ∧
      (∀ p, p ∈ (ofPaths paths).leaves.map TreeLabel.path ↔ p ∈ paths ∧ p ≠ "") ∧
      ofPaths ((ofPaths paths).leaves.map TreeLabel.path) = ofPaths paths := by
  rw [map_path_leaves_ofPaths]
  have hmem (p : String) : p ∈ distinctPaths paths ↔ p ∈ paths ∧ p ≠ "" := mem_distinctPaths
  refine ⟨pairwise_distinctPaths paths, hmem, ?_⟩
  have hagain : distinctPaths (distinctPaths paths) = distinctPaths paths :=
    Names.sorted_congr fun p => by
      rw [List.mem_filter, List.mem_filter, hmem]
      simp
  rw [ofPaths, ofPaths, hagain]

end RepoGraph.Tree
