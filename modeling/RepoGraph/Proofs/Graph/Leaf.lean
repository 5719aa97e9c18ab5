import RepoGraph.Proofs.Graph.Check
import RepoGraph.Proofs.Graph.Hierarchy

/-!
# The places of leaves

A node of a tree is known by its place: the numbers of the children to go to from the root on. A
leaf stands at a place if that is a file and all before it are directories (`Tree.IsLeafAt`), so a
file hides what it lists and a directory without children is no leaf. `leaves` lists the leaf of
each such place (`mem_leaves_iff`), and once (`nodup_map_leaves_iff`).

So `Artifact.check_eq_ok_iff` says what checking accepts without walking through the tree.
-/

namespace RepoGraph

namespace Tree

variable {t child : Tree} {i : Nat} {place place' : List Nat} {leaf leaf' : TreeLabel}
  {paths : List String}

/-- The leaf stands in the tree at the place: it is a file, and there are directories before it. -/
inductive IsLeafAt : Tree → List Nat → TreeLabel → Prop
  /-- A file is a leaf where it stands. -/
  | here {t : Tree} (h : t.label.kind = .file) : IsLeafAt t [] t.label
  /-- What is a leaf in a child of a directory is one in the directory. -/
  | inside {t child : Tree} {i : Nat} {place : List Nat} {leaf : TreeLabel}
    (h : t.label.kind = .dir) (hchild : t.children[i]? = some child)
    (hleaf : IsLeafAt child place leaf) : IsLeafAt t (i :: place) leaf

/-- The leaf of a file is the file. -/
theorem isLeafAt_iff_of_file (h : t.label.kind = .file) :
    t.IsLeafAt place leaf ↔ place = [] ∧ leaf = t.label := by
  constructor
  · rintro (_ | ⟨hdir, -, -⟩)
    · exact ⟨rfl, rfl⟩
    · rw [h] at hdir
      cases hdir
  · rintro ⟨rfl, rfl⟩
    exact .here h

/-- The leaves of a directory are those of its children. -/
theorem isLeafAt_iff_of_dir (h : t.label.kind = .dir) :
    t.IsLeafAt place leaf ↔
      ∃ i child place', place = i :: place' ∧ t.children[i]? = some child ∧
        child.IsLeafAt place' leaf := by
  constructor
  · rintro (hfile | ⟨-, hchild, hleaf⟩)
    · rw [h] at hfile
      cases hfile
    · exact ⟨_, _, _, rfl, hchild, hleaf⟩
  · rintro ⟨i, child, place', rfl, hchild, hleaf⟩
    exact .inside h hchild hleaf

/-- The leaves of several trees are those of each of them. -/
theorem leavesOf_eq_flatMap (ts : List Tree) : leavesOf ts = ts.flatMap leaves := by
  induction ts with
  | nil => rfl
  | cons t ts ih => rw [leavesOf, ih, List.flatMap_cons]

/-- A file is listed as its own leaf. -/
theorem leaves_of_file (h : t.label.kind = .file) : t.leaves = [t.label] := by
  cases t with
  | bare l => exact if_pos h
  | branch l cs => exact if_pos h

/-- The leaves listed for a directory are those of its children. -/
theorem leaves_of_dir (h : t.label.kind = .dir) : t.leaves = t.children.flatMap leaves := by
  have hfile : t.label.kind ≠ .file := by
    rw [h]
    decide
  cases t with
  | bare l => exact if_neg hfile
  | branch l cs => exact (if_neg hfile).trans (leavesOf_eq_flatMap cs)

/-- A node is a file or a directory. -/
theorem file_or_dir (t : Tree) : t.label.kind = .file ∨ t.label.kind = .dir := by
  cases t.label.kind with
  | file => exact .inl rfl
  | dir => exact .inr rfl

/-- What holds of a node if it holds of its children holds of all trees. -/
theorem induction_children {P : Tree → Prop} (h : ∀ t, (∀ child ∈ t.children, P child) → P t)
    (t : Tree) : P t := by
  refine h t fun child hchild => ?_
  have hsmaller : sizeOf child < sizeOf t := by
    cases t with
    | bare l => cases hchild
    | branch l cs =>
      have hlist : sizeOf child < sizeOf cs := List.sizeOf_lt_of_mem hchild
      rw [branch.sizeOf_spec]
      omega
  exact induction_children h child
termination_by t

/-- The leaves that are listed are those that stand at some place. -/
theorem mem_leaves_iff : leaf ∈ t.leaves ↔ ∃ place, t.IsLeafAt place leaf := by
  induction t using induction_children generalizing leaf with
  | _ t ih =>
    rcases t.file_or_dir with h | h
    · simp [leaves_of_file h, isLeafAt_iff_of_file h]
    · rw [leaves_of_dir h, List.mem_flatMap]
      constructor
      · rintro ⟨child, hmem, hleaf⟩
        obtain ⟨place, hplace⟩ := (ih child hmem).mp hleaf
        obtain ⟨i, hchild⟩ := List.mem_iff_getElem?.mp hmem
        exact ⟨i :: place, .inside h hchild hplace⟩
      · rintro ⟨place, hplace⟩
        obtain ⟨i, child, place', -, hchild, hleaf⟩ := (isLeafAt_iff_of_dir h).mp hplace
        have hmem : child ∈ t.children := List.mem_of_getElem? hchild
        exact ⟨child, hmem, (ih child hmem).mpr ⟨place', hleaf⟩⟩

/-- The files of the tree have different paths: leaves with one path stand at one place. -/
def IsUnambiguous (t : Tree) : Prop :=
  ∀ place place' leaf leaf', t.IsLeafAt place leaf → t.IsLeafAt place' leaf' →
    leaf.path = leaf'.path → place = place'

/-- A directory is unambiguous if its children are and no two of them share a path. -/
theorem isUnambiguous_iff_of_dir (h : t.label.kind = .dir) :
    t.IsUnambiguous ↔ (∀ child ∈ t.children, child.IsUnambiguous) ∧
      t.children.Pairwise fun a b => (a.leaves.map (·.path)).Disjoint (b.leaves.map (·.path)) := by
  constructor
  · intro hunique
    refine ⟨fun child hmem place place' leaf leaf' hplace hplace' heq => ?_, ?_⟩
    · obtain ⟨i, hchild⟩ := List.mem_iff_getElem?.mp hmem
      have hcons := hunique _ _ leaf leaf' (.inside h hchild hplace) (.inside h hchild hplace') heq
      exact (List.cons.inj hcons).2
    · rw [List.pairwise_iff_getElem]
      intro i j hi hj hlt path hpath hpath'
      obtain ⟨leaf, hleaf, rfl⟩ := List.mem_map.mp hpath
      obtain ⟨leaf', hleaf', heq⟩ := List.mem_map.mp hpath'
      obtain ⟨place, hplace⟩ := mem_leaves_iff.mp hleaf
      obtain ⟨place', hplace'⟩ := mem_leaves_iff.mp hleaf'
      have hcons := hunique _ _ leaf leaf'
        (.inside h (List.getElem?_eq_getElem hi) hplace)
        (.inside h (List.getElem?_eq_getElem hj) hplace') heq.symm
      have hsame := (List.cons.inj hcons).1
      omega
  · rintro ⟨hchildren, hdisjoint⟩ place place' leaf leaf' hplace hplace' heq
    obtain ⟨i, child, place, rfl, hchild, hleaf⟩ := (isLeafAt_iff_of_dir h).mp hplace
    obtain ⟨j, child', place', rfl, hchild', hleaf'⟩ := (isLeafAt_iff_of_dir h).mp hplace'
    obtain ⟨hi, rfl⟩ := List.getElem?_eq_some_iff.mp hchild
    obtain ⟨hj, rfl⟩ := List.getElem?_eq_some_iff.mp hchild'
    have hpath : leaf.path ∈ t.children[i].leaves.map (·.path) :=
      List.mem_map_of_mem (mem_leaves_iff.mpr ⟨place, hleaf⟩)
    have hpath' : leaf.path ∈ t.children[j].leaves.map (·.path) :=
      heq ▸ List.mem_map_of_mem (mem_leaves_iff.mpr ⟨place', hleaf'⟩)
    rw [List.pairwise_iff_getElem] at hdisjoint
    rcases Nat.lt_trichotomy i j with hlt | rfl | hgt
    · exact absurd hpath' (hdisjoint i j hi hj hlt hpath)
    · exact congrArg (i :: ·)
        (hchildren _ (List.getElem_mem hi) place place' leaf leaf' hleaf hleaf' heq)
    · exact absurd hpath (hdisjoint j i hj hi hgt hpath')

/-- The paths of the leaves are listed once exactly if the files in the tree differ in path. -/
theorem nodup_map_leaves_iff : (t.leaves.map (·.path)).Nodup ↔ t.IsUnambiguous := by
  induction t using induction_children with
  | _ t ih =>
    rcases t.file_or_dir with h | h
    · have hunique : t.IsUnambiguous := by
        intro place place' leaf leaf' hplace hplace' _
        rw [isLeafAt_iff_of_file h] at hplace hplace'
        rw [hplace.1, hplace'.1]
      simp [leaves_of_file h, hunique]
    · rw [leaves_of_dir h, List.map_flatMap, List.nodup_flatMap, isUnambiguous_iff_of_dir h]
      exact and_congr_left fun _ => forall₂_congr ih

/-- The paths of the leaves that are listed. -/
theorem mem_map_leaves_iff {path : String} :
    path ∈ t.leaves.map (·.path) ↔ ∃ place leaf, t.IsLeafAt place leaf ∧ leaf.path = path := by
  simp only [List.mem_map, mem_leaves_iff]
  constructor
  · rintro ⟨leaf, ⟨place, hplace⟩, rfl⟩
    exact ⟨place, leaf, hplace, rfl⟩
  · rintro ⟨place, leaf, hplace, rfl⟩
    exact ⟨leaf, ⟨place, hplace⟩, rfl⟩

end Tree

/-- Whatever the artifact and the paths are, checking accepts the artifact exactly if its parts tell
of these paths: the names of the nodes are the paths, each once; each edge joins two different ones
of them, and no two edges the same; the root of the tree is a directory, and its files are the
paths, each at one place; and the files with a role are the paths. In every other case a fault is
reported. -/
theorem Artifact.check_eq_ok_iff (a : Artifact) (paths : List String) :
    (a.check paths = .ok () ↔
      ((a.nodes.map (·.id)).Nodup ∧ ∀ path, path ∈ a.nodes.map (·.id) ↔ path ∈ paths) ∧
      (∀ e ∈ a.edges, e.source ≠ e.target ∧ e.source ∈ paths ∧ e.target ∈ paths) ∧
      a.edges.Pairwise (fun e d => (e.source, e.target) ≠ (d.source, d.target)) ∧
      a.tree.label.kind = .dir ∧ a.tree.IsUnambiguous ∧
      (∀ path, (∃ place leaf, a.tree.IsLeafAt place leaf ∧ leaf.path = path) ↔ path ∈ paths) ∧
      ∀ path, path ∈ a.roles.names ↔ path ∈ paths) ∧
    (a.check paths ≠ .ok () → ∃ fault, a.check paths = .error fault) := by
  constructor
  · rw [check_eq_ok_iff_fits]
    simp only [← Tree.nodup_map_leaves_iff, ← Tree.mem_map_leaves_iff]
    have hends : (a.edges.map Edge.ends).Nodup ↔
        a.edges.Pairwise fun e d => (e.source, e.target) ≠ (d.source, d.target) :=
      List.pairwise_map
    rw [← hends]
    constructor
    · intro h
      exact ⟨⟨h.nodup_ids, h.mem_ids⟩, h.edges, h.nodup_ends, h.root, h.nodup_leaves, h.mem_leaves,
        h.mem_roles⟩
    · rintro ⟨⟨hids, hmemIds⟩, hedges, hends, hroot, hleaves, hmemLeaves, hroles⟩
      exact ⟨hids, hmemIds, hedges, hends, hroot, hleaves, hmemLeaves, hroles⟩
  · intro hne
    cases hcheck : a.check paths with
    | ok value => exact absurd hcheck hne
    | error fault => exact ⟨fault, rfl⟩

end RepoGraph
