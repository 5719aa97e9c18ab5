import RepoGraph.Graph.Check
import RepoGraph.Proofs.Graph.Edge
import RepoGraph.Proofs.Graph.Tree
import RepoGraph.Proofs.Table

/-!
# What checking an artifact accepts

`Artifact.Fits` says in one place what it means that an artifact fits the paths of a snapshot: its
four parts tell of exactly these paths, and the edges join different ones, each pair once.
`fault?_eq_none_iff` shows that the check finds no fault exactly then, and `check_ofFiles_eq_ok_iff`
that the artifact of a snapshot fits it unless a path is empty or occurs twice. Slashes at the ends
of paths or one after another, and files that are called like directories, do no harm.
-/

namespace RepoGraph.Artifact

/-- What `Artifact.check` checks of an artifact and the paths of a snapshot. -/
structure Fits (a : Artifact) (paths : List String) : Prop where
  /-- No two nodes have the same name. -/
  nodup_ids : (a.nodes.map (·.id)).Nodup
  /-- The names of the nodes are the paths. -/
  mem_ids : ∀ path, path ∈ a.nodes.map (·.id) ↔ path ∈ paths
  /-- Each edge joins two different paths. -/
  edges : ∀ e ∈ a.edges, e.source ≠ e.target ∧ e.source ∈ paths ∧ e.target ∈ paths
  /-- No two edges join the same files. -/
  nodup_ends : (a.edges.map Edge.ends).Nodup
  /-- The root of the tree is a directory. -/
  root : a.tree.label.kind = .dir
  /-- No two leaves have the same path. -/
  nodup_leaves : (a.tree.leaves.map (·.path)).Nodup
  /-- The paths of the leaves are the paths. -/
  mem_leaves : ∀ path, path ∈ a.tree.leaves.map (·.path) ↔ path ∈ paths
  /-- The files with a role are the paths. -/
  mem_roles : ∀ path, path ∈ a.roles.names ↔ path ∈ paths

/-- The nodes have no fault exactly when their names are the paths, each once. -/
theorem nodeFault?_eq_none_iff {ids paths : List String} :
    nodeFault? ids paths = none ↔ ids.Nodup ∧ ∀ path, path ∈ ids ↔ path ∈ paths := by
  rw [← Names.repeated_eq_nil_iff, ← Names.sameSet_iff]
  unfold nodeFault?
  cases Names.repeated ids with
  | nil => simp
  | cons id more => simp

/-- Edges have no fault exactly when the first of them has none and the others have none after
it. -/
theorem edgeFault?_cons_eq_none_iff {paths : List String} {seen : List (String × String)} {e : Edge}
    {es : List Edge} :
    edgeFault? paths seen (e :: es) = none ↔
      (e.source ≠ e.target ∧ e.source ∈ paths ∧ e.target ∈ paths) ∧ e.ends ∉ seen ∧
        edgeFault? paths (e.ends :: seen) es = none := by
  by_cases hself : e.source = e.target
  · simp [edgeFault?, hself]
  by_cases hs : e.source ∈ paths
  · by_cases ht : e.target ∈ paths
    · by_cases hseen : e.ends ∈ seen
      · simp [edgeFault?, hself, hs, ht, hseen]
      · simp [edgeFault?, hself, hs, ht, hseen]
    · simp [edgeFault?, hself, ht]
  · simp [edgeFault?, hself, hs]

/-- The edges have no fault exactly when they join different paths, each pair once and none of those
seen before. -/
theorem edgeFault?_eq_none_iff {paths : List String} {seen : List (String × String)}
    {es : List Edge} :
    edgeFault? paths seen es = none ↔
      (∀ e ∈ es, e.source ≠ e.target ∧ e.source ∈ paths ∧ e.target ∈ paths) ∧
        (∀ e ∈ es, e.ends ∉ seen) ∧ (es.map Edge.ends).Nodup := by
  induction es generalizing seen with
  | nil => simp [edgeFault?]
  | cons e es ih =>
    rw [edgeFault?_cons_eq_none_iff, ih, List.map_cons, List.nodup_cons, List.forall_mem_cons,
      List.forall_mem_cons]
    constructor
    · rintro ⟨hends, hseen, hrest, hnew, hnodup⟩
      refine ⟨⟨hends, hrest⟩, ⟨hseen, fun d hd => ?_⟩, fun hmem => ?_, hnodup⟩
      · exact fun hmem => hnew d hd (List.mem_cons_of_mem _ hmem)
      · obtain ⟨d, hd, heq⟩ := List.mem_map.mp hmem
        exact hnew d hd (heq ▸ List.mem_cons_self)
    · rintro ⟨⟨hends, hrest⟩, ⟨hseen, hnew⟩, hother, hnodup⟩
      refine ⟨hends, hseen, hrest, fun d hd hmem => ?_, hnodup⟩
      rcases List.mem_cons.mp hmem with heq | hmem
      · exact hother (heq ▸ List.mem_map_of_mem hd)
      · exact hnew d hd hmem

/-- The tree has no fault exactly when its root is a directory and its leaves are the paths, each
once. -/
theorem treeFault?_eq_none_iff {tree : Tree} {paths : List String} :
    treeFault? tree paths = none ↔
      tree.label.kind = .dir ∧ (tree.leaves.map (·.path)).Nodup ∧
        ∀ path, path ∈ tree.leaves.map (·.path) ↔ path ∈ paths := by
  rw [← Names.repeated_eq_nil_iff, ← Names.sameSet_iff]
  unfold treeFault?
  by_cases hkind : tree.label.kind = .dir
  · cases hrepeated : Names.repeated (tree.leaves.map (·.path)) with
    | nil => simp [hkind, hrepeated]
    | cons path more => simp [hkind, hrepeated]
  · simp [hkind]

/-- The roles have no fault exactly when the files with a role are the paths. -/
theorem roleFault?_eq_none_iff {roles : Table String} {paths : List String} :
    roleFault? roles paths = none ↔ ∀ path, path ∈ roles.names ↔ path ∈ paths := by
  rw [← Names.sameSet_iff]
  simp [roleFault?]

/-- An artifact has no fault exactly when it fits. -/
theorem fault?_eq_none_iff {a : Artifact} {paths : List String} :
    a.fault? paths = none ↔ a.Fits paths := by
  simp only [fault?, Option.orElse_eq_orElse, Option.orElse_eq_or, Option.or_eq_none_iff,
    nodeFault?_eq_none_iff, edgeFault?_eq_none_iff, treeFault?_eq_none_iff, roleFault?_eq_none_iff]
  constructor
  · rintro ⟨⟨hids, hmemIds⟩, ⟨hedges, -, hends⟩, ⟨hroot, hleaves, hmemLeaves⟩, hroles⟩
    exact ⟨hids, hmemIds, hedges, hends, hroot, hleaves, hmemLeaves, hroles⟩
  · rintro ⟨hids, hmemIds, hedges, hends, hroot, hleaves, hmemLeaves, hroles⟩
    exact ⟨⟨hids, hmemIds⟩, ⟨hedges, fun _ _ => List.not_mem_nil, hends⟩,
      ⟨hroot, hleaves, hmemLeaves⟩, hroles⟩

/-- Checking accepts an artifact exactly when it has no fault. -/
theorem check_eq_ok_iff_fits {a : Artifact} {paths : List String} :
    a.check paths = .ok () ↔ a.Fits paths := by
  rw [← fault?_eq_none_iff, check]
  cases a.fault? paths <;> simp

/-- The names of a snapshot's nodes are its paths, in their order. -/
theorem ids_ofFiles (files : List FileRecord) :
    (ofFiles files).nodes.map (·.id) = files.map (·.path) := by
  simp [ofFiles, Node.ofFile]

/-- The files with a role are those of the snapshot. -/
theorem mem_roles_ofFiles {files : List FileRecord} {path : String} :
    path ∈ (ofFiles files).roles.names ↔ path ∈ files.map (·.path) := by
  rw [ofFiles, Table.mem_names_ofList, List.map_map]
  rfl

/-- The leaves of a snapshot's tree are its paths that are not empty. -/
theorem mem_leaves_ofFiles {files : List FileRecord} {path : String} :
    path ∈ (ofFiles files).tree.leaves.map (·.path) ↔ path ∈ files.map (·.path) ∧ path ≠ "" := by
  rw [← Tree.mem_distinctPaths]
  exact (Tree.leaves_ofPaths_perm _).mem_iff

/-- The artifact of a snapshot fits it exactly when the paths are distinct and none is empty. -/
theorem fits_ofFiles_iff {files : List FileRecord} :
    (ofFiles files).Fits (files.map (·.path)) ↔
      (files.map (·.path)).Nodup ∧ "" ∉ files.map (·.path) := by
  constructor
  · intro h
    -- An empty path would be that of a node, but of no leaf.
    refine ⟨ids_ofFiles files ▸ h.nodup_ids, fun hempty => ?_⟩
    have hleaf := (h.mem_leaves "").mpr hempty
    exact (mem_leaves_ofFiles.mp hleaf).2 rfl
  · rintro ⟨hnodup, hempty⟩
    exact
      { nodup_ids := (ids_ofFiles files).symm ▸ hnodup
        mem_ids := fun path => by rw [ids_ofFiles]
        edges := fun e he => by
          obtain ⟨hsource, htarget, hne⟩ := Edge.ends_of_mem_ofFiles he
          exact ⟨hne, hsource, htarget⟩
        nodup_ends := Edge.nodup_ends_ofFiles files
        root := rfl
        nodup_leaves := (Tree.leaves_ofPaths_perm _).nodup_iff.mpr (Tree.nodup_distinctPaths _)
        mem_leaves := fun path => by
          rw [mem_leaves_ofFiles]
          exact ⟨And.left, fun hmem => ⟨hmem, fun heq => hempty (heq ▸ hmem)⟩⟩
        mem_roles := fun path => mem_roles_ofFiles }

/-- The artifact of a snapshot is accepted for the snapshot's paths exactly when these are pairwise
distinct and none of them is empty; otherwise a fault is reported. -/
theorem check_ofFiles_eq_ok_iff (files : List FileRecord) :
    ((ofFiles files).check (files.map (·.path)) = .ok () ↔
        (files.map (·.path)).Nodup ∧ ∀ f ∈ files, f.path ≠ "") ∧
      ((∃ fault, (ofFiles files).check (files.map (·.path)) = .error fault) ↔
        ¬((files.map (·.path)).Nodup ∧ ∀ f ∈ files, f.path ≠ "")) := by
  have hempty : (∀ f ∈ files, f.path ≠ "") ↔ "" ∉ files.map (·.path) := by simp
  have hiff : (ofFiles files).check (files.map (·.path)) = .ok () ↔
      (files.map (·.path)).Nodup ∧ ∀ f ∈ files, f.path ≠ "" := by
    rw [check_eq_ok_iff_fits, fits_ofFiles_iff, hempty]
  refine ⟨hiff, ?_⟩
  rw [← hiff]
  cases (ofFiles files).check (files.map (·.path)) with
  | ok _ => simp
  | error fault => simp

end RepoGraph.Artifact
