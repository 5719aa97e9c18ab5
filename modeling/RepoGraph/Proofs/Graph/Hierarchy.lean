import RepoGraph.Proofs.Graph.Tree
import RepoGraph.Proofs.Path.Below

/-!
# The hierarchy of directories

In the tree of a snapshot every node stands below the directory that is its parent by path, and no
directory is there twice (`Tree.ofPaths_isHierarchy`). What one file more preserves is said for the
trees below one directory (`IsForest`): each of them is placed there (`IsPlaced`), with all that it
holds, and they are told apart by their paths. A file is planted along the way that its path goes
(`IsWay`), and so forests stay forests (`IsForest.plant`).

Which directories there are, and that each is there once, follows from the places alone, in whatever
order the files were planted.
-/

namespace RepoGraph.Tree

open RepoGraph.Path RepoGraph.Text

variable {above path : String} {t u : Tree} {ts : List Tree}

/-- The trees that a node lists. -/
def children : Tree → List Tree
  | bare _ => []
  | branch _ cs => cs

mutual

/-- The nodes of a tree, each with what is below it, from the root on. -/
def nodes : Tree → List Tree
  | bare l => [bare l]
  | branch l cs => branch l cs :: nodesOf cs

/-- The nodes of several trees. -/
def nodesOf : List Tree → List Tree
  | [] => []
  | t :: ts => nodes t ++ nodesOf ts

end

/-- The paths of the directories among some nodes. -/
def directoryPaths (ts : List Tree) : List String :=
  (ts.filter fun t => t.label.kind == .dir).map fun t => t.label.path

/-! ## Nodes one by one -/

/-- A tree is the first of its nodes. -/
theorem nodes_eq_cons (t : Tree) : nodes t = t :: nodesOf t.children := by
  cases t with
  | bare l => rfl
  | branch l cs => rfl

/-- A node of several trees is a node of one of them. -/
theorem mem_nodesOf : u ∈ nodesOf ts ↔ ∃ t ∈ ts, u ∈ nodes t := by
  induction ts with
  | nil => simp [nodesOf]
  | cons t ts ih => simp [nodesOf, ih]

/-- A leaf of several trees is a leaf of one of them. -/
theorem mem_leavesOf {l : TreeLabel} : l ∈ leavesOf ts ↔ ∃ t ∈ ts, l ∈ leaves t := by
  induction ts with
  | nil => simp [leavesOf]
  | cons t ts ih => simp [leavesOf, ih]

/-- The path of a directory among some nodes. -/
theorem mem_directoryPaths :
    path ∈ directoryPaths ts ↔ ∃ t ∈ ts, t.label.kind = .dir ∧ t.label.path = path := by
  simp [directoryPaths, and_assoc]

/-- The directories among two lists of nodes. -/
theorem directoryPaths_append (ts us : List Tree) :
    directoryPaths (ts ++ us) = directoryPaths ts ++ directoryPaths us := by
  simp [directoryPaths]

/-- A directory in front of other nodes. -/
theorem directoryPaths_cons_of_dir (h : t.label.kind = .dir) :
    directoryPaths (t :: ts) = t.label.path :: directoryPaths ts := by
  simp [directoryPaths, h]

/-- A file in front of other nodes. -/
theorem directoryPaths_cons_of_file (h : t.label.kind = .file) :
    directoryPaths (t :: ts) = directoryPaths ts := by
  simp [directoryPaths, h]

/-- A directory keeps its label when its children change. -/
theorem label_mapChildren (change : List Tree → List Tree) (t : Tree) :
    (t.mapChildren change).label = t.label := by
  cases t with
  | bare l => rfl
  | branch l cs => rfl

/-- A node is the directory with a path. -/
theorem isDirectory_iff :
    t.isDirectory path = true ↔ t.label.kind = .dir ∧ t.label.path = path := by
  simp [isDirectory]

/-! ## The way to a file -/

/-- The directories lead from one directory to a file: each is the parent of the next one, and the
last one that of the file. -/
def IsWay (path : String) : (above : String) → List (String × String) → Prop
  | above, [] => parent path = above
  | above, d :: ds => d.2 ≠ "" ∧ d.1 = base d.2 ∧ parent d.2 = above ∧ IsWay path d.2 ds

/-- The parent and the last segment of a path that is put together from a segment and what stands
before it: nothing, or a directory and a slash. -/
theorem parent_base_of_above {dir before segment : List Char} (hsegment : '/' ∉ segment)
    (hbefore : before = [] ∧ dir = [] ∨ before = dir ++ ['/']) :
    parent (String.ofList (before ++ segment)) = String.ofList dir ∧
      base (String.ofList (before ++ segment)) = String.ofList segment := by
  have hlist : '/' ∉ (String.ofList segment).toList := by rwa [String.toList_ofList]
  rcases hbefore with ⟨rfl, rfl⟩ | rfl
  · exact parent_base_of_notMem hlist
  · have heq : String.ofList (dir ++ ['/'] ++ segment) =
        String.ofList dir ++ "/" ++ String.ofList segment := by
      rw [String.ofList_append, String.ofList_append]
    rw [heq]
    exact parent_base_append hlist

/-- The directories on the way to a file lead there, from wherever on the way one looks. An empty
segment at the front of a path leads nowhere, as the root is there already. -/
theorem isWay_directoriesFrom {dir before : List Char} {segments : List (List Char)}
    (hne : segments ≠ []) (hslash : ∀ s ∈ segments, '/' ∉ s)
    (hbefore : before = [] ∧ dir = [] ∨ before = dir ++ ['/'])
    (hpath : path.toList = before ++ joinWith '/' segments) :
    IsWay path (String.ofList dir)
      ((directoriesFrom before segments).filter fun d => d.2 != "") := by
  induction segments generalizing dir before with
  | nil => exact absurd rfl hne
  | cons s segments ih =>
    obtain ⟨hs, hrest⟩ := List.forall_mem_cons.mp hslash
    cases segments with
    | nil =>
      have heq : path = String.ofList (before ++ s) := by
        rw [← String.toList_inj, hpath, String.toList_ofList, joinWith]
      show parent path = String.ofList dir
      rw [heq]
      exact (parent_base_of_above hs hbefore).1
    | cons next rest =>
      have hpath' : path.toList = before ++ s ++ ['/'] ++ joinWith '/' (next :: rest) := by
        rw [hpath]
        simp [joinWith]
      rw [directoriesFrom]
      by_cases hempty : before ++ s = []
      · -- The empty path is that of the root, which is no step on the way.
        obtain ⟨rfl, rfl⟩ := List.append_eq_nil_iff.mp hempty
        have hdir : dir = [] := by
          rcases hbefore with ⟨-, hdir⟩ | hbefore
          · exact hdir
          · exact absurd hbefore.symm (by simp)
        rw [List.filter_cons_of_neg (by simp)]
        exact ih (List.cons_ne_nil _ _) hrest (.inr (by rw [hdir]; rfl)) hpath'
      · have hne : String.ofList (before ++ s) ≠ "" := by
          intro heq
          rw [← String.toList_inj, String.toList_ofList] at heq
          exact hempty heq
        obtain ⟨hparent, hbase⟩ := parent_base_of_above hs hbefore
        rw [List.filter_cons_of_pos (by simpa using hne)]
        exact ⟨hne, hbase.symm, hparent, ih (List.cons_ne_nil _ _) hrest (.inr rfl) hpath'⟩

/-- The directories on the way to a file lead there from the root. -/
theorem isWay_directories (path : String) : IsWay path "" (directories path) := by
  refine isWay_directoriesFrom (splitOn_ne_nil '/' path.toList)
    (fun s hs => notMem_of_mem_splitOn hs) (.inl ⟨rfl, rfl⟩) ?_
  rw [joinWith_splitOn, List.nil_append]

/-! ## Forests -/

/-- The tree stands where it should below a directory, and so does everything in it. -/
inductive IsPlaced : (above : String) → Tree → Prop
  /-- A file below its parent. -/
  | file {above path : String} (hne : path ≠ "") (habove : parent path = above) :
    IsPlaced above (.file path)
  /-- A directory below its parent, with at least one file below it, whose children are placed and
  of which no two are directories with one path. -/
  | directory {above path : String} {children : List Tree} (hne : path ≠ "")
    (habove : parent path = above) (hleaves : leavesOf children ≠ [])
    (hnodup : (directoryPaths children).Nodup) (h : ∀ t ∈ children, IsPlaced path t) :
    IsPlaced above (.directory (base path) path children)

/-- The trees are placed below a directory, and no two of them are directories with one path. -/
structure IsForest (above : String) (ts : List Tree) : Prop where
  /-- Each tree is placed. -/
  placed : ∀ t ∈ ts, IsPlaced above t
  /-- No two trees are directories with one path. -/
  nodup : (directoryPaths ts).Nodup

/-- What a placed tree tells of itself. -/
theorem IsPlaced.label (h : IsPlaced above t) :
    parent t.label.path = above ∧ t.label.name = base t.label.path ∧ t.label.path ≠ "" := by
  cases h with
  | file hne habove => exact ⟨habove, rfl, hne⟩
  | directory hne habove => exact ⟨habove, rfl, hne⟩

/-- No trees are a forest. -/
theorem isForest_nil (above : String) : IsForest above [] := ⟨nofun, .nil⟩

/-- One more tree in front of a forest. -/
theorem isForest_cons_iff : IsForest above (t :: ts) ↔
    IsPlaced above t ∧ IsForest above ts ∧
      (t.label.kind = .dir → t.label.path ∉ directoryPaths ts) := by
  have hnodup : (directoryPaths (t :: ts)).Nodup ↔ (directoryPaths ts).Nodup ∧
      (t.label.kind = .dir → t.label.path ∉ directoryPaths ts) := by
    cases hkind : t.label.kind with
    | file => simp [directoryPaths_cons_of_file hkind]
    | dir => simp [directoryPaths_cons_of_dir hkind, and_comm]
  constructor
  · rintro ⟨hplaced, hdirs⟩
    obtain ⟨ht, hts⟩ := List.forall_mem_cons.mp hplaced
    exact ⟨ht, ⟨hts, (hnodup.mp hdirs).1⟩, (hnodup.mp hdirs).2⟩
  · rintro ⟨ht, ⟨hts, hdirs⟩, hnew⟩
    exact ⟨List.forall_mem_cons.mpr ⟨ht, hts⟩, hnodup.mpr ⟨hdirs, hnew⟩⟩

/-- Planting in a directory makes that directory, if it is not there, and no other. -/
theorem mem_directoryPaths_plantIn {change : List Tree → List Tree} {name dir : String} :
    path ∈ directoryPaths (plantIn change name dir ts) ↔ path ∈ directoryPaths ts ∨ path = dir := by
  induction ts with
  | nil => simp [plantIn, directoryPaths, directory, Tree.label]
  | cons t ts ih =>
    rw [plantIn]
    split
    · rename_i hdir
      obtain ⟨hkind, rfl⟩ := isDirectory_iff.mp hdir
      have hkind' : (t.mapChildren change).label.kind = .dir := by rw [label_mapChildren, hkind]
      rw [directoryPaths_cons_of_dir hkind', directoryPaths_cons_of_dir hkind, label_mapChildren]
      simp only [List.mem_cons]
      tauto
    · cases hkind : t.label.kind with
      | file => rw [directoryPaths_cons_of_file hkind, directoryPaths_cons_of_file hkind, ih]
      | dir =>
        rw [directoryPaths_cons_of_dir hkind, directoryPaths_cons_of_dir hkind, List.mem_cons,
          List.mem_cons, ih, or_assoc]

/-- The directory with a path among placed trees lists a forest. -/
theorem IsPlaced.exists_eq_directory {dir : String} (h : IsPlaced above t)
    (hdir : t.isDirectory dir = true) :
    ∃ cs, t = .directory (base dir) dir cs ∧ IsForest dir cs := by
  obtain ⟨hkind, hpath⟩ := isDirectory_iff.mp hdir
  cases h with
  | file => cases hkind
  | directory hne habove hleaves hnodup h =>
    obtain rfl : _ = dir := hpath
    exact ⟨_, rfl, h, hnodup⟩

/-- Planting in a directory leaves a forest, if what is planted there does. -/
theorem IsForest.plantIn {change : List Tree → List Tree} {dir : String}
    (hchange : ∀ cs, IsForest dir cs → IsForest dir (change cs) ∧ leavesOf (change cs) ≠ [])
    (hne : dir ≠ "") (habove : parent dir = above) (h : IsForest above ts) :
    IsForest above (plantIn change (base dir) dir ts) := by
  have hgrown {cs : List Tree} (hcs : IsForest dir cs) :
      IsPlaced above (.directory (base dir) dir (change cs)) := by
    obtain ⟨⟨hplaced, hnodup⟩, hleaves⟩ := hchange cs hcs
    exact .directory hne habove hleaves hnodup hplaced
  induction ts with
  | nil =>
    rw [Tree.plantIn]
    exact isForest_cons_iff.mpr
      ⟨hgrown (isForest_nil dir), isForest_nil above, fun _ => List.not_mem_nil⟩
  | cons t ts ih =>
    obtain ⟨ht, hts, hnew⟩ := isForest_cons_iff.mp h
    rw [Tree.plantIn]
    split
    · rename_i hdir
      obtain ⟨cs, rfl, hcs⟩ := ht.exists_eq_directory hdir
      exact isForest_cons_iff.mpr ⟨hgrown hcs, hts, hnew⟩
    · rename_i hdir
      refine isForest_cons_iff.mpr ⟨ht, ih hts, fun hkind hmem => ?_⟩
      rcases mem_directoryPaths_plantIn.mp hmem with hmem | heq
      · exact hnew hkind hmem
      · exact hdir (isDirectory_iff.mpr ⟨hkind, heq⟩)

/-- After a file was planted there is a leaf. -/
theorem leavesOf_plant_ne_nil (path : String) (ds : List (String × String)) (ts : List Tree) :
    leavesOf (plant (file path) ds ts) ≠ [] := by
  intro hnil
  have hperm := leavesOf_plant_perm (file path) ds ts
  rw [hnil, leaves_file] at hperm
  exact absurd hperm.symm.eq_nil (List.cons_ne_nil _ _)

/-- A file that is planted along its way leaves a forest. The induction is on the way, and at each
step of it the rest of the file's way lies below the next directory. -/
theorem IsForest.plant {ds : List (String × String)} (hne : path ≠ "") (hway : IsWay path above ds)
    (h : IsForest above ts) : IsForest above (plant (.file path) ds ts) := by
  induction ds generalizing above ts with
  | nil =>
    have hfile : IsPlaced above (.file path) := .file hne hway
    refine ⟨fun t ht => ?_, ?_⟩
    · rcases List.mem_append.mp ht with ht | ht
      · exact h.placed t ht
      · obtain rfl := List.mem_singleton.mp ht
        exact hfile
    · rw [Tree.plant, directoryPaths_append, directoryPaths_cons_of_file rfl]
      simpa [directoryPaths] using h.nodup
  | cons d ds ih =>
    obtain ⟨hdir, hname, habove, hway⟩ := hway
    rw [Tree.plant, hname]
    exact h.plantIn (fun cs hcs => ⟨ih hway hcs, leavesOf_plant_ne_nil path ds cs⟩) hdir habove

/-- Files that are planted one after another make a forest below the root. -/
theorem IsForest.foldl_plant {paths : List String} (hne : ∀ p ∈ paths, p ≠ "")
    (h : IsForest "" ts) :
    IsForest "" (paths.foldl (fun ts p => Tree.plant (.file p) (directories p) ts) ts) := by
  induction paths generalizing ts with
  | nil => exact h
  | cons p paths ih =>
    obtain ⟨hp, hpaths⟩ := List.forall_mem_cons.mp hne
    exact ih hpaths (h.plant hp (isWay_directories p))

/-- The tree of a snapshot is a forest below the root. -/
theorem isForest_ofPaths (paths : List String) : IsForest "" (ofPaths paths).children :=
  (isForest_nil "").foldl_plant fun _ hp => (mem_distinctPaths.mp hp).2

/-! ## What is below what -/

/-- Every node of a placed tree is placed below some directory. -/
theorem IsPlaced.exists_of_mem_nodes (h : IsPlaced above t) :
    ∀ u ∈ nodes t, ∃ dir, IsPlaced dir u := by
  induction h with
  | file hne habove =>
    intro u hu
    obtain rfl := List.mem_singleton.mp hu
    exact ⟨_, .file hne habove⟩
  | directory hne habove hleaves hnodup h ih =>
    intro u hu
    rw [nodes_eq_cons, List.mem_cons] at hu
    rcases hu with rfl | hu
    · exact ⟨_, .directory hne habove hleaves hnodup h⟩
    · obtain ⟨t, ht, hu⟩ := mem_nodesOf.mp hu
      exact ih t ht u hu

/-- Every node of a forest is placed below some directory. -/
theorem IsForest.exists_of_mem_nodesOf (h : IsForest above ts) :
    ∀ u ∈ nodesOf ts, ∃ dir, IsPlaced dir u := by
  intro u hu
  obtain ⟨t, ht, hu⟩ := mem_nodesOf.mp hu
  exact (h.placed t ht).exists_of_mem_nodes u hu

/-- A placed node lists others only if it is a directory, and they are placed below it. -/
theorem IsPlaced.of_mem_children (h : IsPlaced above t) (hu : u ∈ t.children) :
    t.label.kind = .dir ∧ IsPlaced t.label.path u := by
  cases h with
  | file => cases hu
  | directory hne habove hleaves hnodup h => exact ⟨rfl, h u hu⟩

/-- A node of a placed tree is its root, or one of the nodes lists it. -/
theorem IsPlaced.exists_mem_children (h : IsPlaced above t) :
    ∀ u ∈ nodes t, u = t ∨ ∃ d ∈ nodes t, u ∈ d.children := by
  induction h with
  | file =>
    intro u hu
    exact .inl (List.mem_singleton.mp hu)
  | directory hne habove hleaves hnodup h ih =>
    intro u hu
    rw [nodes_eq_cons] at hu ⊢
    rcases List.mem_cons.mp hu with rfl | hu
    · exact .inl rfl
    · obtain ⟨t, ht, hu⟩ := mem_nodesOf.mp hu
      rcases ih t ht u hu with rfl | ⟨d, hd, hmem⟩
      · exact .inr ⟨_, List.mem_cons_self, ht⟩
      · exact .inr ⟨d, List.mem_cons_of_mem _ (mem_nodesOf.mpr ⟨t, ht, hd⟩), hmem⟩

/-- What a placed tree has below its root has paths below the root's. -/
theorem IsPlaced.isBelow_of_mem_nodesOf (h : IsPlaced above t) :
    ∀ u ∈ nodesOf t.children, IsBelow t.label.path u.label.path := by
  induction h with
  | file => exact nofun
  | directory hne habove hleaves hnodup h ih =>
    intro u hu
    obtain ⟨t, ht, hu⟩ := mem_nodesOf.mp hu
    have htop := isBelow_of_parent_eq hne (h t ht).label.1
    rw [nodes_eq_cons] at hu
    rcases List.mem_cons.mp hu with rfl | hu
    · exact htop
    · exact htop.trans (ih t ht u hu)

/-- The leaves of a placed tree lie below the directory below which it is placed, unless that is the
root. -/
theorem IsPlaced.isBelow_of_mem_leaves (h : IsPlaced above t) (hne : above ≠ "") :
    ∀ l ∈ leaves t, IsBelow above l.path := by
  induction h with
  | file hpath habove =>
    intro l hl
    rw [leaves_file, List.mem_singleton] at hl
    rw [hl]
    exact isBelow_of_parent_eq hne habove
  | directory hpath habove hleaves hnodup h ih =>
    intro l hl
    rw [leaves_directory] at hl
    obtain ⟨t, ht, hl⟩ := mem_leavesOf.mp hl
    exact (isBelow_of_parent_eq hne habove).trans (ih t ht hpath l hl)

/-- Some leaf of a placed tree is there. -/
theorem IsPlaced.leaves_ne_nil (h : IsPlaced above t) : leaves t ≠ [] := by
  cases h with
  | file =>
    rw [leaves_file]
    exact List.cons_ne_nil _ _
  | directory hne habove hleaves =>
    rw [leaves_directory]
    exact hleaves

/-- A directory above a leaf of a placed tree is in the tree, or is the one below which the tree is
placed, or is above that. -/
theorem IsPlaced.mem_directoryPaths_of_isBelow {dir : String} (h : IsPlaced above t) :
    ∀ l ∈ leaves t, IsBelow dir l.path →
      dir ∈ directoryPaths (nodes t) ∨ dir = above ∨ IsBelow dir above := by
  induction h with
  | file hpath habove =>
    intro l hl hbelow
    rw [leaves_file, List.mem_singleton] at hl
    rw [hl, isBelow_iff_parent, habove] at hbelow
    exact .inr hbelow.2
  | directory hpath habove hleaves hnodup h ih =>
    intro l hl hbelow
    rw [leaves_directory] at hl
    obtain ⟨t, ht, hl⟩ := mem_leavesOf.mp hl
    rw [nodes_eq_cons, directoryPaths_cons_of_dir rfl, List.mem_cons]
    rcases ih t ht l hl hbelow with hmem | heq | hbetween
    · obtain ⟨d, hd, hkind⟩ := mem_directoryPaths.mp hmem
      exact .inl (.inr (mem_directoryPaths.mpr ⟨d, mem_nodesOf.mpr ⟨t, ht, hd⟩, hkind⟩))
    · exact .inl (.inl heq)
    · rw [isBelow_iff_parent, habove] at hbetween
      exact .inr hbetween.2

/-- A leaf lies below every directory of a placed tree. -/
theorem IsPlaced.exists_leaf_isBelow {dir : String} (h : IsPlaced above t) :
    dir ∈ directoryPaths (nodes t) → ∃ l ∈ leaves t, IsBelow dir l.path := by
  induction h with
  | file =>
    intro hdir
    rw [nodes_eq_cons, directoryPaths_cons_of_file rfl] at hdir
    cases hdir
  | directory hne habove hleaves hnodup h ih =>
    intro hdir
    rw [leaves_directory]
    rw [nodes_eq_cons, directoryPaths_cons_of_dir rfl, List.mem_cons] at hdir
    rcases hdir with rfl | hdir
    · obtain ⟨l, hl⟩ := List.exists_mem_of_ne_nil _ hleaves
      obtain ⟨t, ht, hmem⟩ := mem_leavesOf.mp hl
      exact ⟨l, hl, (h t ht).isBelow_of_mem_leaves hne l hmem⟩
    · obtain ⟨d, hd, hkind⟩ := mem_directoryPaths.mp hdir
      obtain ⟨t, ht, hd⟩ := mem_nodesOf.mp hd
      obtain ⟨l, hl, hbelow⟩ := ih t ht (mem_directoryPaths.mpr ⟨d, hd, hkind⟩)
      exact ⟨l, mem_leavesOf.mpr ⟨t, ht, hl⟩, hbelow⟩

/-- Below the root the directories of a forest are those above its leaves, but for the root. -/
theorem IsForest.mem_directoryPaths_nodesOf_iff {dir : String} (h : IsForest "" ts) :
    dir = "" ∨ dir ∈ directoryPaths (nodesOf ts) ↔
      dir = "" ∨ ∃ l ∈ leavesOf ts, IsBelow dir l.path := by
  constructor
  · rintro (rfl | hmem)
    · exact .inl rfl
    · obtain ⟨d, hd, hkind⟩ := mem_directoryPaths.mp hmem
      obtain ⟨t, ht, hd⟩ := mem_nodesOf.mp hd
      obtain ⟨l, hl, hbelow⟩ := (h.placed t ht).exists_leaf_isBelow
        (mem_directoryPaths.mpr ⟨d, hd, hkind⟩)
      exact .inr ⟨l, mem_leavesOf.mpr ⟨t, ht, hl⟩, hbelow⟩
  · rintro (rfl | ⟨l, hl, hbelow⟩)
    · exact .inl rfl
    · obtain ⟨t, ht, hl⟩ := mem_leavesOf.mp hl
      rcases (h.placed t ht).mem_directoryPaths_of_isBelow l hl hbelow with hmem | rfl | hroot
      · obtain ⟨d, hd, hkind⟩ := mem_directoryPaths.mp hmem
        exact .inr (mem_directoryPaths.mpr ⟨d, mem_nodesOf.mpr ⟨t, ht, hd⟩, hkind⟩)
      · exact .inl rfl
      · exact absurd rfl hroot.ne_empty

/-! ## Each directory is there once -/

/-- Two trees below one directory have a directory in common only if they are directories with one
path. -/
theorem IsPlaced.label_eq_of_mem_directoryPaths {dir : String} (ht : IsPlaced above t)
    (hu : IsPlaced above u) (hdir : dir ∈ directoryPaths (nodes t))
    (hdir' : dir ∈ directoryPaths (nodes u)) :
    t.label.kind = .dir ∧ u.label.kind = .dir ∧ t.label.path = u.label.path := by
  -- The directory is the tree itself, or is below it.
  have hwhere {v : Tree} (hv : IsPlaced above v) (hmem : dir ∈ directoryPaths (nodes v)) :
      v.label.kind = .dir ∧ (v.label.path = dir ∨ IsBelow v.label.path dir) := by
    obtain ⟨d, hd, hkind, rfl⟩ := mem_directoryPaths.mp hmem
    rw [nodes_eq_cons] at hd
    rcases List.mem_cons.mp hd with rfl | hd
    · exact ⟨hkind, .inl rfl⟩
    · obtain ⟨c, hc, -⟩ := mem_nodesOf.mp hd
      exact ⟨(hv.of_mem_children hc).1, .inr (hv.isBelow_of_mem_nodesOf d hd)⟩
  obtain ⟨htkind, htwhere⟩ := hwhere ht hdir
  obtain ⟨hukind, huwhere⟩ := hwhere hu hdir'
  obtain ⟨htparent, -, htne⟩ := ht.label
  obtain ⟨huparent, -, hune⟩ := hu.label
  -- Neither tree is below the other, since they have one parent.
  have htu := not_isBelow_of_parent_eq htne (htparent.trans huparent.symm)
  have hut := not_isBelow_of_parent_eq hune (huparent.trans htparent.symm)
  refine ⟨htkind, hukind, ?_⟩
  rcases htwhere with rfl | htbelow
  · rcases huwhere with heq | hubelow
    · exact heq.symm
    · exact absurd hubelow hut
  · rcases huwhere with rfl | hubelow
    · exact absurd htbelow htu
    · rcases htbelow.total hubelow with heq | hbelow | hbelow
      · exact heq
      · exact absurd hbelow htu
      · exact absurd hbelow hut

/-- In a forest no directory is there twice, if none is in any of its trees. -/
theorem IsForest.nodup_directoryPaths_nodesOf (h : IsForest above ts)
    (hnodup : ∀ t ∈ ts, (directoryPaths (nodes t)).Nodup) :
    (directoryPaths (nodesOf ts)).Nodup := by
  induction ts with
  | nil => exact .nil
  | cons t ts ih =>
    obtain ⟨ht, hts, hnew⟩ := isForest_cons_iff.mp h
    obtain ⟨htnodup, htsnodup⟩ := List.forall_mem_cons.mp hnodup
    rw [nodesOf, directoryPaths_append]
    refine List.nodup_append.mpr ⟨htnodup, ih hts htsnodup, ?_⟩
    rintro dir hdir _ hdir' rfl
    obtain ⟨d, hd, hkind⟩ := mem_directoryPaths.mp hdir'
    obtain ⟨u, hu, hd⟩ := mem_nodesOf.mp hd
    obtain ⟨htkind, hukind, heq⟩ := ht.label_eq_of_mem_directoryPaths (hts.placed u hu) hdir
      (mem_directoryPaths.mpr ⟨d, hd, hkind⟩)
    exact hnew htkind (mem_directoryPaths.mpr ⟨u, hu, hukind, heq.symm⟩)

/-- In a placed tree no directory is there twice. -/
theorem IsPlaced.nodup_directoryPaths (h : IsPlaced above t) :
    (directoryPaths (nodes t)).Nodup := by
  induction h with
  | file =>
    rw [nodes_eq_cons, directoryPaths_cons_of_file rfl]
    exact .nil
  | directory hne habove hleaves hnodup h ih =>
    rw [nodes_eq_cons, directoryPaths_cons_of_dir rfl]
    have hplaced := IsPlaced.directory hne habove hleaves hnodup h
    have hforest := IsForest.nodup_directoryPaths_nodesOf ⟨h, hnodup⟩ ih
    refine List.nodup_cons.mpr ⟨fun hmem => ?_, hforest⟩
    obtain ⟨d, hd, -, hpath⟩ := mem_directoryPaths.mp hmem
    have hbelow := hplaced.isBelow_of_mem_nodesOf d hd
    rw [hpath] at hbelow
    exact not_isBelow_self _ hbelow

/-! ## The tree of a snapshot -/

/-- The tree nests the paths of a snapshot into directories. -/
structure IsHierarchy (paths : List String) (t : Tree) : Prop where
  /-- The root is a directory with the empty path. -/
  root : t.label = ⟨"/", "", .dir, none⟩
  /-- No two directories have one path. -/
  nodup : (directoryPaths t.nodes).Nodup
  /-- There is a directory for the root, and one for what stands before a slash of a path. -/
  mem_directoryPaths : ∀ dir, dir ∈ directoryPaths t.nodes ↔ dir = "" ∨ ∃ p ∈ paths, IsBelow dir p
  /-- Every other node than the root is listed by one. -/
  listed : ∀ u ∈ nodesOf t.children, ∃ d ∈ t.nodes, u ∈ d.children
  /-- Whatever lists a node is a directory, and the parent of the node by its path; the node is
  named by the last segment. -/
  parent : ∀ d ∈ t.nodes, ∀ u ∈ d.children,
    d.label.kind = .dir ∧ d.label.path = Path.parent u.label.path ∧
      u.label.name = base u.label.path
  /-- There is a file below every other directory than the root. -/
  leaf : ∀ d ∈ nodesOf t.children, d.label.kind = .dir → d.leaves ≠ []
  /-- A directory has a list of children, and no language. -/
  directory : ∀ d ∈ t.nodes, d.label.kind = .dir →
    ∃ l cs, d = branch l cs ∧ l.language = none
  /-- A file has no list of children, and the language of its path. -/
  file : ∀ f ∈ t.nodes, f.label.kind = .file → ∃ l, f = bare l ∧ l.language = language? l.path

/-- A directory has a list of children and no language, a file has none and the language of its
path. -/
theorem IsPlaced.form (h : IsPlaced above t) :
    (t.label.kind = .dir → ∃ l cs, t = branch l cs ∧ l.language = none) ∧
      (t.label.kind = .file → ∃ l, t = bare l ∧ l.language = language? l.path) := by
  cases h with
  | @file _ path =>
    refine ⟨nofun, fun _ => ⟨⟨base path, path, .file, language? (base path)⟩, rfl, ?_⟩⟩
    dsimp only
    exact language?_base path
  | @directory _ path cs =>
    exact ⟨fun _ => ⟨⟨base path, path, .dir, none⟩, cs, rfl, rfl⟩, nofun⟩

/-- The nodes of the tree of a snapshot are the root and those below it. -/
theorem mem_nodes_ofPaths {paths : List String} :
    u ∈ nodes (ofPaths paths) ↔ u = ofPaths paths ∨ u ∈ nodesOf (ofPaths paths).children := by
  rw [nodes_eq_cons, List.mem_cons]

/-- The leaves below the root of the tree of a snapshot have the paths of the files. -/
theorem exists_mem_leavesOf_ofPaths_iff {paths : List String} :
    (∃ l ∈ leavesOf (ofPaths paths).children, l.path = path) ↔ path ∈ paths ∧ path ≠ "" := by
  rw [← mem_distinctPaths, ← (leaves_ofPaths_perm paths).mem_iff, List.mem_map]
  rfl

/-- The directories in the tree of a snapshot are the root and those above its files. -/
theorem mem_directoryPaths_ofPaths_iff {paths : List String} {dir : String} :
    dir ∈ directoryPaths (nodes (ofPaths paths)) ↔
      dir = "" ∨ ∃ p ∈ paths, IsBelow dir p := by
  rw [nodes_eq_cons, directoryPaths_cons_of_dir rfl, List.mem_cons]
  refine (isForest_ofPaths paths).mem_directoryPaths_nodesOf_iff.trans (or_congr_right ?_)
  constructor
  · rintro ⟨l, hl, hbelow⟩
    exact ⟨l.path, (exists_mem_leavesOf_ofPaths_iff.mp ⟨l, hl, rfl⟩).1, hbelow⟩
  · rintro ⟨p, hp, hbelow⟩
    obtain ⟨l, hl, rfl⟩ := exists_mem_leavesOf_ofPaths_iff.mpr ⟨hp, hbelow.ne_empty⟩
    exact ⟨l, hl, hbelow⟩

/-- In the tree of a snapshot no directory is there twice. -/
theorem nodup_directoryPaths_ofPaths (paths : List String) :
    (directoryPaths (nodes (ofPaths paths))).Nodup := by
  have hforest := isForest_ofPaths paths
  rw [nodes_eq_cons, directoryPaths_cons_of_dir rfl]
  refine List.nodup_cons.mpr ⟨fun hmem => ?_, ?_⟩
  · obtain ⟨d, hd, -, hpath⟩ := mem_directoryPaths.mp hmem
    obtain ⟨dir, hdir⟩ := hforest.exists_of_mem_nodesOf d hd
    exact hdir.label.2.2 hpath
  · exact hforest.nodup_directoryPaths_nodesOf fun t ht =>
      (hforest.placed t ht).nodup_directoryPaths

/-- A leaf of a placed tree is the file with its path. -/
theorem IsPlaced.file_mem_nodes (h : IsPlaced above t) :
    ∀ l ∈ leaves t, Tree.file l.path ∈ nodes t := by
  induction h with
  | file hne habove =>
    intro l hl
    rw [leaves_file, List.mem_singleton] at hl
    rw [hl, nodes_eq_cons]
    exact List.mem_cons_self
  | directory hne habove hleaves hnodup h ih =>
    intro l hl
    rw [leaves_directory] at hl
    obtain ⟨t, ht, hl⟩ := mem_leavesOf.mp hl
    rw [nodes_eq_cons]
    exact List.mem_cons_of_mem _ (mem_nodesOf.mpr ⟨t, ht, ih t ht l hl⟩)

/-- The tree of a snapshot has the files of the snapshot. -/
theorem file_mem_nodes_ofPaths {paths : List String} (h : path ∈ paths) (hne : path ≠ "") :
    Tree.file path ∈ nodes (ofPaths paths) := by
  obtain ⟨l, hl, rfl⟩ := exists_mem_leavesOf_ofPaths_iff.mpr ⟨h, hne⟩
  obtain ⟨t, ht, hl⟩ := mem_leavesOf.mp hl
  have hfile := ((isForest_ofPaths paths).placed t ht).file_mem_nodes l hl
  exact mem_nodes_ofPaths.mpr (.inr (mem_nodesOf.mpr ⟨t, ht, hfile⟩))

/-- A directory in the tree of a snapshot is the root, or has a file of the snapshot below it and
the name of the last segment of its path. -/
theorem root_or_isBelow_of_mem_nodes_ofPaths {paths : List String}
    (h : t ∈ nodes (ofPaths paths)) (hkind : t.label.kind = .dir) :
    t = ofPaths paths ∨
      t.label.name = base t.label.path ∧ ∃ p ∈ paths, IsBelow t.label.path p := by
  rcases mem_nodes_ofPaths.mp h with rfl | hbelow
  · exact .inl rfl
  · obtain ⟨dir, hdir⟩ := (isForest_ofPaths paths).exists_of_mem_nodesOf t hbelow
    obtain ⟨-, hname, hne⟩ := hdir.label
    have hmem := mem_directoryPaths_ofPaths_iff.mp (mem_directoryPaths.mpr ⟨t, h, hkind, rfl⟩)
    exact .inr ⟨hname, hmem.resolve_left hne⟩

/-- `Tree.ofPaths` of a list of paths has `IsHierarchy`: it nests the paths into directories, each
of which is there once. -/
theorem ofPaths_isHierarchy (paths : List String) : IsHierarchy paths (ofPaths paths) := by
  have hforest := isForest_ofPaths paths
  have hplaced := hforest.exists_of_mem_nodesOf
  exact {
    root := rfl
    nodup := nodup_directoryPaths_ofPaths paths
    mem_directoryPaths := fun dir => mem_directoryPaths_ofPaths_iff
    listed := fun u hu => by
      obtain ⟨t, ht, hu⟩ := mem_nodesOf.mp hu
      rcases (hforest.placed t ht).exists_mem_children u hu with rfl | ⟨d, hd, hmem⟩
      · exact ⟨_, mem_nodes_ofPaths.mpr (.inl rfl), ht⟩
      · exact ⟨d, mem_nodes_ofPaths.mpr (.inr (mem_nodesOf.mpr ⟨t, ht, hd⟩)), hmem⟩
    parent := fun d hd u hu => by
      rcases mem_nodes_ofPaths.mp hd with rfl | hd
      · obtain ⟨hparent, hname, -⟩ := (hforest.placed u hu).label
        exact ⟨rfl, hparent.symm, hname⟩
      · obtain ⟨dir, hdir⟩ := hplaced d hd
        obtain ⟨hkind, hchild⟩ := hdir.of_mem_children hu
        obtain ⟨hparent, hname, -⟩ := hchild.label
        exact ⟨hkind, hparent.symm, hname⟩
    leaf := fun d hd _ => by
      obtain ⟨dir, hdir⟩ := hplaced d hd
      exact hdir.leaves_ne_nil
    directory := fun d hd hkind => by
      rcases mem_nodes_ofPaths.mp hd with rfl | hd
      · exact ⟨_, _, rfl, rfl⟩
      · obtain ⟨dir, hdir⟩ := hplaced d hd
        exact hdir.form.1 hkind
    file := fun f hf hkind => by
      rcases mem_nodes_ofPaths.mp hf with rfl | hf
      · cases hkind
      · obtain ⟨dir, hdir⟩ := hplaced f hf
        exact hdir.form.2 hkind }

end RepoGraph.Tree
