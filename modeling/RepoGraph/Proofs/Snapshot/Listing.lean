import RepoGraph.Proofs.Document
import RepoGraph.Proofs.Graph.Hierarchy
import RepoGraph.Proofs.Path.Selection
import RepoGraph.Proofs.Snapshot.Replies

/-!
# The files of a snapshot

The list of a server may hold items of any shape. Those that stand for a file that may belong to a
snapshot are listed in their order (`IsListing`), and the others are left out. A snapshot is the
start of what is listed (`IsStart`). Its tree has a node for each of its files, whatever the file is
called, but no directory that is never looked into: such a directory would lie above a file that was
listed (`list_isListing`).
-/

namespace RepoGraph.GitHub

/-! ## Items -/

/-- The item is told to stand for a file at a path, not the empty one, that lies in no directory
that is never looked into, and for a size, if it is a number. -/
structure IsListed (item : Json) (e : TreeEntry) : Prop where
  type : item.get? "type" = some (.str "blob")
  path : item.get? "path" = some (.str e.path)
  ne_empty : e.path ≠ ""
  outside : ¬Path.LiesInExcluded e.path
  size : e.size = (item.get? "size").bind sizeOf?

/-- The files stand for the items that stand for files, in their order. -/
inductive IsListing : List Json → List TreeEntry → Prop
  | nil : IsListing [] []
  | file {item : Json} {e : TreeEntry} {items : List Json} {es : List TreeEntry} :
      IsListed item e → IsListing items es → IsListing (item :: items) (e :: es)
  | other {item : Json} {items : List Json} {es : List TreeEntry} :
      (∀ e, ¬IsListed item e) → IsListing items es → IsListing (item :: items) es

/-- The file that an item stands for is the one that is read of it. -/
theorem entryOf?_eq_some_iff {item : Json} {e : TreeEntry} :
    entryOf? item = some e ↔ IsListed item e := by
  unfold entryOf?
  constructor
  · intro h
    split at h
    · rename_i path htype hpath
      split at h
      · rename_i hselectable
        cases h
        obtain ⟨hne, houtside⟩ := Path.isSelectable_iff.mp hselectable
        exact ⟨htype, hpath, hne, houtside, rfl⟩
      · cases h
    · cases h
  · rintro ⟨htype, hpath, hne, houtside, hsize⟩
    have hselectable := Path.isSelectable_iff.mpr ⟨hne, houtside⟩
    rw [htype, hpath]
    show (if Path.isSelectable e.path = true then
      some (⟨e.path, (item.get? "size").bind sizeOf?⟩ : TreeEntry) else none) = some e
    rw [if_pos hselectable, ← hsize]

/-- What is read of the items is the only listing of them. -/
theorem isListing_iff {items : List Json} {es : List TreeEntry} :
    IsListing items es ↔ es = items.filterMap entryOf? := by
  constructor
  · intro h
    induction h with
    | nil => rfl
    | file hitem _ ih => rw [List.filterMap_cons_some (entryOf?_eq_some_iff.mpr hitem), ih]
    | other hitem _ ih =>
      have hnone := Option.eq_none_iff_forall_ne_some.mpr fun e he =>
        hitem e (entryOf?_eq_some_iff.mp he)
      rw [List.filterMap_cons_none hnone, ih]
  · rintro rfl
    induction items with
    | nil => exact .nil
    | cons item items ih =>
      cases hitem : entryOf? item with
      | some e =>
        rw [List.filterMap_cons_some hitem]
        exact .file (entryOf?_eq_some_iff.mp hitem) ih
      | none =>
        rw [List.filterMap_cons_none hitem]
        refine .other (fun e he => ?_) ih
        rw [entryOf?_eq_some_iff.mpr he] at hitem
        cases hitem

/-- What is listed may belong to a snapshot. -/
theorem IsListing.isSelectable {items : List Json} {es : List TreeEntry} (h : IsListing items es) :
    ∀ e ∈ es, Path.isSelectable e.path = true := by
  induction h with
  | nil => nofun
  | file hitem _ ih =>
    exact List.forall_mem_cons.mpr ⟨Path.isSelectable_iff.mpr ⟨hitem.ne_empty, hitem.outside⟩, ih⟩
  | other _ _ ih => exact ih

/-! ## Snapshots -/

/-- The files selected are the first of those that are listed, at most so many. A negative bound
selects none. -/
structure IsStart (maxFiles : Int) (listed selected : List TreeEntry) : Prop where
  isPrefix : selected <+: listed
  length : (selected.length : Int) = min (max maxFiles 0) listed.length
  /-- Selecting again changes nothing. -/
  again : Path.select TreeEntry.path maxFiles selected = selected
  /-- No directory in the tree, at any depth, has the name of one that is never looked into. -/
  directories : ∀ t ∈ Tree.nodes (Tree.ofPaths (selected.map TreeEntry.path)),
    t.label.kind = .dir → t.label.name ∉ Path.excludedDirectories
  /-- Every file that is selected is in the tree, whatever its name. -/
  files : ∀ e ∈ selected, Tree.file e.path ∈ Tree.nodes (Tree.ofPaths (selected.map TreeEntry.path))

/-- In the tree of paths that may belong to a snapshot, no directory has the name of one that is
never looked into: a directory other than the root lies above one of the paths. -/
theorem name_notMem_of_isSelectable {paths : List String}
    (h : ∀ p ∈ paths, Path.isSelectable p = true) {t : Tree}
    (ht : t ∈ Tree.nodes (Tree.ofPaths paths)) (hkind : t.label.kind = .dir) :
    t.label.name ∉ Path.excludedDirectories := by
  rcases Tree.root_or_isBelow_of_mem_nodes_ofPaths ht hkind with rfl | ⟨hname, p, hp, hbelow⟩
  · have hroot : (Tree.ofPaths paths).label.name = "/" := rfl
    rw [hroot]
    decide
  · rw [hname]
    intro hexcluded
    exact (Path.isSelectable_iff.mp (h p hp)).2 ⟨_, hbelow, hexcluded⟩

/-- What is selected of files that may all belong to a snapshot is their start. -/
theorem isStart_select {listed : List TreeEntry}
    (h : ∀ e ∈ listed, Path.isSelectable e.path = true) (maxFiles : Int) :
    IsStart maxFiles listed (Path.select TreeEntry.path maxFiles listed) := by
  have htake := Path.select_eq_take h maxFiles
  have hpaths : ∀ p ∈ (Path.select TreeEntry.path maxFiles listed).map TreeEntry.path,
      Path.isSelectable p = true := by
    rw [htake]
    refine List.forall_mem_map.mpr fun e he => ?_
    exact h e (List.mem_of_mem_take he)
  exact {
    isPrefix := by
      rw [htake]
      exact List.take_prefix _ _
    length := by
      rw [htake, List.length_take]
      omega
    again := Path.select_select maxFiles
    directories := fun t ht hkind => name_notMem_of_isSelectable hpaths ht hkind
    files := fun e he => by
      have hmem := List.mem_map_of_mem he (f := TreeEntry.path)
      exact Tree.file_mem_nodes_ofPaths hmem (Path.isSelectable_iff.mp (hpaths _ hmem)).1 }

/-! ## Lists of a server -/

variable {σ : Type} (W : World σ) (g : GitHub) (r : Repository) (branch : String)

/-- A response with success, whose document has a list as its tree, is read as the items of that
list. -/
theorem readList_of_tree {response : Http.Response} {value : Json} {items : List Json}
    (hsuccess : response.isSuccess = true) (hjson : Document.json response.body = .ok value)
    (htree : value.get? "tree" = some (.arr items)) :
    ∃ isComplete, readList response = .ok (items, isComplete) := by
  refine ⟨!((value.get? "truncated").getD .null).truthy, ?_⟩
  unfold readList
  rw [hsuccess, hjson]
  dsimp only [bind, Except.bind]
  rw [htree]
  rfl

/-- The files of the items in a response are listed, whether or not these are all there are. -/
theorem run_list {s : σ} {response : Http.Response} {items : List Json} {isComplete : Bool}
    (hreply : (W.answer (.fetch (g.listRequest r branch)) s).1 = .ok response)
    (hread : readList response = .ok (items, isComplete)) :
    ∃ s', W.run (g.list r branch).run s = (.ok (items.filterMap entryOf?), s') := by
  unfold list
  rw [W.run_bind_eq, run_send, hreply]
  show ∃ s', W.run (Action.ofExcept (readList response) >>= _).run _ = _
  rw [hread]
  cases isComplete with
  | true => exact ⟨_, rfl⟩
  | false => exact ⟨_, rfl⟩

/-- Of any list in a response with success, the files that may belong to a snapshot are listed in
its order, and what is selected of them is their start. -/
theorem list_isListing {s : σ} {response : Http.Response} {value : Json} {items : List Json}
    (hreply : (W.answer (.fetch (g.listRequest r branch)) s).1 = .ok response)
    (hsuccess : response.isSuccess = true) (hjson : Document.json response.body = .ok value)
    (htree : value.get? "tree" = some (.arr items)) :
    ∃ listed s', W.run (g.list r branch).run s = (.ok listed, s') ∧ IsListing items listed ∧
      ∀ maxFiles, IsStart maxFiles listed (Path.select TreeEntry.path maxFiles listed) := by
  obtain ⟨isComplete, hread⟩ := readList_of_tree hsuccess hjson htree
  obtain ⟨s', hrun⟩ := run_list W g r branch hreply hread
  have hlisting := isListing_iff.mpr (Eq.refl (items.filterMap entryOf?))
  exact ⟨_, s', hrun, hlisting, fun maxFiles => isStart_select hlisting.isSelectable maxFiles⟩

/-- The document that has a list as its tree. -/
def treeDocument (items : List Json) : Json := .obj [("tree", .arr items)]

/-- The item for a file. -/
def fileItem (path : String) : Json := .obj [("type", .str "blob"), ("path", .str path)]

/-- The response with a list of items for files, and others that tell nothing, is read as its
document. -/
theorem json_treeDocument {items : List Json}
    (h : ∀ item ∈ items, item = .null ∨ ∃ path, item = fileItem path) :
    Document.json (Http.Response.ofDocument (treeDocument items)).body =
      .ok (treeDocument items) := by
  refine Document.json_ofDocument (.obj _ (by simp) fun m hm => ?_)
  rw [List.mem_singleton] at hm
  subst hm
  refine .arr _ fun item hitem => ?_
  rcases h item hitem with rfl | ⟨path, rfl⟩
  · exact .null
  · refine .obj _ (by simp) fun m hm => ?_
    simp only [List.mem_cons, List.not_mem_nil, or_false] at hm
    rcases hm with rfl | rfl
    · exact .str _
    · exact .str _

/-- An item that is no object and a file in a directory that is never looked into do not count, a
file that is called like such a directory does. -/
theorem list_isListing_build :
    let items := [fileItem "src/build", .null, fileItem "build/a.py", fileItem "b.py"]
    let W := World.online "7f" fun _ => .ok (.ofDocument (treeDocument items))
    let listed : List TreeEntry := [⟨"src/build", none⟩, ⟨"b.py", none⟩]
    (∃ s', W.run (({} : GitHub).list ⟨"acme", "demo"⟩ "main").run .empty = (.ok listed, s')) ∧
      IsListing items listed ∧ IsStart 1 listed [⟨"src/build", none⟩] ∧ IsStart (-1) listed [] := by
  intro items W listed
  have hitems : ∀ item ∈ items, item = .null ∨ ∃ path, item = fileItem path := by
    simp [items, fileItem]
  obtain ⟨found, s', hrun, hlisting, hstart⟩ :=
    list_isListing W {} ⟨"acme", "demo"⟩ "main" rfl rfl (json_treeDocument hitems) rfl
  have hfound : found = listed := (isListing_iff.mp hlisting).trans (by decide)
  subst hfound
  exact ⟨⟨s', hrun⟩, hlisting, hstart 1, hstart (-1)⟩

end RepoGraph.GitHub
