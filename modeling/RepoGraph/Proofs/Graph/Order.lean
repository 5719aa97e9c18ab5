import RepoGraph.Explain.Prompt
import RepoGraph.Proofs.Explain.Summary
import RepoGraph.Proofs.Graph.Edge
import RepoGraph.Proofs.Table

/-!
# The order of the files in a snapshot

Files with distinct paths may be listed in any order: `Artifact.ofFiles_perm` compares the artifacts
of the same files in two orders. The tree and the roles are the same, and so is what is said in
summary. The nodes and the edges are listed in another order, but the edges of one file stay as they
were among themselves: where paths are distinct no two files have an edge in common, so that the
edges of a snapshot are those of one file after another (`Edge.ofFiles_eq_flatMap`).
-/

namespace RepoGraph

variable {files others : List FileRecord}

/-- What a specifier means depends on what paths are known, and not on their order. -/
theorem Specifier.resolve_congr {known others : List String}
    (h : ∀ path, path ∈ known ↔ path ∈ others) (specifier source : String) :
    resolve specifier source known = resolve specifier source others := by
  have hcontains : known.contains = others.contains := by
    funext path
    rw [Bool.eq_iff_iff, List.contains_iff_mem, List.contains_iff_mem, h]
  rw [resolve, resolve, hcontains]

/-- The tree of a snapshot depends on what paths there are, and not on their order. -/
theorem Tree.ofPaths_congr {paths others : List String} (h : ∀ path, path ∈ paths ↔ path ∈ others) :
    ofPaths paths = ofPaths others := by
  have hpaths : distinctPaths paths = distinctPaths others :=
    Names.sorted_congr fun path => by rw [List.mem_filter, List.mem_filter, h]
  rw [ofPaths, ofPaths, hpaths]

/-- Where paths are distinct the file with a path is the same in any order. -/
theorem filter_path_eq_of_perm (hperm : files.Perm others) (h : (files.map (·.path)).Nodup)
    (path : String) : files.filter (·.path == path) = others.filter (·.path == path) := by
  have hfilter : (files.filter (·.path == path)).Perm (others.filter (·.path == path)) :=
    hperm.filter _
  have hpath : ∀ f ∈ files.filter (·.path == path), f.path = path := fun f hf =>
    beq_iff_eq.mp (List.mem_filter.mp hf).2
  have hdistinct : ((files.filter (·.path == path)).map (·.path)).Nodup :=
    h.sublist (List.filter_sublist.map _)
  -- There is one such file at most.
  cases hfiles : files.filter (·.path == path) with
  | nil =>
    rw [hfiles] at hfilter
    exact hfilter.nil_eq
  | cons f rest =>
    cases rest with
    | nil =>
      rw [hfiles] at hfilter
      exact (List.perm_singleton.mp hfilter.symm).symm
    | cons g rest =>
      rw [hfiles] at hpath hdistinct
      have heq : f.path = g.path := (hpath f (by simp)).trans (hpath g (by simp)).symm
      simp [heq] at hdistinct

namespace Edge

/-- The edges of a file depend on what paths are known, and not on their order. -/
theorem ofFile_congr {known others : List String} (h : ∀ path, path ∈ known ↔ path ∈ others)
    (f : FileRecord) : ofFile known f = ofFile others f := by
  have hreference : ofReference? known f.path = ofReference? others f.path := by
    funext r
    unfold ofReference?
    rw [Specifier.resolve_congr h]
  rw [ofFile, ofFile, hreference]

/-- Where paths are distinct the edges of a snapshot are those of one file after another, and of
each file the first ones to each other file. -/
theorem ofFiles_eq_flatMap (h : (files.map (·.path)).Nodup) :
    ofFiles files = files.flatMap fun f => keepFirst [] (ofFile (files.map (·.path)) f) := by
  have hdisjoint : files.Pairwise fun f g => ∀ e ∈ ofFile (files.map (·.path)) f,
      ∀ e' ∈ ofFile (files.map (·.path)) g, e.ends ≠ e'.ends := by
    refine (List.pairwise_map.mp h).imp fun hne e he e' he' hends => hne ?_
    rw [← (ends_of_mem_ofFile he).1, ← (ends_of_mem_ofFile he').1]
    exact congrArg Prod.fst hends
  rw [ofFiles, keepFirst_eq, keepFirstBy_flatMap hdisjoint]
  simp only [keepFirst_eq]

/-- Of the edges of several files those that begin at a path are the edges of the files with it. -/
theorem filter_source_flatMap (known : List String) (files : List FileRecord) (source : String) :
    (files.flatMap fun f => keepFirst [] (ofFile known f)).filter (·.source == source) =
      (files.filter (·.path == source)).flatMap fun f => keepFirst [] (ofFile known f) := by
  have hsource (f : FileRecord) : ∀ e ∈ keepFirst [] (ofFile known f), e.source = f.path :=
    fun _ he => (ends_of_mem_ofFile (mem_of_mem_keepFirst he)).1
  induction files with
  | nil => rfl
  | cons f files ih =>
    rw [List.flatMap_cons, List.filter_append, ih]
    by_cases hpath : f.path = source
    · rw [List.filter_cons_of_pos (by simp [hpath]), List.flatMap_cons,
        List.filter_eq_self.mpr fun e he => by simp [hsource f e he, hpath]]
    · rw [List.filter_cons_of_neg (by simp [hpath]),
        List.filter_eq_nil_iff.mpr fun e he => by simp [hsource f e he, hpath], List.nil_append]

/-- The edges of the files in another order are those of one file after another in that order. -/
theorem ofFiles_eq_flatMap_of_perm (hperm : files.Perm others) (h : (files.map (·.path)).Nodup) :
    ofFiles others = others.flatMap fun f => keepFirst [] (ofFile (files.map (·.path)) f) := by
  have hknown : ∀ path, path ∈ others.map (·.path) ↔ path ∈ files.map (·.path) := fun _ =>
    (hperm.map (·.path)).mem_iff.symm
  have hothers := ofFiles_eq_flatMap ((hperm.map (·.path)).nodup_iff.mp h)
  simp only [ofFile_congr hknown] at hothers
  exact hothers

/-- The edges of the same files in two orders are the same up to order. -/
theorem perm_ofFiles (hperm : files.Perm others) (h : (files.map (·.path)).Nodup) :
    (ofFiles files).Perm (ofFiles others) := by
  rw [ofFiles_eq_flatMap h, ofFiles_eq_flatMap_of_perm hperm h]
  exact hperm.flatMap_right _

/-- The edges that begin at one file come in the same order for two orders of the files. -/
theorem filter_source_ofFiles (hperm : files.Perm others) (h : (files.map (·.path)).Nodup)
    (source : String) :
    (ofFiles files).filter (·.source == source) =
      (ofFiles others).filter (·.source == source) := by
  rw [ofFiles_eq_flatMap h, ofFiles_eq_flatMap_of_perm hperm h, filter_source_flatMap,
    filter_source_flatMap, filter_path_eq_of_perm hperm h]

end Edge

namespace Artifact

/-- Where paths are distinct the roles are those of one file after another. -/
theorem entries_roles_ofFiles (h : (files.map (·.path)).Nodup) :
    (ofFiles files).roles.entries = files.map fun f => (f.path, Path.role f.path) :=
  Table.entries_ofList (by simpa [Function.comp_def] using h)

/-- The artifacts of the same files with distinct paths in two orders have the same tree and the
same roles. Their nodes and edges differ in order only, and the edges of any one file are in the
same order. Summaries of them are the same, and so is what is asked about the repository. -/
theorem ofFiles_perm (hperm : files.Perm others) (h : (files.map (·.path)).Nodup) :
    (ofFiles files).tree = (ofFiles others).tree ∧
      (ofFiles files).roles.agrees (ofFiles others).roles = true ∧
      (ofFiles files).nodes.Perm (ofFiles others).nodes ∧
      (ofFiles files).edges.Perm (ofFiles others).edges ∧
      (∀ source, (ofFiles files).edges.filter (·.source == source) =
        (ofFiles others).edges.filter (·.source == source)) ∧
      ∀ top, Summary.ofArtifact (ofFiles files) top = Summary.ofArtifact (ofFiles others) top ∧
        ∀ fullName, Prompt.ofRepository (Summary.ofArtifact (ofFiles files) top) fullName =
          Prompt.ofRepository (Summary.ofArtifact (ofFiles others) top) fullName := by
  have htree : (ofFiles files).tree = (ofFiles others).tree :=
    Tree.ofPaths_congr fun _ => (hperm.map (·.path)).mem_iff
  have hnodes : (ofFiles files).nodes.Perm (ofFiles others).nodes := hperm.map Node.ofFile
  have hedges : (ofFiles files).edges.Perm (ofFiles others).edges := Edge.perm_ofFiles hperm h
  have hroles : (ofFiles files).roles.entries.Perm (ofFiles others).roles.entries := by
    rw [entries_roles_ofFiles h, entries_roles_ofFiles ((hperm.map (·.path)).nodup_iff.mp h)]
    exact hperm.map _
  have hsummary (top : Int) :
      Summary.ofArtifact (ofFiles files) top = Summary.ofArtifact (ofFiles others) top :=
    Summary.ofArtifact_eq_of_perm hnodes hedges hroles top
  exact ⟨htree, Table.agrees_iff_perm.mpr hroles, hnodes, hedges,
    Edge.filter_source_ofFiles hperm h, fun top =>
    ⟨hsummary top, fun fullName => by rw [hsummary top]⟩⟩

/-- Three files, two of which refer to others, are listed in two orders. -/
theorem ofFiles_perm_of_three_files :
    let page : FileRecord :=
      ⟨"app/page.tsx", some "import a from './b'\nimport b from '@/lib/c'\n", some 44⟩
    let part : FileRecord := ⟨"app/b.ts", some "export * from '../lib/c'\n", some 26⟩
    let lib : FileRecord := ⟨"lib/c.ts", none, none⟩
    let files := [page, part, lib]
    let others := [lib, part, page]
    let a := ofFiles files
    let b := ofFiles others
    a.edges.map Edge.ends = [("app/page.tsx", "app/b.ts"), ("app/page.tsx", "lib/c.ts"),
        ("app/b.ts", "lib/c.ts")] ∧
      b.edges.map Edge.ends = [("app/b.ts", "lib/c.ts"), ("app/page.tsx", "app/b.ts"),
        ("app/page.tsx", "lib/c.ts")] ∧
      files.Perm others ∧ (files.map (·.path)).Nodup ∧
      a.tree = b.tree ∧ a.roles.agrees b.roles = true ∧ a.nodes.Perm b.nodes ∧
      a.edges.Perm b.edges ∧
      (∀ source, a.edges.filter (·.source == source) = b.edges.filter (·.source == source)) ∧
      ∀ top, Summary.ofArtifact a top = Summary.ofArtifact b top ∧
        ∀ fullName, Prompt.ofRepository (Summary.ofArtifact a top) fullName =
          Prompt.ofRepository (Summary.ofArtifact b top) fullName := by
  intro page part lib files others a b
  have hperm : files.Perm others := by decide
  have hpaths : (files.map (·.path)).Nodup := by decide
  exact ⟨by decide +kernel, by decide +kernel, hperm, hpaths, ofFiles_perm hperm hpaths⟩

end Artifact

end RepoGraph
