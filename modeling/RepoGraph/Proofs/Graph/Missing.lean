import RepoGraph.Graph.Artifact
import RepoGraph.Proofs.Graph.Edge

/-!
# Files whose text is missing

A text that could not be fetched costs a snapshot the edges of its own file and nothing else:
`ofFiles_withoutTexts` compares the artifact of a snapshot with that of the same files, some of them
without their text. The file stays a node, and others still refer to it.
-/

namespace RepoGraph

/-- The file without its text. -/
def FileRecord.withoutText (f : FileRecord) : FileRecord := { f with content := none }

/-- The files, those that are lost without their texts. -/
def withoutTexts (lost : FileRecord → Bool) (files : List FileRecord) : List FileRecord :=
  files.map fun f => if lost f then f.withoutText else f

variable {lost : FileRecord → Bool} {files : List FileRecord}

/-- What does not depend on the texts stays as it is. -/
theorem map_withoutTexts {α : Type} {part : FileRecord → α}
    (hpart : ∀ f, part f.withoutText = part f) :
    (withoutTexts lost files).map part = files.map part := by
  rw [withoutTexts, List.map_map]
  refine List.map_congr_left fun f _ => ?_
  show part (if lost f then f.withoutText else f) = part f
  split
  · exact hpart f
  · rfl

namespace Edge

/-- The path is that of a file that is lost. -/
def isLost (lost : FileRecord → Bool) (files : List FileRecord) (path : String) : Bool :=
  files.any fun f => lost f && f.path == path

/-- A file without text has no edges. -/
theorem ofFile_withoutText (known : List String) (f : FileRecord) :
    ofFile known f.withoutText = [] := rfl

/-- Where paths are distinct, the path of a file is lost exactly when the file is. -/
theorem isLost_path (h : (files.map (·.path)).Nodup) {f : FileRecord} (hf : f ∈ files) :
    isLost lost files f.path = lost f := by
  rw [Bool.eq_iff_iff, isLost, List.any_eq_true]
  constructor
  · rintro ⟨g, hg, hlost⟩
    rw [Bool.and_eq_true, beq_iff_eq] at hlost
    exact List.inj_on_of_nodup_map h hg hf hlost.2 ▸ hlost.1
  · exact fun hlost => ⟨f, hf, by simp [hlost]⟩

/-- The edges of a file are those of the file with its text, unless it is lost. -/
theorem ofFile_withoutTexts (h : (files.map (·.path)).Nodup) (known : List String) {f : FileRecord}
    (hf : f ∈ files) :
    ofFile known (if lost f then f.withoutText else f) =
      (ofFile known f).filter fun e => !isLost lost files e.source := by
  -- All edges of the file begin there.
  have hsource : ∀ e ∈ ofFile known f, isLost lost files e.source = lost f := fun e he => by
    rw [(ends_of_mem_ofFile he).1, isLost_path h hf]
  by_cases hlost : lost f = true
  · rw [if_pos hlost, ofFile_withoutText, eq_comm, List.filter_eq_nil_iff]
    intro e he
    simp [hsource e he, hlost]
  · rw [if_neg hlost, eq_comm, List.filter_eq_self]
    intro e he
    simp [hsource e he, hlost]

/-- The edges of the files, those that are lost without their texts, are the edges of all files but
those that begin at a lost one. -/
theorem ofFiles_withoutTexts_eq_filter (h : (files.map (·.path)).Nodup)
    (lost : FileRecord → Bool) :
    ofFiles (withoutTexts lost files) =
      (ofFiles files).filter fun e => !isLost lost files e.source := by
  have hpaths : (withoutTexts lost files).map (·.path) = files.map (·.path) :=
    map_withoutTexts fun _ => rfl
  have hedges : (withoutTexts lost files).flatMap (ofFile (files.map (·.path))) =
      (files.flatMap (ofFile (files.map (·.path)))).filter
        ((fun path => !isLost lost files path.1) ∘ ends) := by
    rw [withoutTexts, List.flatMap_map, List.filter_flatMap]
    exact List.flatMap_congr fun f hf => ofFile_withoutTexts h _ hf
  rw [ofFiles, hpaths, hedges, keepFirst_eq, keepFirstBy_filter, ← keepFirst_eq]
  rfl

end Edge

/-- In the artifact of files with distinct paths of which some are without their text the nodes, the
tree and the roles are those of all files, and the edges are in their order those that do not begin
at a file without text. -/
theorem Artifact.ofFiles_withoutTexts (files : List FileRecord)
    (h : (files.map (·.path)).Nodup) (lost : FileRecord → Bool) :
    let whole := Artifact.ofFiles files
    let degraded := Artifact.ofFiles (withoutTexts lost files)
    degraded.nodes = whole.nodes ∧ degraded.tree = whole.tree ∧ degraded.roles = whole.roles ∧
      degraded.edges = whole.edges.filter fun e => !Edge.isLost lost files e.source := by
  intro whole degraded
  refine ⟨map_withoutTexts fun _ => rfl, ?_, ?_, Edge.ofFiles_withoutTexts_eq_filter h lost⟩
  · exact congrArg Tree.ofPaths (map_withoutTexts fun _ => rfl)
  · exact congrArg Table.ofList (map_withoutTexts fun _ => rfl)

/-- One of two files that refer to each other is lost. -/
theorem Artifact.ofFiles_withoutTexts_of_two_files :
    let a : FileRecord := ⟨"src/a.ts", some "import b from './b'\n", some 20⟩
    let b : FileRecord := ⟨"src/b.ts", some "import a from './a'\n", none⟩
    let lost := fun f : FileRecord => f.path == "src/a.ts"
    let whole := Artifact.ofFiles [a, b]
    let degraded := Artifact.ofFiles [a.withoutText, b]
    ([a, b].map (·.path)).Nodup ∧
      degraded.nodes = whole.nodes ∧ degraded.tree = whole.tree ∧ degraded.roles = whole.roles ∧
      degraded.edges = whole.edges.filter fun e => !Edge.isLost lost [a, b] e.source := by
  intro a b lost whole degraded
  have hpaths : ([a, b].map (·.path)).Nodup := by decide
  exact ⟨hpaths, ofFiles_withoutTexts [a, b] hpaths lost⟩

end RepoGraph
