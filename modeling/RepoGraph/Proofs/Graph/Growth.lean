import RepoGraph.Proofs.Graph.Site

/-!
# Adding files to a snapshot

A specifier means the first of its candidates that is a path of the snapshot. Adding files can put
a candidate before the one that was found, but it cannot bring back one that was passed over
(`Specifier.resolve_append`). So a reference that led to one file leads there still, or to an added
file. `ofFiles_append` says what this means for the edges: an edge stays as it is, or the file at
which it begins has an edge to an added file; and between the files that were there no new edges
come up.
-/

namespace RepoGraph

/-- The first candidate among more names is an added one, or the one that it was. -/
theorem Specifier.find?_contains_append (candidates known added : List String) :
    (∃ name ∈ added, candidates.find? (known ++ added).contains = some name) ∨
      candidates.find? (known ++ added).contains = candidates.find? known.contains := by
  induction candidates with
  | nil => exact .inr rfl
  | cons name candidates ih =>
    by_cases hknown : name ∈ known
    · right
      rw [List.find?_cons_of_pos (by simp [hknown]), List.find?_cons_of_pos (by simp [hknown])]
    · by_cases hadded : name ∈ added
      · exact .inl ⟨name, hadded, List.find?_cons_of_pos (by simp [hadded])⟩
      · rw [List.find?_cons_of_neg (by simp [hknown, hadded]),
          List.find?_cons_of_neg (by simp [hknown])]
        exact ih

/-- Among more paths a specifier means an added one, or what it meant. -/
theorem Specifier.resolve_append (specifier source : String) (known added : List String) :
    (∃ path ∈ added, resolve specifier source (known ++ added) = some path) ∨
      resolve specifier source (known ++ added) = resolve specifier source known := by
  simp only [resolve]
  split
  · cases stem? (Text.trimmed specifier) source with
    | none => exact .inr rfl
    | some stem => exact find?_contains_append (candidates stem) known added
  · exact .inr rfl

namespace Edge

variable {files added : List FileRecord} {e : Edge}

/-! ## Edges as first references -/

/-- The references in the files of a snapshot, each with its file. -/
def references (files : List FileRecord) : List (FileRecord × Reference) :=
  files.flatMap fun f => f.references.map fun r => (f, r)

/-- The references in some files and then others. -/
theorem references_append (files added : List FileRecord) :
    references (files ++ added) = references files ++ references added :=
  List.flatMap_append

/-- A reference stands in a file of the snapshot. -/
theorem path_of_mem_references {x : FileRecord × Reference} (h : x ∈ references files) :
    x.1.path ∈ files.map (·.path) := by
  obtain ⟨f, hf, hx⟩ := List.mem_flatMap.mp h
  obtain ⟨r, -, rfl⟩ := List.mem_map.mp hx
  exact List.mem_map_of_mem hf

/-- The edges of the files one after another are those of the references. -/
theorem flatMap_ofFile (known : List String) (files : List FileRecord) :
    files.flatMap (ofFile known) =
      (references files).filterMap fun x => ofReference? known x.1.path x.2 := by
  rw [references, List.filterMap_flatMap]
  refine List.flatMap_congr fun f _ => ?_
  rw [ofFile_eq, List.filterMap_map, Function.comp_def]

/-- An edge of a snapshot is that of a reference, and no reference before it leads from the one end
to the other. -/
theorem mem_ofFiles_iff :
    e ∈ ofFiles files ↔
      ∃ before x after, references files = before ++ x :: after ∧
        ofReference? (files.map (·.path)) x.1.path x.2 = some e ∧
        ∀ y ∈ before, ∀ e', ofReference? (files.map (·.path)) y.1.path y.2 = some e' →
          e'.ends ≠ e.ends := by
  rw [ofFiles, keepFirst_eq, flatMap_ofFile, mem_keepFirstBy_filterMap_iff]

/-- Where a reference leads from one file to another there is an edge between them. -/
theorem exists_mem_ofFiles_of_reference {x : FileRecord × Reference} (hx : x ∈ references files)
    (he : ofReference? (files.map (·.path)) x.1.path x.2 = some e) :
    ∃ e' ∈ ofFiles files, e'.ends = e.ends := by
  have hmem : e ∈ files.flatMap (ofFile (files.map (·.path))) := by
    rw [flatMap_ofFile]
    exact List.mem_filterMap.mpr ⟨x, hx, he⟩
  have hends : e.ends ∈ (ofFiles files).map ends := by
    rw [ofFiles, keepFirst_eq, mem_map_keepFirstBy]
    exact ⟨List.not_mem_nil, List.mem_map_of_mem hmem⟩
  exact List.mem_map.mp hends

/-! ## More files -/

/-- Among more paths the edge of a reference leads to an added one, or there is the edge that there
was, if there was one. -/
theorem ofReference?_append (known : List String) {added : List String} {source : String}
    (r : Reference) (hsource : source ∉ added) :
    (∃ e, ofReference? (known ++ added) source r = some e ∧ e.source = source ∧ e.target ∈ added) ∨
      ofReference? (known ++ added) source r = ofReference? known source r := by
  rcases Specifier.resolve_append r.specifier source known added with
    ⟨path, hpath, hresolve⟩ | hsame
  · have hne : path ≠ source := fun heq => hsource (heq ▸ hpath)
    exact .inl ⟨between source path r.kind,
      ofReference?_eq_some_iff.mpr ⟨path, hresolve, hne, rfl⟩, rfl, hpath⟩
  · right
    unfold ofReference?
    rw [hsame]

/-- An edge stays as it is, or the file at which it begins has an edge to an added file. -/
theorem mem_or_exists_of_mem_ofFiles
    (hnew : ∀ path ∈ files.map (·.path), path ∉ added.map (·.path)) (he : e ∈ ofFiles files) :
    e ∈ ofFiles (files ++ added) ∨
      ∃ e' ∈ ofFiles (files ++ added), e'.source = e.source ∧ e'.target ∈ added.map (·.path) := by
  have htarget := hnew e.target (ends_of_mem_ofFiles he).2.1
  obtain ⟨before, x, after, hsplit, hedge, hfirst⟩ := mem_ofFiles_iff.mp he
  have hsource (y : FileRecord × Reference) (hy : y ∈ references files) :=
    ofReference?_append (files.map (·.path)) y.2 (hnew _ (path_of_mem_references hy))
  simp only [← List.map_append] at hsource
  have hx : x ∈ references files := by simp [hsplit]
  rcases hsource x hx with ⟨e', he', hsource', hadded⟩ | hsame
  · -- The reference leads to an added file now.
    right
    have hx' : x ∈ references (files ++ added) := by simp [references_append, hx]
    obtain ⟨e'', he'', hends⟩ := exists_mem_ofFiles_of_reference hx' he'
    obtain ⟨hsource'', htarget''⟩ := Prod.mk.inj hends
    obtain ⟨target, -, -, rfl⟩ := ofReference?_eq_some_iff.mp hedge
    exact ⟨e'', he'', hsource''.trans hsource', htarget'' ▸ hadded⟩
  · -- The reference leads where it led, and no earlier one that did not lead there does now.
    left
    refine mem_ofFiles_iff.mpr ⟨before, x, after ++ references added, ?_, hsame.trans hedge, ?_⟩
    · rw [references_append, hsplit, List.append_assoc, List.cons_append]
    · intro y hy e' he' hends
      rcases hsource y (by simp [hsplit, hy]) with ⟨e'', he'', -, hadded⟩ | hsame'
      · obtain rfl := Option.some.inj (he'.symm.trans he'')
        exact htarget ((Prod.mk.inj hends).2 ▸ hadded)
      · exact hfirst y hy e' (hsame'.symm.trans he') hends

/-- Two files that were there have an edge between them only if they had one. -/
theorem exists_mem_ofFiles_of_mem_append
    (hnew : ∀ path ∈ files.map (·.path), path ∉ added.map (·.path))
    (he : e ∈ ofFiles (files ++ added)) (hsource : e.source ∈ files.map (·.path))
    (htarget : e.target ∈ files.map (·.path)) :
    ∃ e' ∈ ofFiles files, e'.source = e.source ∧ e'.target = e.target := by
  obtain ⟨hne, f, hf, hpath, r, hr, hresolve⟩ := exists_mem_ofFiles_iff.mp ⟨e, he, rfl, rfl⟩
  have hf' : f ∈ files := by
    rcases List.mem_append.mp hf with hf | hf
    · exact hf
    · exact absurd (hpath ▸ List.mem_map_of_mem hf) (hnew _ hsource)
  refine exists_mem_ofFiles_iff.mpr ⟨hne, f, hf', hpath, r, hr, ?_⟩
  rw [List.map_append] at hresolve
  rcases Specifier.resolve_append r.specifier e.source (files.map (·.path))
    (added.map (·.path)) with ⟨path, hadded, hresolve'⟩ | hsame
  · obtain rfl := Option.some.inj (hresolve.symm.trans hresolve')
    exact absurd hadded (hnew _ htarget)
  · exact hsame.symm.trans hresolve

/-- Where files are added whose paths are new, an edge stays as it is, or the file at which it
begins has an edge to an added file; and two files that were there have an edge between them only if
they had one. -/
theorem ofFiles_append (files added : List FileRecord)
    (hnew : ∀ f ∈ files, ∀ g ∈ added, f.path ≠ g.path) :
    (∀ e ∈ ofFiles files, e ∈ ofFiles (files ++ added) ∨
        ∃ e' ∈ ofFiles (files ++ added),
          e'.source = e.source ∧ e'.target ∈ added.map (·.path)) ∧
      ∀ e ∈ ofFiles (files ++ added),
        e.source ∈ files.map (·.path) → e.target ∈ files.map (·.path) →
          ∃ e' ∈ ofFiles files, e'.source = e.source ∧ e'.target = e.target := by
  have hpaths : ∀ path ∈ files.map (·.path), path ∉ added.map (·.path) := fun path hf hg => by
    obtain ⟨f, hmem, rfl⟩ := List.mem_map.mp hf
    obtain ⟨g, hmem', heq⟩ := List.mem_map.mp hg
    exact hnew f hmem g hmem' heq.symm
  exact ⟨fun e he => mem_or_exists_of_mem_ofFiles hpaths he,
    fun e he hsource htarget => exists_mem_ofFiles_of_mem_append hpaths he hsource htarget⟩

/-- A file refers to two others, and one that is added takes the place of the first of them. -/
theorem ofFiles_append_of_one_file :
    let files : List FileRecord :=
      [⟨"src/main.ts", some "import a from './util'\nimport b from './log'\n", some 45⟩,
        ⟨"src/util.js", none, none⟩, ⟨"src/log.ts", none, none⟩]
    let added : List FileRecord := [⟨"src/util.ts", none, none⟩]
    (ofFiles files).map ends =
        [("src/main.ts", "src/util.js"), ("src/main.ts", "src/log.ts")] ∧
      (ofFiles (files ++ added)).map ends =
        [("src/main.ts", "src/util.ts"), ("src/main.ts", "src/log.ts")] ∧
      (∀ f ∈ files, ∀ g ∈ added, f.path ≠ g.path) ∧
      (∀ e ∈ ofFiles files, e ∈ ofFiles (files ++ added) ∨
        ∃ e' ∈ ofFiles (files ++ added),
          e'.source = e.source ∧ e'.target ∈ added.map (·.path)) ∧
      ∀ e ∈ ofFiles (files ++ added),
        e.source ∈ files.map (·.path) → e.target ∈ files.map (·.path) →
          ∃ e' ∈ ofFiles files, e'.source = e.source ∧ e'.target = e.target := by
  intro files added
  have hnew : ∀ f ∈ files, ∀ g ∈ added, f.path ≠ g.path := by decide
  exact ⟨by decide +kernel, by decide +kernel, hnew, ofFiles_append files added hnew⟩

end Edge

end RepoGraph
