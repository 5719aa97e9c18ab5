import RepoGraph.Graph.Edge
import RepoGraph.Proofs.Firsts

/-!
# The edges of a snapshot

Where the edges of a snapshot come from: each one stems from a reference in a file that resolves to
another file (`exists_reference_of_mem_ofFile`), no two of them join the same files
(`nodup_ends_ofFiles`), and both ends are paths of the snapshot (`ends_of_mem_ofFiles`).
-/

namespace RepoGraph

/-- A specifier resolves to a known path only. -/
theorem Specifier.mem_known_of_resolve {specifier source target : String} {known : List String}
    (h : Specifier.resolve specifier source known = some target) : target ∈ known := by
  simp only [Specifier.resolve] at h
  split at h
  · obtain ⟨stem, -, hfind⟩ := Option.bind_eq_some_iff.mp h
    have hcontains := List.find?_some hfind
    exact List.contains_iff_mem.mp hcontains
  · simp at h

namespace Edge

variable {known : List String} {e : Edge}

/-- The edge of a reference leads from the file that holds it to the other file that the specifier
resolves to, and has the kind of the reference. -/
theorem ofReference?_eq_some_iff {source : String} {r : Reference} :
    ofReference? known source r = some e ↔
      ∃ target, Specifier.resolve r.specifier source known = some target ∧ target ≠ source ∧
        e = between source target r.kind := by
  unfold ofReference?
  cases hresolve : Specifier.resolve r.specifier source known with
  | none => simp
  | some target =>
    by_cases hself : target = source
    · simp [hself]
    · simp only [hself, if_false]
      constructor
      · rintro h
        cases h
        exact ⟨target, rfl, hself, rfl⟩
      · rintro ⟨other, hother, -, rfl⟩
        cases hother
        rfl

/-- An edge of a file stems from one of the references in its text. -/
theorem exists_reference_of_mem_ofFile {f : FileRecord} (h : e ∈ ofFile known f) :
    ∃ text, f.text? = some text ∧
      ∃ r ∈ referencesOf f.path text, ofReference? known f.path r = some e := by
  unfold ofFile at h
  cases htext : f.text? with
  | none => simp [htext] at h
  | some text =>
    rw [htext] at h
    obtain ⟨r, hr, he⟩ := List.mem_filterMap.mp h
    exact ⟨text, rfl, r, hr, he⟩

/-- An edge of a file begins there and ends at another known path. -/
theorem ends_of_mem_ofFile {f : FileRecord} (h : e ∈ ofFile known f) :
    e.source = f.path ∧ e.target ∈ known ∧ e.target ≠ e.source := by
  obtain ⟨text, -, r, -, he⟩ := exists_reference_of_mem_ofFile h
  obtain ⟨target, hresolve, hne, rfl⟩ := ofReference?_eq_some_iff.mp he
  exact ⟨rfl, Specifier.mem_known_of_resolve hresolve, hne⟩

/-- Of the edges the first one between each two files is kept. -/
theorem keepFirst_eq (seen : List (String × String)) (es : List Edge) :
    keepFirst seen es = keepFirstBy ends seen es := by
  induction es generalizing seen with
  | nil => rfl
  | cons e es ih => rw [keepFirst, keepFirstBy, ih, ih]

/-- An edge that is kept is one of those that there were. -/
theorem mem_of_mem_keepFirst {es : List Edge} (h : e ∈ keepFirst [] es) : e ∈ es := by
  rw [keepFirst_eq] at h
  exact (keepFirstBy_sublist ends [] es).subset h

/-- No two edges of a snapshot join the same files. -/
theorem nodup_ends_ofFiles (files : List FileRecord) : ((ofFiles files).map ends).Nodup := by
  rw [ofFiles, keepFirst_eq]
  exact nodup_map_keepFirstBy ends [] _

/-- An edge of a snapshot is one of a file of it. -/
theorem exists_file_of_mem_ofFiles {files : List FileRecord} (h : e ∈ ofFiles files) :
    ∃ f ∈ files, e ∈ ofFile (files.map (·.path)) f :=
  List.mem_flatMap.mp (mem_of_mem_keepFirst h)

/-- An edge of a snapshot joins two different paths of it. -/
theorem ends_of_mem_ofFiles {files : List FileRecord} (h : e ∈ ofFiles files) :
    e.source ∈ files.map (·.path) ∧ e.target ∈ files.map (·.path) ∧ e.source ≠ e.target := by
  obtain ⟨f, hf, he⟩ := exists_file_of_mem_ofFiles h
  obtain ⟨hsource, htarget, hne⟩ := ends_of_mem_ofFile he
  exact ⟨hsource ▸ List.mem_map_of_mem hf, htarget, hne.symm⟩

end Edge

end RepoGraph
