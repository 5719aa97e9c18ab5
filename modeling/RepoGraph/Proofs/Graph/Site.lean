import RepoGraph.Proofs.Graph.Edge

/-!
# The references behind the edges of a snapshot

A reference stands at a `Site`: in one of the files, as one of its references. `ofFiles_firsts`
says what the edges of a snapshot are in terms of sites alone: there is an edge from one path to
another one exactly when some reference leads there, it has the kind of the first such reference,
and the edges come in the order of these first references. Paths may occur several times, and
several references may lead from one path to another.

The edges are cut out of `sited`, the list of all references that lead to another file, each with
its site. That list is in the order of the sites, and keeping the first edge between each two
files keeps that order.
-/

namespace RepoGraph

/-- The references in the text of a file, if it has one that is not empty. -/
def FileRecord.references (f : FileRecord) : List Reference :=
  match f.text? with
  | some text => referencesOf f.path text
  | none => []

/-- A site in a snapshot at which a reference may stand. -/
structure Site where
  /-- The number of the file. -/
  file : Nat
  /-- The number of the reference among those of the file. -/
  reference : Nat

/-- Sites follow one another file by file, and within a file reference by reference. -/
def Site.Before (p q : Site) : Prop :=
  p.file < q.file ∨ p.file = q.file ∧ p.reference < q.reference

/-- A file has a text that is not empty. -/
theorem FileRecord.text?_eq_some_iff {f : FileRecord} {text : String} :
    f.text? = some text ↔ f.content = some text ∧ text ≠ "" := by
  rw [text?, Option.filter_eq_some_iff, bne_iff_ne]

/-- A file has a reference exactly when its text has. -/
theorem FileRecord.mem_references {f : FileRecord} {r : Reference} :
    r ∈ f.references ↔
      ∃ text, f.content = some text ∧ text ≠ "" ∧ r ∈ referencesOf f.path text := by
  unfold references
  cases htext : f.text? with
  | none =>
    have hnone (text : String) (hcontent : f.content = some text) : ¬text ≠ "" := fun hne => by
      rw [text?_eq_some_iff.mpr ⟨hcontent, hne⟩] at htext
      cases htext
    simpa using fun text hcontent hne => absurd hne (hnone text hcontent)
  | some text =>
    obtain ⟨hcontent, hne⟩ := text?_eq_some_iff.mp htext
    constructor
    · exact fun hr => ⟨text, hcontent, hne, hr⟩
    · rintro ⟨text', hcontent', -, hr⟩
      rw [hcontent] at hcontent'
      exact Option.some.inj hcontent' ▸ hr

namespace Edge

/-- The edges of a file are those of its references that lead to another file. -/
theorem ofFile_eq (known : List String) (f : FileRecord) :
    ofFile known f = f.references.filterMap (ofReference? known f.path) := by
  unfold ofFile FileRecord.references
  cases f.text? with
  | none => rfl
  | some text => rfl

/-- At a site of a snapshot stands a reference of a kind from one path to another: it is one of a
file with the one path, and its specifier resolves to the other path. -/
def Refers (files : List FileRecord) (p : Site) (source target : String) (kind : ReferenceKind) :
    Prop :=
  ∃ f r, files[p.file]? = some f ∧ f.path = source ∧ f.references[p.reference]? = some r ∧
    r.kind = kind ∧ Specifier.resolve r.specifier source (files.map (·.path)) = some target

/-- The edge is that of the first reference between its ends, which stands at a site. -/
structure IsFirst (files : List FileRecord) (p : Site) (e : Edge) : Prop where
  /-- The edge has the name of one between its ends. -/
  named : e = between e.source e.target e.kind
  /-- A reference of the edge's kind stands there. -/
  refers : Refers files p e.source e.target e.kind
  /-- No other reference between the ends comes before it. -/
  first : ∀ q kind, Refers files q e.source e.target kind → q = p ∨ p.Before q

/-- The references of a snapshot that lead to another file, as edges with their sites. -/
def sited (files : List FileRecord) : List (Site × Edge) :=
  files.zipIdx.flatMap fun f => f.1.references.zipIdx.filterMap fun r =>
    (ofReference? (files.map (·.path)) f.1.path r.1).map fun e => (⟨f.2, r.2⟩, e)

variable {files : List FileRecord} {p : Site} {e : Edge}

/-- Without their sites they are the edges of the files one after another. -/
theorem map_snd_sited (files : List FileRecord) :
    (sited files).map Prod.snd = files.flatMap (ofFile (files.map (·.path))) := by
  -- Forgetting the numbers gives the lists that were numbered.
  have hreferences (known : List String) (f : FileRecord × Nat) :
      (f.1.references.zipIdx.filterMap fun r => (ofReference? known f.1.path r.1).map fun e =>
        ((⟨f.2, r.2⟩ : Site), e)).map Prod.snd = ofFile known f.1 := by
    conv_rhs => rw [ofFile_eq, ← List.zipIdx_map_fst 0 f.1.references, List.filterMap_map]
    rw [List.map_filterMap]
    refine List.filterMap_congr fun r _ => ?_
    rw [Option.map_map]
    exact Option.map_id_fun' ▸ rfl
  rw [sited, List.map_flatMap]
  conv_rhs => rw [← List.zipIdx_map_fst 0 files, List.flatMap_map]
  simp only [hreferences, List.zipIdx_map_fst]

/-- Numbering a list gives increasing numbers. -/
theorem pairwise_zipIdx {α : Type} (xs : List α) :
    xs.zipIdx.Pairwise fun x y => x.2 < y.2 := by
  have hrange : (xs.zipIdx.map Prod.snd).Pairwise (· < ·) := by
    rw [List.zipIdx_map_snd]
    exact List.pairwise_lt_range' 1
  exact List.pairwise_map.mp hrange

/-- The sites come in their order. -/
theorem pairwise_sited (files : List FileRecord) :
    (sited files).Pairwise fun x y => x.1.Before y.1 := by
  rw [sited, List.pairwise_flatMap]
  constructor
  · intro f _
    -- Within a file the numbers of the references increase.
    refine List.Pairwise.filterMap _ ?_ (pairwise_zipIdx f.1.references)
    intro r r' hlt x hx y hy
    obtain ⟨-, -, rfl⟩ := Option.map_eq_some_iff.mp hx
    obtain ⟨-, -, rfl⟩ := Option.map_eq_some_iff.mp hy
    exact .inr ⟨rfl, hlt⟩
  · -- From one file to the next the numbers of the files increase.
    refine (pairwise_zipIdx files).imp fun hlt x hx y hy => ?_
    obtain ⟨_, -, hx⟩ := List.mem_filterMap.mp hx
    obtain ⟨-, -, rfl⟩ := Option.map_eq_some_iff.mp hx
    obtain ⟨_, -, hy⟩ := List.mem_filterMap.mp hy
    obtain ⟨-, -, rfl⟩ := Option.map_eq_some_iff.mp hy
    exact .inl hlt

/-- What stands at a site is a reference to another file, as an edge. -/
theorem mem_sited_iff :
    (p, e) ∈ sited files ↔
      Refers files p e.source e.target e.kind ∧ e.target ≠ e.source ∧
        e = between e.source e.target e.kind := by
  simp only [sited, List.mem_flatMap, List.mem_filterMap, List.mem_zipIdx_iff_getElem?,
    Option.map_eq_some_iff, ofReference?_eq_some_iff]
  constructor
  · rintro ⟨⟨f, i⟩, hf, ⟨r, j⟩, hr, e', ⟨target, hresolve, hne, rfl⟩, heq⟩
    obtain ⟨rfl, rfl⟩ := Prod.mk.inj heq
    exact ⟨⟨f, r, hf, rfl, hr, rfl, hresolve⟩, hne, rfl⟩
  · rintro ⟨⟨f, r, hf, hpath, hr, hkind, hresolve⟩, hne, heq⟩
    rw [← hpath] at hresolve hne
    refine ⟨(f, p.file), hf, (r, p.reference), hr, e, ⟨e.target, hresolve, hne, ?_⟩, rfl⟩
    rw [hpath, hkind]
    exact heq

/-- The first edges between each two files, with their sites. -/
def firstSited (files : List FileRecord) : List (Site × Edge) :=
  keepFirstBy (ends ∘ Prod.snd) [] (sited files)

/-- Without their sites they are the edges of the snapshot. -/
theorem map_snd_firstSited (files : List FileRecord) :
    (firstSited files).map Prod.snd = ofFiles files := by
  rw [firstSited, ofFiles, keepFirst_eq, ← map_snd_sited, keepFirstBy_map]

/-- Each of them is that of the first reference between its ends. -/
theorem isFirst_of_mem_firstSited (h : (p, e) ∈ firstSited files) : IsFirst files p e := by
  obtain ⟨-, before, after, hsited, hfirst⟩ := mem_keepFirstBy_iff.mp h
  have hmem : (p, e) ∈ sited files := (keepFirstBy_sublist _ _ _).subset h
  obtain ⟨hrefers, hne, hnamed⟩ := mem_sited_iff.mp hmem
  refine ⟨hnamed, hrefers, fun q kind hq => ?_⟩
  -- Another reference between the ends is listed as well, and not before this one.
  have hq : (q, between e.source e.target kind) ∈ sited files := mem_sited_iff.mpr ⟨hq, hne, rfl⟩
  have hsorted := pairwise_sited files
  rw [hsited] at hq hsorted
  rcases List.mem_append.mp hq with hearlier | hq
  · exact absurd (List.mem_map_of_mem hearlier) hfirst
  rcases List.mem_cons.mp hq with heq | hlater
  · exact .inl (Prod.mk.inj heq).1
  · have hafter := (List.pairwise_cons.mp (List.pairwise_append.mp hsorted).2.1).1
    exact .inr (hafter _ hlater)

/-- There is an edge from one path to another exactly when some reference leads there. -/
theorem exists_mem_ofFiles_iff {source target : String} :
    (∃ e ∈ ofFiles files, e.source = source ∧ e.target = target) ↔
      source ≠ target ∧ ∃ f ∈ files, f.path = source ∧ ∃ r ∈ f.references,
        Specifier.resolve r.specifier source (files.map (·.path)) = some target := by
  -- Keeping the first edges leaves the same ends.
  have hends : (∃ e ∈ ofFiles files, e.source = source ∧ e.target = target) ↔
      ∃ e ∈ files.flatMap (ofFile (files.map (·.path))), e.source = source ∧ e.target = target := by
    have hkept : (source, target) ∈ (ofFiles files).map ends ↔
        (source, target) ∈ (files.flatMap (ofFile (files.map (·.path)))).map ends := by
      rw [ofFiles, keepFirst_eq, mem_map_keepFirstBy]
      exact and_iff_right List.not_mem_nil
    simpa only [List.mem_map, ends, Prod.mk.injEq] using hkept
  rw [hends]
  constructor
  · rintro ⟨e, he, rfl, rfl⟩
    obtain ⟨f, hf, he⟩ := List.mem_flatMap.mp he
    rw [ofFile_eq] at he
    obtain ⟨r, hr, he⟩ := List.mem_filterMap.mp he
    obtain ⟨target, hresolve, hne, rfl⟩ := ofReference?_eq_some_iff.mp he
    exact ⟨hne.symm, f, hf, rfl, r, hr, hresolve⟩
  · rintro ⟨hne, f, hf, rfl, r, hr, hresolve⟩
    refine ⟨between f.path target r.kind, List.mem_flatMap.mpr ⟨f, hf, ?_⟩, rfl, rfl⟩
    rw [ofFile_eq]
    refine List.mem_filterMap.mpr ⟨r, hr, ?_⟩
    exact ofReference?_eq_some_iff.mpr ⟨target, hresolve, hne.symm, rfl⟩

/-- The edges of a snapshot are those of the first references between its files. There is an edge
from one path to another exactly when these differ and a file with the one path has a reference that
resolves to the other; no two edges have the same ends; each one is that of the first reference
between its ends, and has its kind; these first references come in the order of the edges; and both
ends are paths of the snapshot. -/
theorem ofFiles_firsts (files : List FileRecord) :
    (∀ source target, (∃ e ∈ ofFiles files, e.source = source ∧ e.target = target) ↔
      source ≠ target ∧ ∃ f ∈ files, f.path = source ∧ ∃ text, f.content = some text ∧ text ≠ "" ∧
        ∃ r ∈ referencesOf source text,
          Specifier.resolve r.specifier source (files.map (·.path)) = some target) ∧
      ((ofFiles files).map ends).Nodup ∧
      (∃ sites : List Site, List.Forall₂ (IsFirst files) sites (ofFiles files) ∧
        sites.Pairwise Site.Before) ∧
      ∀ e ∈ ofFiles files, e.source ∈ files.map (·.path) ∧ e.target ∈ files.map (·.path) := by
  refine ⟨fun source target => ?_, nodup_ends_ofFiles files, ?_, fun e he => ?_⟩
  · rw [exists_mem_ofFiles_iff]
    refine and_congr_right fun _ => exists_congr fun f => and_congr_right fun _ => ?_
    refine and_congr_right fun hpath => ?_
    simp only [FileRecord.mem_references, hpath]
    constructor
    · rintro ⟨r, ⟨text, hcontent, hne, hr⟩, hresolve⟩
      exact ⟨text, hcontent, hne, r, hr, hresolve⟩
    · rintro ⟨text, hcontent, hne, r, hr, hresolve⟩
      exact ⟨r, ⟨text, hcontent, hne, hr⟩, hresolve⟩
  · refine ⟨(firstSited files).map Prod.fst, ?_, ?_⟩
    · rw [← map_snd_firstSited, List.forall₂_map_left_iff, List.forall₂_map_right_iff,
        List.forall₂_same]
      exact fun x hx => isFirst_of_mem_firstSited hx
    · exact List.pairwise_map.mpr ((pairwise_sited files).sublist (keepFirstBy_sublist _ _ _))
  · obtain ⟨hsource, htarget, -⟩ := ends_of_mem_ofFiles he
    exact ⟨hsource, htarget⟩

end Edge

end RepoGraph
