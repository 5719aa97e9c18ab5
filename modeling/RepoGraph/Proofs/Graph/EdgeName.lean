import RepoGraph.Proofs.Graph.Edge

/-!
# The names of edges

An edge is named after its two ends, with a separator between them that is an ordinary character of
paths. Where ends hold the separator themselves, a name may be cut in several places:
`ofFiles_id_eq_iff` says exactly when two edges of a snapshot have the same name, and with it when
all names are distinct. Edges that overlap do occur (`ofFiles_same_name`).
-/

namespace RepoGraph.Edge

/-- The source of the second edge goes on after that of the first with the separator and some text,
and the target of the first begins with that text and the separator: the two names are one text, cut
in two places. -/
def Overlaps (e e' : Edge) : Prop :=
  ∃ between, e'.source = e.source ++ separator ++ between ∧
    e.target = between ++ separator ++ e'.target

variable {e e' : Edge} {files : List FileRecord}

/-- Two ways to cut a text at a sign are the same, or one of them cuts it further on. -/
theorem append_cons_eq_append_cons_iff {α : Type} {x : α} {as bs cs ds : List α} :
    as ++ x :: bs = cs ++ x :: ds ↔
      (as = cs ∧ bs = ds) ∨ (∃ ms, cs = as ++ x :: ms ∧ bs = ms ++ x :: ds) ∨
        ∃ ms, as = cs ++ x :: ms ∧ ds = ms ++ x :: bs := by
  constructor
  · intro h
    rcases List.append_eq_append_iff.mp h with ⟨ms, hcs, hbs⟩ | ⟨ms, has, hds⟩
    · cases ms with
      | nil =>
        rw [List.append_nil] at hcs
        exact .inl ⟨hcs.symm, (List.cons.inj hbs).2⟩
      | cons y ms =>
        obtain ⟨rfl, htail⟩ := List.cons.inj hbs
        exact .inr (.inl ⟨ms, hcs, htail⟩)
    · cases ms with
      | nil =>
        rw [List.append_nil] at has
        exact .inl ⟨has, (List.cons.inj hds).2.symm⟩
      | cons y ms =>
        obtain ⟨rfl, htail⟩ := List.cons.inj hds
        exact .inr (.inr ⟨ms, has, htail⟩)
  · rintro (⟨rfl, rfl⟩ | ⟨ms, rfl, rfl⟩ | ⟨ms, rfl, rfl⟩)
    · rfl
    · simp
    · simp

/-- The signs of a name. -/
theorem toList_name (source target : String) :
    (source ++ separator ++ target).toList = source.toList ++ '→' :: target.toList := by
  simp [separator]

/-- One text is two others with the separator between them exactly when this holds of their
signs. -/
theorem exists_name_iff {s t u v : String} :
    (∃ between, s = t ++ separator ++ between ∧ u = between ++ separator ++ v) ↔
      ∃ ms, s.toList = t.toList ++ '→' :: ms ∧ u.toList = ms ++ '→' :: v.toList := by
  constructor
  · rintro ⟨between, rfl, rfl⟩
    exact ⟨between.toList, toList_name .., toList_name ..⟩
  · rintro ⟨ms, hs, hu⟩
    refine ⟨String.ofList ms, ?_, ?_⟩
    · rw [← String.toList_inj, toList_name, String.toList_ofList, hs]
    · rw [← String.toList_inj, toList_name, String.toList_ofList, hu]

/-- Two edges that are named after their ends have the same name exactly when they have the same
ends or overlap. -/
theorem id_eq_iff (h : e.id = e.source ++ separator ++ e.target)
    (h' : e'.id = e'.source ++ separator ++ e'.target) :
    e.id = e'.id ↔ e.ends = e'.ends ∨ e.Overlaps e' ∨ e'.Overlaps e := by
  rw [h, h', ← String.toList_inj, toList_name, toList_name, append_cons_eq_append_cons_iff,
    ends, ends, Prod.mk.injEq, String.toList_inj, String.toList_inj]
  unfold Overlaps
  rw [exists_name_iff, exists_name_iff]

/-- An edge of a snapshot is named after its ends. -/
theorem id_of_mem_ofFiles (h : e ∈ ofFiles files) :
    e.id = e.source ++ separator ++ e.target := by
  obtain ⟨f, -, he⟩ := exists_file_of_mem_ofFiles h
  obtain ⟨_, -, _, -, he⟩ := exists_reference_of_mem_ofFile he
  obtain ⟨target, -, -, rfl⟩ := ofReference?_eq_some_iff.mp he
  rfl

/-- Edges that overlap are different ones. -/
theorem Overlaps.ends_ne (h : e.Overlaps e') : e.ends ≠ e'.ends := by
  obtain ⟨between, hsource, -⟩ := h
  intro hends
  have hsame : e.source = e'.source := congrArg Prod.fst hends
  have hlength := congrArg String.length (hsame.trans hsource)
  have hseparator : separator.length = 1 := rfl
  rw [String.length_append, String.length_append] at hlength
  omega

/-- Two edges of a snapshot have the same name exactly when they join the same files or overlap. So
all names are distinct exactly when no two edges overlap, which none do where no path, followed by
the separator, begins another one. -/
theorem ofFiles_id_eq_iff (files : List FileRecord) :
    (∀ e ∈ ofFiles files, ∀ e' ∈ ofFiles files,
        e.id = e'.id ↔ e.ends = e'.ends ∨ e.Overlaps e' ∨ e'.Overlaps e) ∧
      (((ofFiles files).map Edge.id).Nodup ↔
        ∀ e ∈ ofFiles files, ∀ e' ∈ ofFiles files, ¬e.Overlaps e') ∧
      ((∀ f ∈ files, ∀ g ∈ files, ¬(f.path ++ separator).toList <+: g.path.toList) →
        ((ofFiles files).map Edge.id).Nodup) := by
  have hids : ∀ e ∈ ofFiles files, ∀ e' ∈ ofFiles files,
      e.id = e'.id ↔ e.ends = e'.ends ∨ e.Overlaps e' ∨ e'.Overlaps e := fun e he e' he' =>
    id_eq_iff (id_of_mem_ofFiles he) (id_of_mem_ofFiles he')
  have hends := nodup_ends_ofFiles files
  have hnodup : ((ofFiles files).map Edge.id).Nodup ↔
      ∀ e ∈ ofFiles files, ∀ e' ∈ ofFiles files, ¬e.Overlaps e' := by
    rw [List.nodup_map_iff_inj_on (List.Nodup.of_map _ hends)]
    constructor
    · intro hinj e he e' he' hoverlaps
      have heq := hinj e he e' he' ((hids e he e' he').mpr (.inr (.inl hoverlaps)))
      exact hoverlaps.ends_ne (congrArg ends heq)
    · intro hnone e he e' he' hid
      rcases (hids e he e' he').mp hid with hsame | hoverlaps | hoverlaps
      · exact List.inj_on_of_nodup_map hends he he' hsame
      · exact absurd hoverlaps (hnone e he e' he')
      · exact absurd hoverlaps (hnone e' he' e he)
  refine ⟨hids, hnodup, fun hpaths => hnodup.mpr fun e he e' he' => ?_⟩
  rintro ⟨between, hsource, -⟩
  obtain ⟨f, hf, hpath⟩ := List.mem_map.mp (ends_of_mem_ofFiles he).1
  obtain ⟨g, hg, hpath'⟩ := List.mem_map.mp (ends_of_mem_ofFiles he').1
  refine hpaths f hf g hg ⟨between.toList, ?_⟩
  rw [hpath, hpath', hsource, ← String.toList_append]

/-- Of four files two refer to another one each, and these two edges have the same name. -/
theorem ofFiles_same_name :
    let files : List FileRecord :=
      [⟨"a", some "import x from './b→c'", none⟩, ⟨"a→b", some "import x from './c'", none⟩,
        ⟨"b→c", none, none⟩, ⟨"c", none, none⟩]
    ¬∀ e ∈ ofFiles files, ∀ e' ∈ ofFiles files,
      e.id = e'.id → e.source = e'.source ∧ e.target = e'.target := by
  decide +kernel

end RepoGraph.Edge
