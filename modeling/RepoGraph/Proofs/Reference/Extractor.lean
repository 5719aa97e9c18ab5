import RepoGraph.Proofs.Firsts
import RepoGraph.Reference.Extractor

/-!
# What an extractor gathers

The specifiers of a text's references are those that one of the patterns finds and that carry no URL
scheme (`mem_specifiers_iff`). What the first of the patterns finds is a reference of that pattern's
kind (`mem_references_of_head`), since the first occurrence of a specifier fixes its kind.
-/

namespace RepoGraph

/-- Of the references the first one for each specifier is kept. -/
theorem keepFirst_eq (seen : List String) (rs : List Reference) :
    keepFirst seen rs = keepFirstBy Reference.specifier seen rs := by
  induction rs generalizing seen with
  | nil => rfl
  | cons r rs ih => rw [keepFirst, keepFirstBy, ih, ih]

namespace Extractor

variable {e : Extractor} {text specifier : String}

/-- The references of a text are the first occurrences of the specifiers without URL scheme. -/
theorem references_eq (e : Extractor) (text : String) :
    e.references text = keepFirstBy Reference.specifier []
      ((e.occurrences text).filter fun r => !hasUrlScheme r.specifier.toList) :=
  keepFirst_eq [] _

/-- What a pattern finds occurs as a reference of its kind. -/
theorem mem_occurrences_iff {r : Reference} :
    r ∈ e.occurrences text ↔
      ∃ p ∈ e.patterns, p.1 = r.kind ∧ r.specifier.toList ∈ p.2.findAll text.toList := by
  simp only [occurrences, List.mem_flatMap, List.mem_map]
  constructor
  · rintro ⟨p, hp, specifier, hfound, rfl⟩
    exact ⟨p, hp, rfl, by rwa [String.toList_ofList]⟩
  · rintro ⟨p, hp, hkind, hfound⟩
    refine ⟨p, hp, r.specifier.toList, hfound, ?_⟩
    rw [String.ofList_toList, hkind]

/-- The specifiers of a text are those that a pattern finds and that have no URL scheme. -/
theorem mem_specifiers_iff :
    specifier ∈ (e.references text).map (·.specifier) ↔
      hasUrlScheme specifier.toList = false ∧
        ∃ p ∈ e.patterns, specifier.toList ∈ p.2.findAll text.toList := by
  rw [references_eq, mem_map_keepFirstBy, and_iff_right List.not_mem_nil]
  simp only [List.mem_map, List.mem_filter, Bool.not_eq_true', mem_occurrences_iff]
  constructor
  · rintro ⟨r, ⟨⟨p, hp, -, hfound⟩, hscheme⟩, rfl⟩
    exact ⟨hscheme, p, hp, hfound⟩
  · rintro ⟨hscheme, p, hp, hfound⟩
    exact ⟨⟨specifier, p.1⟩, ⟨⟨p, hp, rfl, hfound⟩, hscheme⟩, rfl⟩

/-- What the first pattern finds is a reference of its kind, unless it has a URL scheme. -/
theorem mem_references_of_head {kind : ReferenceKind} {p : Pattern}
    {others : List (ReferenceKind × Pattern)} (hpatterns : e.patterns = (kind, p) :: others)
    (hfound : specifier.toList ∈ p.findAll text.toList)
    (hscheme : hasUrlScheme specifier.toList = false) :
    ⟨specifier, kind⟩ ∈ e.references text := by
  -- What the first pattern finds comes before what the others find.
  rw [references_eq, occurrences, hpatterns, List.flatMap_cons, List.filter_append]
  refine (keepFirstBy_append_isPrefix _ _ _ _).subset ?_
  -- The specifier is kept, and all that is kept there has the kind.
  generalize hfirst :
    ((p.findAll text.toList).map fun s => (⟨String.ofList s, kind⟩ : Reference)).filter
      (fun r => !hasUrlScheme r.specifier.toList) = first
  have hmem : specifier ∈ (keepFirstBy Reference.specifier [] first).map (·.specifier) := by
    rw [mem_map_keepFirstBy, and_iff_right List.not_mem_nil, ← hfirst, List.mem_map]
    refine ⟨⟨specifier, kind⟩, List.mem_filter.mpr ⟨List.mem_map.mpr ⟨_, hfound, ?_⟩, ?_⟩, rfl⟩
    · rw [String.ofList_toList]
    · rw [hscheme, Bool.not_false]
  obtain ⟨r, hr, rfl⟩ := List.mem_map.mp hmem
  have hkind : r ∈ first := (keepFirstBy_sublist _ _ _).subset hr
  rw [← hfirst] at hkind
  obtain ⟨s, -, heq⟩ := List.mem_map.mp (List.mem_filter.mp hkind).1
  rw [← heq] at hr ⊢
  exact hr

end Extractor

end RepoGraph
