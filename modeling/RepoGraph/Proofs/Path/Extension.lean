import RepoGraph.Path.Selection
import RepoGraph.Proofs.Path.Role
import RepoGraph.Proofs.Table
import RepoGraph.Reference.Extractor

/-!
# Names without a point

The language of a file, whether its text is fetched, its extractor and its role are looked up by the
extension of its path. A last segment without a point is its own extension in lower case
(`extension_eq_lowerName`), so `lookups_of_no_point` tells for each of the four which of these names
count as extensions: a file of the name `ts` is one that is written in TypeScript.
-/

namespace RepoGraph.Path

variable {path : String}

/-! ## What is asked for extensions -/

/-- The text of a file is fetched at no size if its extension is not one that is scanned. -/
theorem forall_isFetched_eq_false_iff :
    (∀ size, isFetched path size = false) ↔ extension path ∉ scannedExtensions := by
  constructor
  · intro hnever hmem
    have hunknown := hnever none
    simp [isFetched, hmem] at hunknown
  · intro hnot size
    simp [isFetched, hnot]

/-- Of the extensions that the standard registry knows, two are not read as scripts. -/
theorem standard_extractorFor_eq_script_iff :
    Registry.standard.extractorFor path = .script ↔
      extension path ≠ "ts" ∧ extension path ≠ "py" := by
  constructor
  · intro hscript
    constructor
    · intro hts
      rw [Registry.extractorFor, hts] at hscript
      exact absurd hscript (by decide)
    · intro hpy
      rw [Registry.extractorFor, hpy] at hscript
      exact absurd hscript (by decide)
  · rintro ⟨hts, hpy⟩
    rw [Registry.extractorFor]
    cases hlookup : Registry.standard.entries.lookup (extension path) with
    | none => rfl
    | some e =>
      have hmem : (extension path, e) ∈ Registry.standard.entries :=
        (Table.lookup_eq_some_iff_mem (by decide)).mp hlookup
      have hentry : (extension path = "tsx" ∨ extension path = "js" ∨ extension path = "jsx") ∧
          e = .script := by
        simpa [Registry.standard, hts, hpy, ← or_and_right] using hmem
      exact hentry.2

/-! ## Names without a point -/

/-- The last segment in lower case. -/
def lowerName (path : String) : String := String.ofList (Text.lower (base path).toList)

/-- Without a point in it, the last segment is the extension. -/
theorem extension_eq_lowerName (h : '.' ∉ (base path).toList) :
    extension path = lowerName path := by
  rw [← extension_base, extension, Text.afterLast_of_notMem (parent_base path).1,
    Text.afterLast_of_notMem h, lowerName]

/-- No rule for the end of a path applies to a last segment without a point. -/
theorem role_eq_plainRole (h : '.' ∉ (base path).toList) : role path = plainRole path := by
  have hnone : roleRules.dropLast.find? (·.fits (base path).toList) = none := by
    rw [List.find?_eq_none]
    intro rule hrule hfits
    have hmem : rule ∈ roleRules := List.mem_of_mem_dropLast hrule
    have happlies := (fits_iff_applies_of_mem hmem).mp hfits
    exact h (happlies.mem (by decide) fun w hw => (mem_words_of_mem_roleRules hmem hw).1)
  rw [role_eq, ← find?_base, hnone]
  rfl

/-- A file whose last segment has no point in it is a module if the segment names the extension of a
script and no directory makes it a file of the environment. -/
theorem role_eq_moduleRole_iff (h : '.' ∉ (base path).toList) :
    role path = moduleRole ↔ lowerName path ∈ scripts ∧ ¬HasEnvironmentDirectory path := by
  have hbase : ¬".env".toList <:+: (base path).toList :=
    fun hname => h (hname.subset (by decide))
  have henv : ".env".toList <:+: path.toList ↔ HasEnvironmentDirectory path :=
    (infix_iff_directory_or_base path).trans (or_iff_left hbase)
  rw [role_eq_plainRole h, plainRole, extension_eq_lowerName h]
  by_cases hdir : HasEnvironmentDirectory path
  · rw [if_pos (henv.mpr hdir)]
    exact iff_of_false (by decide) fun hmodule => hmodule.2 hdir
  · rw [if_neg (mt henv.mp hdir)]
    by_cases hscript : lowerName path ∈ scripts
    · rw [if_pos hscript]
      exact iff_of_true rfl ⟨hscript, hdir⟩
    · rw [if_neg hscript]
      exact iff_of_false (by decide) fun hmodule => hscript hmodule.1

/-- A last segment without a point counts as an extension exactly as far as it is, in lower case,
among the extensions that are asked for: otherwise the file has no language, its text is never
fetched, it is read as a script, and it is no module. -/
theorem lookups_of_no_point (h : '.' ∉ (base path).toList) :
    (language? path = none ↔ lowerName path ∉ languages.map Prod.fst) ∧
      ((∀ size, isFetched path size = false) ↔ lowerName path ∉ scannedExtensions) ∧
      (Registry.standard.extractorFor path = .script ↔
        lowerName path ≠ "ts" ∧ lowerName path ≠ "py") ∧
      (role path = moduleRole ↔ lowerName path ∈ scripts ∧ ¬HasEnvironmentDirectory path) := by
  rw [← extension_eq_lowerName h]
  refine ⟨Table.lookup_eq_none_iff_notMem, forall_isFetched_eq_false_iff,
    standard_extractorFor_eq_script_iff, ?_⟩
  rw [extension_eq_lowerName h]
  exact role_eq_moduleRole_iff h

/-- A makefile counts as a file without an extension. -/
theorem lookups_of_no_point_makefile :
    '.' ∉ (base "src/Makefile").toList ∧ language? "src/Makefile" = none ∧
      (∀ size, isFetched "src/Makefile" size = false) ∧
      Registry.standard.extractorFor "src/Makefile" = .script ∧
      role "src/Makefile" ≠ moduleRole := by
  have hpoint : '.' ∉ (base "src/Makefile").toList := by decide
  have hname : lowerName "src/Makefile" = "makefile" := by decide
  obtain ⟨hlanguage, hfetched, hextractor, hrole⟩ := lookups_of_no_point hpoint
  rw [hname] at hlanguage hfetched hextractor hrole
  have hmodule : ¬("makefile" ∈ scripts ∧ ¬HasEnvironmentDirectory "src/Makefile") := by decide
  exact ⟨hpoint, hlanguage.mpr (by decide), hfetched.mpr (by decide), hextractor.mpr (by decide),
    mt hrole.mp hmodule⟩

/-- A file of the name `ts` counts as one that is written in TypeScript. -/
theorem counts_as_extension_ts :
    '.' ∉ (base "src/ts").toList ∧ language? "src/ts" = some "TypeScript" ∧
      isFetched "src/ts" none = true ∧
      Registry.standard.extractorFor "src/ts" = .typedScript ∧ role "src/ts" = moduleRole := by
  decide

end RepoGraph.Path
