import RepoGraph.Proofs.Reference.Stem
import RepoGraph.Proofs.Text.Blank

/-!
# Every file is within reach

Whatever other files there are, a known file is reached from every file by a relative specifier: up
to a directory above both, then down. It is also reached by its own path after the alias of the root
(`resolve_known`). The specifier leads to the path itself, which is tried before any ending is put
to it (`resolve_of_stem?`).
-/

namespace RepoGraph

open RepoGraph.Text

/-! ## Paths of segments -/

namespace Path

/-- The text is one segment of a path, and a name. -/
def IsSegment (s : String) : Prop := '/' ∉ s.toList ∧ Specifier.IsName s.toList

instance : DecidablePred IsSegment := fun s =>
  inferInstanceAs (Decidable ('/' ∉ s.toList ∧ Specifier.IsName s.toList))

/-- The path of some segments; without any it is that of the root. -/
def ofSegments (segments : List String) : String :=
  String.ofList (joinWith '/' (segments.map String.toList))

variable {segments above below : List String}

/-- The characters of a path of segments. -/
theorem toList_ofSegments (segments : List String) :
    (ofSegments segments).toList = joinWith '/' (segments.map String.toList) :=
  String.toList_ofList

/-- A path of some segments is not empty. -/
theorem toList_ofSegments_ne_nil (hne : segments ≠ []) (h : ∀ s ∈ segments, IsSegment s) :
    (ofSegments segments).toList ≠ [] := by
  rw [toList_ofSegments]
  refine joinWith_ne_nil (fun hnil => hne (List.map_eq_nil_iff.mp hnil)) fun piece hpiece => ?_
  obtain ⟨s, hs, rfl⟩ := List.mem_map.mp hpiece
  exact (h s hs).2.1

/-- A path ends as the path of its last segments does. -/
theorem getLast?_ofSegments_append (hne : below ≠ []) (h : ∀ s ∈ below, IsSegment s) :
    (ofSegments (above ++ below)).toList.getLast? = (ofSegments below).toList.getLast? := by
  by_cases habove : above = []
  · rw [habove, List.nil_append]
  · have hbelow := toList_ofSegments_ne_nil hne h
    rw [toList_ofSegments] at hbelow
    rw [toList_ofSegments, toList_ofSegments, List.map_append,
      joinWith_append (fun hnil => habove (List.map_eq_nil_iff.mp hnil))
        (fun hnil => hne (List.map_eq_nil_iff.mp hnil)),
      List.getLast?_append_cons, List.getLast?_cons_of_ne_nil hbelow]

end Path

namespace Specifier

open RepoGraph.Path (IsSegment ofSegments toList_ofSegments)

variable {done : List (List Char)} {segments : List String} {specifier source path : String}
  {known : List String}

/-- A path of segments leads to its segments. -/
theorem walk_ofSegments (h : ∀ s ∈ segments, IsSegment s) (done : List (List Char)) :
    walk done (splitOn '/' (ofSegments segments).toList) =
      some ((segments.map String.toList).reverse ++ done) := by
  by_cases hne : segments = []
  · subst hne
    rfl
  · have hmap (piece : List Char) (hpiece : piece ∈ segments.map String.toList) :
        '/' ∉ piece ∧ IsName piece := by
      obtain ⟨s, hs, rfl⟩ := List.mem_map.mp hpiece
      exact h s hs
    rw [toList_ofSegments, splitOn_joinWith (fun hnil => hne (List.map_eq_nil_iff.mp hnil))
      fun piece hpiece => (hmap piece hpiece).1]
    exact walk_of_isName fun piece hpiece => (hmap piece hpiece).2

/-! ## Going up -/

/-- The way up by a number of directories. -/
def ups : Nat → String
  | 0 => ""
  | k + 1 => "../" ++ ups k

/-- The beginning of a relative specifier that goes up by a number of directories. -/
def climb (k : Nat) : String := if k = 0 then "./" else ups k

/-- A way up leaves out the last segments. -/
theorem walk_ups {k : Nat} (hk : k ≤ done.length) (t : List Char) :
    walk done (splitOn '/' ((ups k).toList ++ t)) = walk (done.drop k) (splitOn '/' t) := by
  induction k generalizing done with
  | zero => rfl
  | succ k ih =>
    cases done with
    | nil => exact absurd hk (Nat.not_succ_le_zero k)
    | cons last above =>
      have hups : (ups (k + 1)).toList ++ t = ['.', '.'] ++ '/' :: ((ups k).toList ++ t) := by
        simp [ups]
      rw [hups, walk_splitOn_append_cons]
      exact ih (Nat.le_of_succ_le_succ hk)

/-- The beginning of a relative specifier leaves out the last segments. -/
theorem walk_climb {k : Nat} (hk : k ≤ done.length) (t : List Char) :
    walk done (splitOn '/' ((climb k).toList ++ t)) = walk (done.drop k) (splitOn '/' t) := by
  by_cases hzero : k = 0
  · subst hzero
    show walk done (splitOn '/' (['.'] ++ '/' :: t)) = _
    rw [walk_splitOn_append_cons]
    rfl
  · rw [climb, if_neg hzero, walk_ups hk]

/-- A relative specifier begins with a point. -/
theorem exists_toList_climb_eq_cons (k : Nat) : ∃ s, (climb k).toList = '.' :: s := by
  cases k with
  | zero => exact ⟨_, rfl⟩
  | succ k => exact ⟨'.' :: '/' :: (ups k).toList, by simp [climb, ups]⟩

/-! ## Specifiers in files -/

/-- Without the alias of the root a specifier is gone through from the directory of its file. -/
theorem walk_joined (h : after? rootAlias specifier.toList = none) (source : String) :
    walk [] (splitOn '/' (joined specifier source)) =
      (walk [] (splitOn '/' (Path.parent source).toList)).bind fun reached =>
        walk reached (splitOn '/' specifier.toList) := by
  rw [joined, h]
  dsimp only
  split
  · rename_i hroot
    rw [hroot]
    rfl
  · rw [walk_splitOn_append_cons]

/-- A known stem is tried before any other path. -/
theorem resolve_of_stem? (htrimmed : trimmed specifier = specifier)
    (hinternal : isInternal specifier = true) (hstem : stem? specifier source = some path)
    (hknown : path ∈ known) : resolve specifier source known = some path := by
  have hfirst : (candidates path).find? known.contains = some path := by
    rw [candidates, candidateEndings, List.map_cons, String.append_empty, List.find?_cons_of_pos]
    exact List.contains_iff_mem.mpr hknown
  rw [resolve]
  simp only [htrimmed, hinternal, if_true, hstem, Option.bind_some, hfirst]

/-- A path of segments is the stem of each specifier that leads to them. -/
theorem stem?_of_walk_eq_segments (hne : segments ≠ [])
    (h : walk [] (splitOn '/' (joined specifier source)) =
      some (segments.map String.toList).reverse) :
    stem? specifier source = some (ofSegments segments) := by
  rw [stem?_of_walk h, if_neg fun hnil => hne (List.map_eq_nil_iff.mp
    (List.reverse_eq_nil_iff.mp hnil)), List.reverse_reverse]
  rfl

/-- White space is not trimmed from what begins with another character and ends as a path does. -/
theorem trimmed_append {front : String} {c : Char} {s : List Char} (hfront : front.toList = c :: s)
    (hc : isBlank c = false) (hpath : path.toList ≠ [])
    (hlast : ∀ c, path.toList.getLast? = some c → isBlank c = false) :
    trimmed (front ++ path) = front ++ path := by
  refine IsTrimmed.trimmed_eq ⟨fun d hd => ?_, fun d hd => hlast d ?_⟩
  · rw [String.toList_append, hfront] at hd
    exact Option.mem_some_iff.mp hd ▸ hc
  · rw [← hd, String.toList_append, List.getLast?_append_of_ne_nil _ hpath]

/-- After the alias of the root, a known path leads to itself. -/
theorem resolve_root (hsegments : ∀ s ∈ segments, IsSegment s) (hne : segments ≠ [])
    (hlast : ∀ c, (ofSegments segments).toList.getLast? = some c → isBlank c = false)
    (hknown : ofSegments segments ∈ known) (source : String) :
    resolve ("@/" ++ ofSegments segments) source known = some (ofSegments segments) := by
  have hpath := Path.toList_ofSegments_ne_nil hne hsegments
  have hinternal : isInternal ("@/" ++ ofSegments segments) = true := by
    rw [isInternal, String.toList_append]
    rfl
  refine resolve_of_stem? (trimmed_append rfl (by decide) hpath hlast) hinternal ?_ hknown
  refine stem?_of_walk_eq_segments hne ?_
  rw [joined_root, walk_ofSegments hsegments, List.append_nil]

/-- A known path is reached from a file by going up to a directory above both and down from
there. -/
theorem resolve_climb {common down rest : List String}
    (hdirectory : ∀ s ∈ common ++ down, IsSegment s) (hrest : ∀ s ∈ rest, IsSegment s)
    (hne : rest ≠ [])
    (hlast : ∀ c, (ofSegments (common ++ rest)).toList.getLast? = some c → isBlank c = false)
    (hknown : ofSegments (common ++ rest) ∈ known)
    (hsource : Path.parent source = ofSegments (common ++ down)) :
    resolve (climb down.length ++ ofSegments rest) source known =
      some (ofSegments (common ++ rest)) := by
  obtain ⟨s, hs⟩ := exists_toList_climb_eq_cons down.length
  have hpath := Path.toList_ofSegments_ne_nil hne hrest
  rw [Path.getLast?_ofSegments_append hne hrest] at hlast
  have htext : (climb down.length ++ ofSegments rest).toList =
      '.' :: (s ++ (ofSegments rest).toList) := by
    rw [String.toList_append, hs, List.cons_append]
  have hinternal : isInternal (climb down.length ++ ofSegments rest) = true := by
    rw [isInternal, htext]
    rfl
  refine resolve_of_stem? (trimmed_append hs (by decide) hpath hlast) hinternal ?_ hknown
  refine stem?_of_walk_eq_segments (fun hnil => hne (List.append_eq_nil_iff.mp hnil).2) ?_
  -- Down to the directory of the file, up to the common one, down to the other file.
  rw [walk_joined (by rw [htext]; rfl), hsource, walk_ofSegments hdirectory, Option.bind_some,
    String.toList_append, walk_climb (by simp), walk_ofSegments hrest]
  simp

/-- Every known file is reached from every file, whatever other files are known. If its path is that
of some directory and further segments, and a file stands in a directory some segments further down
from there, going up as many times and down along the further segments leads from the one to the
other; and the path after the alias of the root leads there from everywhere. -/
theorem resolve_known (known common down rest : List String) (source : String)
    (hsegments : ∀ s ∈ common ++ down ++ rest, IsSegment s) (hrest : rest ≠ [])
    (hlast : ∀ c, (ofSegments (common ++ rest)).toList.getLast? = some c → isBlank c = false)
    (hknown : ofSegments (common ++ rest) ∈ known)
    (hsource : Path.parent source = ofSegments (common ++ down)) :
    resolve (climb down.length ++ ofSegments rest) source known =
        some (ofSegments (common ++ rest)) ∧
      ∀ other, resolve ("@/" ++ ofSegments (common ++ rest)) other known =
        some (ofSegments (common ++ rest)) := by
  have hdirectory (s : String) (hs : s ∈ common ++ down) : IsSegment s :=
    hsegments s (List.mem_append_left rest hs)
  have hfurther (s : String) (hs : s ∈ rest) : IsSegment s :=
    hsegments s (List.mem_append_right _ hs)
  have hpath (s : String) (hs : s ∈ common ++ rest) : IsSegment s :=
    (List.mem_append.mp hs).elim (fun hs => hdirectory s (List.mem_append_left down hs))
      (hfurther s)
  have hne : common ++ rest ≠ [] := fun hnil => hrest (List.append_eq_nil_iff.mp hnil).2
  exact ⟨resolve_climb hdirectory hfurther hrest hlast hknown hsource,
    resolve_root hpath hne hlast hknown⟩

/-- Up two directories and down again, among paths that only an ending tells apart. -/
theorem resolve_known_lib_utils :
    let known := ["src/lib/utils.ts", "src/lib/utils", "src/lib/utils/index.ts", "lib/utils"]
    ((∀ s ∈ ["src"] ++ ["app", "pages"] ++ ["lib", "utils"], IsSegment s) ∧
      ["lib", "utils"] ≠ [] ∧ "src/lib/utils" ∈ known ∧
      Path.parent "src/app/pages/index.ts" = "src/app/pages") ∧
    resolve "../../lib/utils" "src/app/pages/index.ts" known = some "src/lib/utils" ∧
      resolve "@/src/lib/utils" "index.ts" known = some "src/lib/utils" := by
  intro known
  have hsegments : ∀ s ∈ ["src"] ++ ["app", "pages"] ++ ["lib", "utils"], IsSegment s := by decide
  have hknown : "src/lib/utils" ∈ known := by decide
  have hsource : Path.parent "src/app/pages/index.ts" = "src/app/pages" := rfl
  have hlast : ∀ c, (ofSegments (["src"] ++ ["lib", "utils"])).toList.getLast? = some c →
      isBlank c = false := by
    intro c hc
    obtain rfl := Option.some.inj hc
    decide
  have hreach := resolve_known known ["src"] ["app", "pages"] ["lib", "utils"]
    "src/app/pages/index.ts" hsegments (by decide) hlast hknown hsource
  exact ⟨⟨hsegments, by decide, hknown, hsource⟩, hreach.1, hreach.2 "index.ts"⟩

end Specifier

end RepoGraph
