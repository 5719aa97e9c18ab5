import Mathlib.Data.List.Infix
import RepoGraph.Proofs.Text.Split
import RepoGraph.Reference.Resolution

/-!
# Where a specifier leads

The stem of a specifier is found by going through the segments of one text. The two passes that
clean this text up before take out segments that lead nowhere, and so do not matter
(`foldSegments_clean`). How far below the root segments lead is their `depth`, the names among them
less the ways up: there is no stem when the way goes above the root or ends there
(`stem?_eq_none_iff`), and otherwise the stem is a path of names (`isName_of_stem?`), which the
alias of the root leads back to (`stem?_root`). `stem?_is_fold` puts this together.
-/

namespace RepoGraph.Specifier

open RepoGraph.Text

variable {segment : List Char} {segments done more : List (List Char)}

/-! ## Segments -/

/-- The segment is a name: it is not empty, and neither stays in its directory nor goes up. -/
def IsName (segment : List Char) : Prop :=
  segment ≠ [] ∧ segment ≠ ['.'] ∧ segment ≠ ['.', '.']

instance : DecidablePred IsName := fun segment =>
  inferInstanceAs (Decidable (segment ≠ [] ∧ segment ≠ ['.'] ∧ segment ≠ ['.', '.']))

/-- How far below the root some segments lead: the names among them less the ways up. -/
def depth (segments : List (List Char)) : Int :=
  segments.countP (fun s => IsName s) - segments.count ['.', '.']

/-- A segment leads nowhere, goes up or is a name. -/
theorem segment_cases (segment : List Char) :
    (segment = [] ∨ segment = ['.']) ∨ segment = ['.', '.'] ∨ IsName segment := by
  unfold IsName
  tauto

/-- A segment that leads nowhere is passed over. -/
theorem walk_cons_of_idle (h : segment = [] ∨ segment = ['.']) :
    walk done (segment :: segments) = walk done segments := by
  conv_lhs => unfold walk
  rw [if_pos h]

/-- A name is gone to. -/
theorem walk_cons_of_isName (h : IsName segment) :
    walk done (segment :: segments) = walk (segment :: done) segments := by
  conv_lhs => unfold walk
  rw [if_neg (not_or.mpr ⟨h.1, h.2.1⟩), if_neg h.2.2]

/-- There is no way up from the root. -/
theorem walk_nil_cons_up : walk [] (['.', '.'] :: segments) = none := rfl

/-- Going up leaves out the last segment. -/
theorem walk_cons_cons_up : walk (segment :: done) (['.', '.'] :: segments) = walk done segments :=
  rfl

/-- Segments after others are gone through from where these lead. -/
theorem walk_append (done segments more : List (List Char)) :
    walk done (segments ++ more) = (walk done segments).bind fun reached => walk reached more := by
  induction segments generalizing done with
  | nil => rfl
  | cons segment segments ih =>
    rw [List.cons_append]
    rcases segment_cases segment with hidle | rfl | hname
    · rw [walk_cons_of_idle hidle, walk_cons_of_idle hidle, ih]
    · cases done with
      | nil => rfl
      | cons last above => rw [walk_cons_cons_up, walk_cons_cons_up, ih]
    · rw [walk_cons_of_isName hname, walk_cons_of_isName hname, ih]

/-- Names are gone to one after another. -/
theorem walk_of_isName (h : ∀ s ∈ segments, IsName s) :
    walk done segments = some (segments.reverse ++ done) := by
  induction segments generalizing done with
  | nil => rfl
  | cons segment segments ih =>
    rw [List.forall_mem_cons] at h
    rw [walk_cons_of_isName h.1, ih h.2, List.reverse_cons, List.append_assoc,
      List.singleton_append]

/-- Where segments lead there are only names, and only such as were there. -/
theorem isName_of_mem_walk (h : walk done segments = some more)
    (hdone : ∀ s ∈ done, IsName s) : ∀ s ∈ more, IsName s ∧ (s ∈ done ∨ s ∈ segments) := by
  induction segments generalizing done with
  | nil =>
    obtain rfl := Option.some.inj h
    exact fun s hs => ⟨hdone s hs, .inl hs⟩
  | cons segment segments ih =>
    rcases segment_cases segment with hidle | rfl | hname
    · rw [walk_cons_of_idle hidle] at h
      intro s hs
      obtain ⟨hs', hmem⟩ := ih h hdone s hs
      exact ⟨hs', hmem.imp_right (List.mem_cons_of_mem segment)⟩
    · cases done with
      | nil => cases h
      | cons last above =>
        rw [walk_cons_cons_up] at h
        intro s hs
        obtain ⟨hs', hmem⟩ := ih h (List.forall_mem_cons.mp hdone).2 s hs
        exact ⟨hs', hmem.imp (List.mem_cons_of_mem last) (List.mem_cons_of_mem _)⟩
    · rw [walk_cons_of_isName hname] at h
      intro s hs
      obtain ⟨hs', hmem⟩ := ih h (List.forall_mem_cons.mpr ⟨hname, hdone⟩) s hs
      refine ⟨hs', ?_⟩
      rw [List.mem_cons] at hmem ⊢
      tauto

/-! ## Depth -/

/-- A segment that leads nowhere does not count. -/
theorem depth_cons_of_idle (h : segment = [] ∨ segment = ['.']) :
    depth (segment :: segments) = depth segments := by
  rcases h with rfl | rfl
  · simp [depth, IsName]
  · simp [depth, IsName]

/-- A way up counts against a name. -/
theorem depth_cons_up : depth (['.', '.'] :: segments) = depth segments - 1 := by
  simp [depth, IsName]
  omega

/-- A name counts once. -/
theorem depth_cons_of_isName (h : IsName segment) :
    depth (segment :: segments) = depth segments + 1 := by
  simp [depth, h, List.count_cons_of_ne h.2.2]
  omega

/-- The depth is the number of segments below the root. -/
theorem length_walk (h : walk done segments = some more) :
    (more.length : Int) = done.length + depth segments := by
  induction segments generalizing done with
  | nil =>
    obtain rfl := Option.some.inj h
    simp [depth]
  | cons segment segments ih =>
    rcases segment_cases segment with hidle | rfl | hname
    · rw [walk_cons_of_idle hidle] at h
      rw [depth_cons_of_idle hidle, ih h]
    · cases done with
      | nil => cases h
      | cons last above =>
        rw [walk_cons_cons_up] at h
        rw [depth_cons_up, ih h, List.length_cons]
        omega
    · rw [walk_cons_of_isName hname] at h
      rw [depth_cons_of_isName hname, ih h, List.length_cons]
      omega

/-- Segments lead nowhere exactly when some of them, from the first one on, lead above the root. -/
theorem walk_eq_none_iff :
    walk done segments = none ↔ ∃ front, front <+: segments ∧ done.length + depth front < 0 := by
  induction segments generalizing done with
  | nil =>
    refine iff_of_false (fun h => by cases h) ?_
    rintro ⟨front, hfront, hdepth⟩
    rw [List.prefix_nil.mp hfront] at hdepth
    simp [depth] at hdepth
    omega
  | cons segment segments ih =>
    -- The way to no segment at all leads nowhere, so a way above the root has a first segment.
    have hfirst : (∃ front, front <+: segment :: segments ∧ done.length + depth front < 0) ↔
        ∃ front, front <+: segments ∧ done.length + depth (segment :: front) < 0 := by
      constructor
      · rintro ⟨front, hfront, hdepth⟩
        rcases List.prefix_cons_iff.mp hfront with rfl | ⟨front, rfl, -⟩
        · simp [depth] at hdepth
          omega
        · exact ⟨front, (List.prefix_cons_inj segment).mp hfront, hdepth⟩
      · rintro ⟨front, hfront, hdepth⟩
        exact ⟨segment :: front, (List.prefix_cons_inj segment).mpr hfront, hdepth⟩
    rw [hfirst]
    rcases segment_cases segment with hidle | rfl | hname
    · simp only [walk_cons_of_idle hidle, depth_cons_of_idle hidle, ih]
    · simp only [depth_cons_up]
      cases done with
      | nil =>
        refine iff_of_true walk_nil_cons_up ⟨[], List.nil_prefix, ?_⟩
        simp [depth]
      | cons last above =>
        rw [walk_cons_cons_up, ih]
        refine exists_congr fun front => and_congr_right fun _ => ?_
        rw [List.length_cons]
        omega
    · rw [walk_cons_of_isName hname, ih]
      refine exists_congr fun front => and_congr_right fun _ => ?_
      rw [depth_cons_of_isName hname, List.length_cons]
      omega

/-! ## Texts of segments -/

/-- What stands after a slash is gone through from where the text before it leads. -/
theorem walk_splitOn_append_cons (done : List (List Char)) (s t : List Char) :
    walk done (splitOn '/' (s ++ '/' :: t)) =
      (walk done (splitOn '/' s)).bind fun reached => walk reached (splitOn '/' t) := by
  rw [splitOn_append_cons, walk_append]

/-- A slash at the front leads nowhere. -/
theorem walk_splitOn_cons_slash (done : List (List Char)) (t : List Char) :
    walk done (splitOn '/' ('/' :: t)) = walk done (splitOn '/' t) := by
  rw [splitOn_cons_self, walk_cons_of_idle (.inl rfl)]

/-- Making every `/./` one slash does not change where a text leads. -/
theorem walk_dropCurrent (done : List (List Char)) (w s : List Char) :
    walk done (splitOn '/' (w ++ dropCurrent s)) = walk done (splitOn '/' (w ++ s)) := by
  induction s using dropCurrent.induct generalizing done w with
  | case1 cs ih =>
    have hcurrent (reached : List (List Char)) :
        walk reached (splitOn '/' ('.' :: '/' :: cs)) = walk reached (splitOn '/' cs) := by
      show walk reached (splitOn '/' (['.'] ++ '/' :: cs)) = _
      rw [walk_splitOn_append_cons]
      rfl
    rw [dropCurrent, walk_splitOn_append_cons, walk_splitOn_append_cons]
    simp only [hcurrent]
    exact congrArg _ (funext fun reached => ih reached [])
  | case2 c cs hne ih =>
    have hstep : dropCurrent (c :: cs) = c :: dropCurrent cs := by
      rw [dropCurrent]
      exact hne
    rw [hstep, List.append_cons, ih done (w ++ [c]), ← List.append_cons]
  | case3 => rfl

/-- Making every run of slashes one slash does not change where a text leads. -/
theorem walk_squeezeSlashes (done : List (List Char)) (w s : List Char) :
    walk done (splitOn '/' (w ++ squeezeSlashes s)) = walk done (splitOn '/' (w ++ s)) := by
  induction s generalizing done w with
  | nil => rfl
  | cons c cs ih =>
    rw [squeezeSlashes]
    split
    · rename_i hslashes
      obtain ⟨rfl, hhead⟩ := hslashes
      obtain ⟨cs, rfl⟩ : ∃ cs', cs = '/' :: cs' := List.head?_eq_some_iff.mp hhead
      rw [ih, walk_splitOn_append_cons, walk_splitOn_append_cons]
      simp only [walk_splitOn_cons_slash]
    · rw [List.append_cons, ih done (w ++ [c]), ← List.append_cons]

/-- The two passes before the segments are gone through do not matter. -/
theorem foldSegments_clean (s : List Char) :
    foldSegments (squeezeSlashes (dropCurrent s)) = foldSegments s := by
  have hsqueeze := walk_squeezeSlashes [] [] (dropCurrent s)
  have hdrop := walk_dropCurrent [] [] s
  rw [List.nil_append, List.nil_append] at hsqueeze hdrop
  rw [foldSegments, foldSegments, hsqueeze, hdrop]

/-! ## Stems -/

variable {specifier source stem : String}

/-- A stem is what the segments of the text lead to, unless that is the root. -/
theorem stem?_eq (specifier source : String) :
    stem? specifier source =
      ((foldSegments (joined specifier source)).filter (· ≠ [])).map String.ofList := by
  rw [stem?, foldSegments_clean]
  match foldSegments (joined specifier source) with
  | none => rfl
  | some [] => rfl
  | some (c :: cs) => rfl

/-- From the root a text leads to names without slashes. -/
theorem isName_of_walk {text : List Char} (h : walk [] (splitOn '/' text) = some done) :
    ∀ s ∈ done, IsName s ∧ '/' ∉ s := by
  intro s hs
  obtain ⟨hname, hmem⟩ := isName_of_mem_walk h (fun _ hnil => by cases hnil) s hs
  exact ⟨hname, notMem_of_mem_splitOn (hmem.resolve_left List.not_mem_nil)⟩

/-- A text that leads nowhere gives no stem. -/
theorem stem?_of_walk_eq_none (h : walk [] (splitOn '/' (joined specifier source)) = none) :
    stem? specifier source = none := by
  rw [stem?_eq, foldSegments, h]
  rfl

/-- The names that a text leads to make up the stem, if there is one at all. -/
theorem stem?_of_walk (h : walk [] (splitOn '/' (joined specifier source)) = some done) :
    stem? specifier source =
      if done = [] then none else some (String.ofList (joinWith '/' done.reverse)) := by
  rw [stem?_eq, foldSegments, h, Option.map_some]
  by_cases hdone : done = []
  · rw [hdone]
    rfl
  · have htext : joinWith '/' done.reverse ≠ [] :=
      joinWith_ne_nil (fun hnil => hdone (List.reverse_eq_nil_iff.mp hnil)) fun s hs =>
        (isName_of_walk h s (List.mem_reverse.mp hs)).1.1
    rw [if_neg hdone, Option.filter, if_pos (decide_eq_true htext), Option.map_some]

/-- There is no stem exactly when the segments lead above the root, or to the root. -/
theorem stem?_eq_none_iff :
    stem? specifier source = none ↔
      (∃ front, front <+: splitOn '/' (joined specifier source) ∧ depth front < 0) ∨
        depth (splitOn '/' (joined specifier source)) = 0 := by
  have habove : walk [] (splitOn '/' (joined specifier source)) = none ↔
      ∃ front, front <+: splitOn '/' (joined specifier source) ∧ depth front < 0 := by
    rw [walk_eq_none_iff]
    simp only [List.length_nil, Int.natCast_zero, Int.zero_add]
  rw [← habove]
  cases hwalk : walk [] (splitOn '/' (joined specifier source)) with
  | none => exact iff_of_true (stem?_of_walk_eq_none hwalk) (.inl rfl)
  | some done =>
    have hlength := length_walk hwalk
    rw [stem?_of_walk hwalk, or_iff_right (Option.some_ne_none done)]
    by_cases hdone : done = []
    · subst hdone
      rw [List.length_nil] at hlength
      exact iff_of_true (if_pos rfl) (by omega)
    · have hpos := List.length_pos_of_ne_nil hdone
      rw [List.length_nil] at hlength
      rw [if_neg hdone]
      exact iff_of_false (Option.some_ne_none _) (by omega)

/-- The segments of a stem are names. -/
theorem isName_of_stem? (h : stem? specifier source = some stem) :
    ∀ s ∈ splitOn '/' stem.toList, IsName s := by
  cases hwalk : walk [] (splitOn '/' (joined specifier source)) with
  | none =>
    rw [stem?_of_walk_eq_none hwalk] at h
    cases h
  | some done =>
    rw [stem?_of_walk hwalk] at h
    split at h
    · cases h
    · rename_i hdone
      have hnames := isName_of_walk hwalk
      rw [← Option.some.inj h, String.toList_ofList, splitOn_joinWith
        (fun hnil => hdone (List.reverse_eq_nil_iff.mp hnil)) fun s hs =>
          (hnames s (List.mem_reverse.mp hs)).2]
      exact fun s hs => (hnames s (List.mem_reverse.mp hs)).1

/-- After the alias of the root the text is what follows it. -/
theorem joined_root (stem source : String) : joined ("@/" ++ stem) source = stem.toList := by
  have hafter : after? rootAlias ("@/" ++ stem).toList = some stem.toList := by
    rw [String.toList_append]
    exact after?_append rootAlias stem.toList
  rw [joined, hafter]

/-- The alias of the root leads to every path of names. -/
theorem stem?_root (h : ∀ s ∈ splitOn '/' stem.toList, IsName s) (source : String) :
    stem? ("@/" ++ stem) source = some stem := by
  have hwalk : walk [] (splitOn '/' (joined ("@/" ++ stem) source)) =
      some (splitOn '/' stem.toList).reverse := by
    rw [joined_root, walk_of_isName h, List.append_nil]
  rw [stem?_of_walk hwalk,
    if_neg fun hnil => splitOn_ne_nil '/' _ (List.reverse_eq_nil_iff.mp hnil),
    List.reverse_reverse, joinWith_splitOn, String.ofList_toList]

/-- The stem of a specifier is what going through the segments of the joined text gives; there is
none exactly when these lead above the root at some point or to the root in the end; and a stem is a
path of names, which is the stem that it has itself after the alias of the root, in any file. -/
theorem stem?_is_fold (specifier source : String) :
    stem? specifier source =
        ((foldSegments (joined specifier source)).filter (· ≠ [])).map String.ofList ∧
      (stem? specifier source = none ↔
        (∃ front, front <+: splitOn '/' (joined specifier source) ∧ depth front < 0) ∨
          depth (splitOn '/' (joined specifier source)) = 0) ∧
      ∀ stem, stem? specifier source = some stem →
        stem ≠ "" ∧ (∀ s ∈ splitOn '/' stem.toList, IsName s) ∧
          ∀ other, stem? ("@/" ++ stem) other = some stem := by
  refine ⟨stem?_eq specifier source, stem?_eq_none_iff, fun stem hstem => ?_⟩
  have hnames := isName_of_stem? hstem
  refine ⟨?_, hnames, stem?_root hnames⟩
  -- The empty path has an empty segment.
  rintro rfl
  exact (hnames [] List.mem_cons_self).1 rfl

/-- A specifier with segments that lead nowhere next to a way up. -/
theorem stem?_is_fold_lib_utils :
    stem? "..//././lib/./utils" "app/page.tsx" = some "lib/utils" ∧
      stem? "@/lib/utils" "other.ts" = some "lib/utils" := by
  have hstem : stem? "..//././lib/./utils" "app/page.tsx" = some "lib/utils" := by
    rw [(stem?_is_fold _ _).1]
    rfl
  exact ⟨hstem, ((stem?_is_fold _ _).2.2 _ hstem).2.2 "other.ts"⟩

end RepoGraph.Specifier
