import RepoGraph.Proofs.Repository.Parts

/-!
# The path of a URL

Of what follows the authority of a URL, the path is what stands before the query and the fragment,
less the parameters of its last segment (`Url.pathOf`). If it begins with the names of an owner and
a repository, nothing that follows changes what it is the path of (`Repository.ofPath?_pathOf`), and
the names that are read of a path stand in it (`Repository.mem_path_of_ofPath?`).
-/

namespace RepoGraph

open RepoGraph.Text

namespace Url

variable {more : List Char}

/-- The path in what follows an authority. -/
def pathOf (rest : List Char) : List Char := dropParameters (before '?' (before '#' rest))

/-- The marks that end an authority are these. -/
theorem eq_of_endsAuthority {c : Char} (h : endsAuthority c = true) :
    c = '/' ∨ c = '?' ∨ c = '#' := by
  simpa [endsAuthority, or_assoc] using h

/-! ## Paths -/

/-- Parameters, query and fragment are cut off after a path with none of their marks. -/
theorem exists_before_append {path : List Char} (hquery : '?' ∉ path) (hfragment : '#' ∉ path)
    (hmore : IsEnd more) :
    ∃ rest, (∀ c ∈ rest.head?, c = '/') ∧
      before '?' (before '#' (path ++ more)) = path ++ rest := by
  have hkept {mark : Char} (h : mark ∉ path) (t : List Char) :
      before mark (path ++ t) = path ++ before mark t :=
    List.takeWhile_append_of_pos fun c hc => bne_iff_ne.mpr fun heq => h (heq ▸ hc)
  refine ⟨before '?' (before '#' more), ?_, by rw [hkept hfragment, hkept hquery]⟩
  cases more with
  | nil => nofun
  | cons c cs =>
    rcases eq_of_endsAuthority (hmore c rfl) with rfl | rfl | rfl
    · exact fun d hd => (Option.mem_some_iff.mp hd).symm
    · exact nofun
    · exact nofun

/-- Parameters are those of the last segment. -/
theorem dropParameters_append_cons {last : List Char} (h : '/' ∉ last) (path : List Char) :
    dropParameters (path ++ '/' :: last) = path ++ '/' :: before ';' last := by
  have hlength : (path ++ '/' :: last).length - last.length = (path ++ ['/']).length := by
    simp
    omega
  have hpath : path ++ '/' :: last = (path ++ ['/']) ++ last := by simp
  unfold dropParameters
  rw [afterLast_append_cons h]
  dsimp only
  rw [hlength, hpath, List.take_left, List.append_assoc, List.singleton_append]

/-- A path without semicolons is kept, and what follows from a slash on still begins with it. -/
theorem exists_dropParameters_append (path : List Char) {last : List Char} (hslash : '/' ∉ last)
    (hparameters : ';' ∉ last) (hmore : ∀ c ∈ more.head?, c = '/') :
    ∃ rest, (∀ c ∈ rest.head?, c = '/') ∧
      dropParameters (path ++ '/' :: (last ++ more)) = path ++ '/' :: (last ++ rest) := by
  cases more with
  | nil =>
    refine ⟨[], hmore, ?_⟩
    rw [List.append_nil, dropParameters_append_cons hslash]
    have hbefore := before_append (t := []) hparameters nofun
    rw [List.append_nil] at hbefore
    rw [hbefore]
  | cons c cs =>
    -- The last segment, and with it the parameters, lies in what follows.
    obtain rfl := hmore c rfl
    obtain ⟨front, back, heq, hback⟩ := exists_eq_append_cons_of_mem
      (List.mem_cons_self : '/' ∈ '/' :: cs)
    refine ⟨front ++ '/' :: before ';' back, fun c hc => ?_, ?_⟩
    · cases front with
      | nil => exact (Option.mem_some_iff.mp hc).symm
      | cons d ds =>
        rw [List.cons_append] at heq hc
        rw [(List.cons.inj heq).1]
        exact (Option.mem_some_iff.mp hc).symm
    · have happend : path ++ '/' :: (last ++ (front ++ '/' :: back)) =
          (path ++ '/' :: (last ++ front)) ++ '/' :: back := by simp
      rw [heq, happend, dropParameters_append_cons hback]
      simp

/-- What is left of a path without parameters stands in it. -/
theorem mem_of_mem_dropParameters {path : List Char} {c : Char} (h : c ∈ dropParameters path) :
    c ∈ path := by
  rcases List.mem_append.mp h with hfront | hlast
  · exact List.mem_of_mem_take hfront
  · have hmem := (List.takeWhile_sublist _).subset hlast
    exact List.mem_reverse.mp ((List.takeWhile_sublist _).subset (List.mem_reverse.mp hmem))

/-- In the path there is no mark of a query or a fragment. -/
theorem mem_pathOf {rest : List Char} {c : Char} (h : c ∈ pathOf rest) :
    c ∈ rest ∧ c ≠ '?' ∧ c ≠ '#' := by
  have hquery := mem_of_mem_dropParameters h
  have hfragment := (List.takeWhile_sublist _).subset hquery
  exact ⟨(List.takeWhile_sublist _).subset hfragment, by simpa using List.mem_takeWhile_imp hquery,
    by simpa using List.mem_takeWhile_imp hfragment⟩

end Url

namespace Repository

open Url

/-- The character may stand in the names of owners and repositories. -/
def isNameChar (c : Char) : Bool := c.isAlphanum || c == '.' || c == '_' || c == '-'

/-- The names of owners and repositories are not empty. -/
structure IsName (name : List Char) : Prop where
  ne_nil : name ≠ []
  chars : ∀ c ∈ name, isNameChar c = true

/-- A character of a name is visible. -/
theorem visible_of_isNameChar {c : Char} (h : isNameChar c = true) :
    0x20 < c.toNat ∧ c.toNat < 0x7F := by
  unfold isNameChar at h
  simp only [Bool.or_eq_true, beq_iff_eq, isAlphanum_iff] at h
  rcases h with ((h | rfl) | rfl) | rfl
  · omega
  all_goals decide

/-- A name has no marks in it. -/
theorem IsName.notMem {name : List Char} (h : IsName name) {c : Char}
    (hc : isNameChar c = false) : c ∉ name := by
  intro hmem
  rw [h.chars c hmem] at hc
  cases hc

/-- A path that begins with the names of an owner and a repository is that of the repository. -/
theorem ofPath?_append {owner name ending more : List Char} (howner : IsName owner)
    (hname : IsName name) (hends : ¬nameEnding <:+ name)
    (hending : ending = [] ∨ ending = nameEnding) (hmore : ∀ c ∈ more.head?, c = '/') :
    ofPath? ('/' :: (owner ++ '/' :: (name ++ ending ++ more))) =
      some ⟨String.ofList owner, String.ofList name⟩ := by
  have hfree : '/' ∉ name ++ ending := by
    refine List.not_mem_append (hname.notMem (by decide)) ?_
    rcases hending with rfl | rfl <;> decide
  have hdrop : ('/' :: (owner ++ '/' :: (name ++ ending ++ more))).dropWhile (· == '/') =
      owner ++ '/' :: (name ++ ending ++ more) := by
    obtain ⟨c, cs, rfl⟩ := List.exists_cons_of_ne_nil howner.ne_nil
    have hc : ¬(c == '/') = true := by
      intro heq
      rw [beq_iff_eq] at heq
      exact howner.notMem (by decide : isNameChar '/' = false) (heq ▸ List.mem_cons_self)
    rw [List.dropWhile_cons_of_pos (by decide), List.cons_append,
      List.dropWhile_cons_of_neg (p := (· == '/')) hc]
  have hpieces : ∃ pieces, splitOn '/' (name ++ ending ++ more) = (name ++ ending) :: pieces := by
    cases more with
    | nil => exact ⟨[], by rw [List.append_nil, splitOn_of_notMem hfree]⟩
    | cons c cs =>
      refine ⟨splitOn '/' cs, ?_⟩
      rw [hmore c rfl, splitOn_append_cons, splitOn_of_notMem hfree]
      rfl
  have hsuffix : dropSuffix nameEnding (name ++ ending) = name := by
    rcases hending with rfl | rfl
    · rw [List.append_nil, dropSuffix_of_not_suffix hends]
    · exact dropSuffix_append _ _
  obtain ⟨pieces, hpieces⟩ := hpieces
  have hempty : (owner.isEmpty || name.isEmpty) = false := by
    rw [List.isEmpty_eq_false_iff.mpr howner.ne_nil, List.isEmpty_eq_false_iff.mpr hname.ne_nil]
    rfl
  unfold ofPath?
  rw [hdrop, splitOn_append_cons, splitOn_of_notMem (howner.notMem (by decide)), hpieces,
    List.singleton_append]
  dsimp only
  rw [hsuffix, hempty]
  rfl

/-- What follows the names of an owner and a repository in a URL does not count. -/
theorem ofPath?_pathOf {owner name ending more : List Char} (howner : IsName owner)
    (hname : IsName name) (hends : ¬nameEnding <:+ name)
    (hending : ending = [] ∨ ending = nameEnding) (hmore : IsEnd more) :
    ofPath? (pathOf ('/' :: (owner ++ '/' :: (name ++ ending ++ more)))) =
      some ⟨String.ofList owner, String.ofList name⟩ := by
  have hfree {c : Char} (hc : isNameChar c = false) : c ∉ name ++ ending := by
    refine List.not_mem_append (hname.notMem hc) ?_
    rcases hending with rfl | rfl
    · exact List.not_mem_nil
    · intro hmem
      have hchars : nameEnding.all isNameChar = true := by decide
      rw [List.all_eq_true.mp hchars c hmem] at hc
      cases hc
  have hpath {c : Char} (hc : isNameChar c = false) (hslash : c ≠ '/') :
      c ∉ '/' :: (owner ++ '/' :: (name ++ ending)) := by
    intro hmem
    rcases List.mem_cons.mp hmem with rfl | hmem
    · exact hslash rfl
    · rcases List.mem_append.mp hmem with howner' | hmem
      · exact howner.notMem hc howner'
      · rcases List.mem_cons.mp hmem with rfl | hmem
        · exact hslash rfl
        · exact hfree hc hmem
  have happend (t : List Char) : '/' :: (owner ++ '/' :: (name ++ ending ++ t)) =
      '/' :: (owner ++ '/' :: (name ++ ending)) ++ t := by simp
  obtain ⟨rest, hrest, hbefore⟩ := exists_before_append (hpath (by decide) (by decide))
    (hpath (by decide) (by decide)) hmore
  obtain ⟨rest', hrest', hdrop⟩ := exists_dropParameters_append ('/' :: owner)
    (hfree (by decide)) (hfree (by decide)) hrest
  have hpathOf : pathOf ('/' :: (owner ++ '/' :: (name ++ ending ++ more))) =
      '/' :: (owner ++ '/' :: (name ++ ending ++ rest')) := by
    rw [pathOf, happend, hbefore, ← happend]
    exact hdrop
  rw [hpathOf]
  exact ofPath?_append howner hname hends hending hrest'

/-- The names of the repository at a path are not empty, and made of characters of the path other
than slashes. -/
theorem mem_path_of_ofPath? {path : List Char} {r : Repository} (h : ofPath? path = some r) :
    ∀ name ∈ [r.owner.toList, r.name.toList], name ≠ [] ∧ ∀ c ∈ name, c ∈ path ∧ c ≠ '/' := by
  have hpiece {piece : List Char} (hmem : piece ∈ splitOn '/' (path.dropWhile (· == '/'))) :
      ∀ c ∈ piece, c ∈ path ∧ c ≠ '/' := by
    intro c hc
    have hfree := notMem_of_mem_splitOn hmem
    have hwithin := (infix_iff_exists_mem_splitOn hfree).mpr ⟨piece, hmem, List.infix_rfl⟩
    exact ⟨(List.dropWhile_sublist _).subset (hwithin.subset hc), fun heq => hfree (heq ▸ hc)⟩
  unfold ofPath? at h
  split at h
  · rename_i owner name rest hpieces
    rw [hpieces] at hpiece
    dsimp only at h
    split at h
    · cases h
    · rename_i hempty
      cases h
      rw [Bool.or_eq_true, not_or, List.isEmpty_iff, List.isEmpty_iff] at hempty
      intro text htext
      rw [String.toList_ofList, String.toList_ofList, List.mem_cons, List.mem_singleton] at htext
      rcases htext with rfl | rfl
      · exact ⟨hempty.1, hpiece List.mem_cons_self⟩
      · refine ⟨hempty.2, fun c hc => ?_⟩
        exact hpiece (List.mem_cons_of_mem _ List.mem_cons_self) c
          ((dropSuffix_isPrefix _ _).subset hc)
  · cases h

end Repository

end RepoGraph
