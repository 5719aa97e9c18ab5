import RepoGraph.Proofs.Repository.Path

/-!
# URLs of repositories

A URL that is spelled as one of a repository is read as that repository, whatever the letter case of
its scheme and its host, with or without user part, port and `.git`, and whatever follows
(`Parts.Spells`, `ofUrl?_of_spells`). Conversely, a text that is read as a repository is, without
tabs and line ends, a URL of the host of repositories (`exists_parts_of_ofUrl?`).
-/

namespace RepoGraph

open RepoGraph.Text

namespace Url

variable {s more : List Char}

/-! ## What is read of a text -/

/-- The text that is read: trimmed, and without tabs and line ends. -/
def clean (s : List Char) : List Char :=
  ((trim s).dropWhile (·.toNat ≤ 0x20)).filter (!isDropped ·)

/-- A mark that ends an authority is not dropped. -/
theorem IsEnd.filter (h : IsEnd s) : IsEnd (s.filter (!isDropped ·)) := by
  cases s with
  | nil => exact h
  | cons c cs =>
    have hc := h c rfl
    have hkept : (!isDropped c) = true := by
      rcases eq_of_endsAuthority hc with rfl | rfl | rfl <;> rfl
    rw [List.filter_cons_of_pos (p := (!isDropped ·)) hkept]
    exact fun d hd => Option.mem_some_iff.mp hd ▸ hc

/-- The characters are visible ones of ASCII. -/
def IsVisible (s : List Char) : Prop := ∀ c ∈ s, 0x20 < c.toNat ∧ c.toNat < 0x7F

/-- White space around is dropped, and what follows from a mark on still begins with the mark. -/
theorem exists_trim_eq {front head blanks : List Char} (hfront : IsBlank front)
    (hhead : ∀ c ∈ head, isBlank c = false) (hmore : IsEnd more) (hblanks : IsBlank blanks) :
    ∃ rest, IsEnd rest ∧ trim (front ++ (head ++ (more ++ blanks))) = head ++ rest := by
  rw [trim_append_of_blank hfront]
  cases more with
  | nil =>
    refine ⟨[], hmore, ?_⟩
    rw [List.nil_append, (IsTrimmed.of_forall hhead).trim_append hblanks, List.append_nil]
  | cons c cs =>
    have hc : isBlank c = false := by
      rcases eq_of_endsAuthority (hmore c rfl) with rfl | rfl | rfl <;> rfl
    have hleft : trimLeft head = head := by
      refine List.dropWhile_eq_self_iff.mpr fun hlength => ?_
      rw [hhead _ (List.getElem_mem hlength)]
      decide
    refine ⟨c :: trimRight (cs ++ blanks), hmore, ?_⟩
    rw [List.cons_append, trim_append_cons hc, hleft]

/-- Of a text that begins with visible characters, only what follows them is changed. -/
theorem clean_eq {head rest : List Char} (hhead : IsVisible head) (hne : head ≠ [])
    (htrim : trim s = head ++ rest) : clean s = head ++ rest.filter (!isDropped ·) := by
  have hkept : head.filter (!isDropped ·) = head := by
    refine List.filter_eq_self.mpr fun c hc => ?_
    have hlow := (hhead c hc).1
    simp only [isDropped, Bool.not_eq_true', Bool.or_eq_false_iff, beq_eq_false_iff_ne]
    refine ⟨⟨?_, ?_⟩, ?_⟩
    all_goals
      rintro rfl
      exact absurd hlow (by decide)
  have hfront : (head ++ rest).dropWhile (·.toNat ≤ 0x20) = head ++ rest := by
    obtain ⟨c, cs, rfl⟩ := List.exists_cons_of_ne_nil hne
    have hlow := (hhead c List.mem_cons_self).1
    exact List.dropWhile_cons_of_neg (by simpa using hlow)
  rw [clean, htrim, hfront, List.filter_append, hkept]

/-- A visible text is read as it is, and what follows it from a mark on still begins with the
mark. -/
theorem exists_clean_eq {front head blanks : List Char} (hfront : IsBlank front)
    (hhead : IsVisible head) (hne : head ≠ []) (hmore : IsEnd more) (hblanks : IsBlank blanks) :
    ∃ rest, IsEnd rest ∧ clean (front ++ (head ++ (more ++ blanks))) = head ++ rest := by
  have hblank : ∀ c ∈ head, isBlank c = false := fun c hc =>
    isBlank_of_visible (hhead c hc).1 (hhead c hc).2
  obtain ⟨rest, hrest, htrim⟩ := exists_trim_eq hfront hblank hmore hblanks
  exact ⟨rest.filter (!isDropped ·), hrest.filter, clean_eq hhead hne htrim⟩

/-- What is read of a text stands in it, without tabs and line ends, after white space and control
characters. -/
theorem exists_eq_append_clean (s : List Char) :
    ∃ front back, s.filter (!isDropped ·) = front ++ (clean s ++ back) ∧
      ∀ c ∈ front, isBlank c = true ∨ c.toNat ≤ 0x20 := by
  obtain ⟨blanks, back, heq, hblanks, -⟩ := exists_eq_append_trim s
  have htrim : (trim s).takeWhile (·.toNat ≤ 0x20) ++ (trim s).dropWhile (·.toNat ≤ 0x20) =
      trim s := List.takeWhile_append_dropWhile
  refine ⟨(blanks ++ (trim s).takeWhile (·.toNat ≤ 0x20)).filter (!isDropped ·),
    back.filter (!isDropped ·), ?_, fun c hc => ?_⟩
  · conv_lhs => rw [heq, ← htrim]
    simp only [clean, List.filter_append, List.append_assoc]
  · rcases List.mem_append.mp (List.mem_filter.mp hc).1 with hblank | hlow
    · exact .inl (hblanks c hblank)
    · exact .inr (by simpa using List.mem_takeWhile_imp hlow)

/-- What is read of a text, taken apart, tells the parts of the text. -/
theorem exists_isDivision {scheme authority tail : List Char}
    (hclean : clean s = scheme ++ ':' :: '/' :: '/' :: (authority ++ tail)) (hcolon : ':' ∉ scheme)
    (hauthority : ∀ c ∈ authority, endsAuthority c = false) (htail : IsEnd tail)
    (hne : tail ≠ []) :
    ∃ p : Parts, p.text = s.filter (!isDropped ·) ∧ p.IsDivision ∧ p.scheme = scheme ∧
      p.authority = authority := by
  obtain ⟨front, back, heq, hfront⟩ := exists_eq_append_clean s
  obtain ⟨p, rfl, rfl, rfl, hrest, hdivided⟩ :=
    Parts.exists_isDivided front scheme authority (tail ++ back)
  have hend : IsEnd p.rest := by
    rw [hrest, IsEnd, List.head?_append_of_ne_nil _ hne]
    exact htail
  refine ⟨p, ?_, ⟨hdivided, hfront, hcolon, hauthority, hend⟩, rfl, rfl⟩
  rw [heq, hclean, Parts.text, hrest]
  simp

/-! ## Spelling -/

/-- The character may stand in a user part. -/
def isUserChar (c : Char) : Bool :=
  0x20 < c.toNat && c.toNat < 0x7F && ['/', '?', '#', '[', ']'].all (· != c)

/-- The parts are spelled as those of the URL of a repository: scheme and host in any letter case,
perhaps a user part and a port, and the names, perhaps with an ending that does not count, with
anything after them and with white space around. -/
structure Parts.Spells (p : Parts) (owner name : List Char) : Prop where
  front : IsBlank p.front
  scheme : p.scheme.map Char.toLower ∈ Repository.schemes
  user : p.user = [] ∨ ∃ user, p.user = user ++ ['@'] ∧ ∀ c ∈ user, isUserChar c = true
  host : p.host.map Char.toLower = Repository.hostName
  port : p.port = [] ∨ ∃ port, p.port = ':' :: port ∧ ∀ c ∈ port, c.isAlphanum = true
  ownerName : Repository.IsName owner
  repositoryName : Repository.IsName name
  noEnding : ¬Repository.nameEnding <:+ name
  rest : ∃ ending more blanks,
    p.rest = '/' :: (owner ++ '/' :: (name ++ ending ++ (more ++ blanks))) ∧
      (ending = [] ∨ ending = Repository.nameEnding) ∧ IsEnd more ∧ IsBlank blanks

/-- A character of a name may stand in a user part. -/
theorem isUserChar_of_isNameChar {c : Char} (h : Repository.isNameChar c = true) :
    isUserChar c = true := by
  obtain ⟨hlow, hhigh⟩ := Repository.visible_of_isNameChar h
  have hmarks : ['/', '?', '#', '[', ']'].all (fun m => !Repository.isNameChar m) = true := by
    decide
  have hfree : ['/', '?', '#', '[', ']'].all (· != c) = true := by
    refine List.all_eq_true.mpr fun m hm => bne_iff_ne.mpr ?_
    rintro rfl
    have hmark := List.all_eq_true.mp hmarks m hm
    rw [h] at hmark
    cases hmark
  rw [isUserChar, hfree, decide_eq_true hlow, decide_eq_true hhigh]
  rfl

/-- A character of a user part is visible. -/
theorem visible_of_isUserChar {c : Char} (h : isUserChar c = true) :
    0x20 < c.toNat ∧ c.toNat < 0x7F := by
  rw [isUserChar, Bool.and_eq_true, Bool.and_eq_true, decide_eq_true_eq, decide_eq_true_eq] at h
  exact h.1

/-- The characters of the host of repositories may stand in names. -/
theorem isNameChar_of_hostName {name : List Char}
    (h : name.map Char.toLower = Repository.hostName) {c : Char} (hc : c ∈ name) :
    Repository.isNameChar c = true := by
  rcases isAlpha_of_hostName h hc with halpha | rfl
  · have halphanum : c.isAlphanum = true := by rw [Char.isAlphanum, halpha]; rfl
    rw [Repository.isNameChar, halphanum]
    rfl
  · rfl

namespace Parts.Spells

variable {p : Parts} {owner name : List Char}

/-- The authority is divided into its parts. -/
theorem isDivided (h : p.Spells owner name) : p.IsDivided where
  user := by
    rcases h.user with hnil | ⟨user, huser, -⟩
    · rw [hnil]
      exact nofun
    · rw [huser, List.getLast?_concat]
      exact fun c hc => (Option.mem_some_iff.mp hc).symm
  host := by
    constructor
    · exact fun hmem => absurd (isNameChar_of_hostName h.host hmem) (by decide)
    · exact fun hmem => absurd (isNameChar_of_hostName h.host hmem) (by decide)
  port := by
    rcases h.port with hnil | ⟨port, hport, hchars⟩
    · rw [hnil]
      exact ⟨List.not_mem_nil, nofun⟩
    · rw [hport]
      refine ⟨fun hmem => ?_, fun c hc => (Option.mem_some_iff.mp hc).symm⟩
      rcases List.mem_cons.mp hmem with heq | hmem
      · cases heq
      · exact absurd (hchars _ hmem) (by decide)

/-- The characters of the authority are visible, and none of them is a bracket or ends it. -/
theorem isUserChar_of_mem (h : p.Spells owner name) {c : Char} (hc : c ∈ p.authority) :
    isUserChar c = true := by
  rcases List.mem_append.mp hc with huser | hc
  · rcases h.user with hnil | ⟨user, heq, hchars⟩
    · rw [hnil] at huser
      cases huser
    · rw [heq] at huser
      rcases List.mem_append.mp huser with hmem | hmark
      · exact hchars c hmem
      · rw [List.mem_singleton.mp hmark]
        rfl
  · rcases List.mem_append.mp hc with hhost | hport
    · exact isUserChar_of_isNameChar (isNameChar_of_hostName h.host hhost)
    · rcases h.port with hnil | ⟨port, heq, hchars⟩
      · rw [hnil] at hport
        cases hport
      · rw [heq] at hport
        rcases List.mem_cons.mp hport with rfl | hmem
        · rfl
        · refine isUserChar_of_isNameChar ?_
          rw [Repository.isNameChar, hchars c hmem]
          rfl

/-- A character that may not stand in a user part is not in the authority. -/
theorem notMem_authority (h : p.Spells owner name) {c : Char} (hc : isUserChar c = false) :
    c ∉ p.authority := by
  intro hmem
  rw [h.isUserChar_of_mem hmem] at hc
  cases hc

/-- Nothing in the authority ends it. -/
theorem endsAuthority_of_mem (h : p.Spells owner name) {c : Char} (hc : c ∈ p.authority) :
    endsAuthority c = false := by
  rw [← Bool.not_eq_true]
  intro hend
  rcases eq_of_endsAuthority hend with rfl | rfl | rfl
  all_goals exact h.notMem_authority (by decide) hc

/-- The authority has no brackets, and no characters that hide a mark. -/
theorem fits (h : p.Spells owner name) :
    (bracketsFit p.authority && marksFit p.authority) = true := by
  have hopen : p.authority.contains '[' = false := by
    rw [← Bool.not_eq_true, List.contains_iff_mem]
    exact h.notMem_authority (by decide)
  have hclose : p.authority.contains ']' = false := by
    rw [← Bool.not_eq_true, List.contains_iff_mem]
    exact h.notMem_authority (by decide)
  have hlookalikes : markLookalikes.all (0x7F ≤ ·) = true := by decide
  have hmarks : marksFit p.authority = true := by
    refine List.all_eq_true.mpr fun c hc => ?_
    rw [Bool.not_eq_true', ← Bool.not_eq_true, List.contains_iff_mem]
    intro hmem
    have hhigh := (visible_of_isUserChar (h.isUserChar_of_mem hc)).2
    have hlow := of_decide_eq_true (List.all_eq_true.mp hlookalikes _ hmem)
    omega
  rw [bracketsFit, hopen, hclose, hmarks]
  rfl

/-- The scheme is made of letters. -/
theorem isAlpha_scheme (h : p.Spells owner name) {c : Char} (hc : c ∈ p.scheme) :
    c.isAlpha = true := by
  have hletters : Repository.schemes.all (fun scheme => scheme.all Char.isAlpha) = true := by decide
  have hscheme := List.all_eq_true.mp hletters _ h.scheme
  exact isAlpha_of_toLower (List.all_eq_true.mp hscheme _ (List.mem_map_of_mem hc))

/-- The scheme is taken off the front of a text that begins with it. -/
theorem takeScheme_eq (h : p.Spells owner name) (rest : List Char) :
    takeScheme (p.scheme ++ ':' :: rest) = (p.scheme.map Char.toLower, rest) := by
  have hnone : [] ∉ Repository.schemes := by decide
  have hne : p.scheme ≠ [] := by
    intro hnil
    have hscheme := h.scheme
    rw [hnil] at hscheme
    exact hnone hscheme
  obtain ⟨c, cs, hcons⟩ := List.exists_cons_of_ne_nil hne
  have hhead : p.scheme.head? = some c := by rw [hcons]; rfl
  have hc : c.isAlpha = true := h.isAlpha_scheme (List.mem_of_mem_head? hhead)
  refine takeScheme_append hhead hc (List.all_eq_true.mpr fun d hd => ?_) rest
  rw [isSchemeChar, Char.isAlphanum, h.isAlpha_scheme hd]
  rfl

/-- All of the URL up to what follows the names is visible. -/
theorem isVisible_append (h : p.Spells owner name) {ending : List Char}
    (hending : ending = [] ∨ ending = Repository.nameEnding) :
    IsVisible (p.scheme ++
      ':' :: '/' :: '/' :: (p.authority ++ '/' :: (owner ++ '/' :: (name ++ ending)))) := by
  have hname {text : List Char} (htext : Repository.IsName text) : IsVisible text :=
    fun c hc => Repository.visible_of_isNameChar (htext.chars c hc)
  have hchars : Repository.nameEnding.all Repository.isNameChar = true := by decide
  intro c hc
  simp only [List.mem_append, List.mem_cons] at hc
  rcases hc with hscheme | rfl | rfl | rfl | hauthority | rfl | howner | rfl | hname' | hend
  · have halpha := isAlpha_iff.mp (h.isAlpha_scheme hscheme)
    omega
  · decide
  · decide
  · decide
  · exact visible_of_isUserChar (h.isUserChar_of_mem hauthority)
  · decide
  · exact hname h.ownerName c howner
  · decide
  · exact hname h.repositoryName c hname'
  · rcases hending with rfl | rfl
    · cases hend
    · exact Repository.visible_of_isNameChar (List.all_eq_true.mp hchars c hend)

end Parts.Spells

end Url

namespace Repository

open Url

/-- What is read of a text decides whether it is the URL of a repository. -/
theorem ofUrl?_of_clean {url : String} {scheme rest authority tail : List Char}
    (hscheme : takeScheme (clean url.toList) = (scheme, rest))
    (hauthority : takeAuthority rest = (authority, tail)) :
    ofUrl? url =
      if (bracketsFit authority && marksFit authority) = true ∧
          scheme ∈ schemes ∧ Url.host ⟨scheme, authority, pathOf tail⟩ = hostName then
        ofPath? (pathOf tail) else none := by
  have hparse : parse? (trim url.toList) =
      if bracketsFit authority && marksFit authority then
        some ⟨scheme, authority, pathOf tail⟩ else none := by
    have hclean : ((trim url.toList).dropWhile (·.toNat ≤ 0x20)).filter (!isDropped ·) =
        clean url.toList := rfl
    unfold parse?
    rw [hclean]
    dsimp only
    rw [hscheme]
    dsimp only
    rw [hauthority]
    rfl
  rw [ofUrl?, hparse]
  by_cases hfit : (bracketsFit authority && marksFit authority) = true
  · rw [if_pos hfit]
    show (if schemes.contains scheme && Url.host ⟨scheme, authority, pathOf tail⟩ == hostName then
      ofPath? (pathOf tail) else none) = _
    simp only [hfit, true_and, Bool.and_eq_true, List.contains_iff_mem, beq_iff_eq]
  · rw [if_neg hfit, if_neg fun h => hfit h.1]
    rfl

/-- A URL that is spelled as one of a repository is read as that repository. -/
theorem ofUrl?_of_spells {p : Parts} {owner name : List Char} (h : p.Spells owner name) :
    ofUrl? (String.ofList p.text) = some ⟨String.ofList owner, String.ofList name⟩ := by
  obtain ⟨ending, more, blanks, hrest, hending, hmore, hblanks⟩ := h.rest
  have htext : p.text = p.front ++ ((p.scheme ++ ':' :: '/' :: '/' ::
      (p.authority ++ '/' :: (owner ++ '/' :: (name ++ ending)))) ++ (more ++ blanks)) := by
    rw [Parts.text, hrest]
    simp
  obtain ⟨rest, hend, hclean⟩ := exists_clean_eq h.front (h.isVisible_append hending)
    (List.append_ne_nil_of_right_ne_nil _ (List.cons_ne_nil _ _)) hmore hblanks
  have hclean : clean (String.ofList p.text).toList = p.scheme ++ ':' :: '/' :: '/' ::
      (p.authority ++ '/' :: (owner ++ '/' :: (name ++ ending ++ rest))) := by
    rw [String.toList_ofList, htext, hclean]
    simp
  have hslash : IsEnd ('/' :: (owner ++ '/' :: (name ++ ending ++ rest))) :=
    fun c hc => Option.mem_some_iff.mp hc ▸ rfl
  have hscheme := h.takeScheme_eq
    ('/' :: '/' :: (p.authority ++ '/' :: (owner ++ '/' :: (name ++ ending ++ rest))))
  have hauthority := takeAuthority_append (fun c hc => h.endsAuthority_of_mem hc) hslash
  have hbracket : '[' ∉ p.authority := h.notMem_authority (by decide)
  have hhost : Url.host ⟨p.scheme.map Char.toLower, p.authority,
      pathOf ('/' :: (owner ++ '/' :: (name ++ ending ++ rest)))⟩ = hostName := by
    rw [Url.host, h.isDivided.hostOf_eq hbracket, h.host]
  rw [ofUrl?_of_clean (by rw [hclean, hscheme]) hauthority, if_pos ⟨h.fits, h.scheme, hhost⟩]
  exact ofPath?_pathOf h.ownerName h.repositoryName h.noEnding hending hend

/-! ## Reading -/

/-- A name that is read of a URL is not empty, and has no tabs, no line ends and none of the marks
that would end it. -/
structure IsReadName (name : List Char) : Prop where
  ne_nil : name ≠ []
  free : ∀ c ∈ ['/', '?', '#', '\t', '\r', '\n'], c ∉ name

/-- The names that are read of what follows an authority. -/
theorem isReadName_of_ofPath? {tail : List Char} {r : Repository}
    (hclean : ∀ c ∈ tail, isDropped c = false) (h : ofPath? (pathOf tail) = some r) :
    IsReadName r.owner.toList ∧ IsReadName r.name.toList := by
  have hname : ∀ name ∈ [r.owner.toList, r.name.toList], IsReadName name := by
    intro name hmem
    obtain ⟨hne, hchars⟩ := mem_path_of_ofPath? h name hmem
    refine ⟨hne, fun c hc hin => ?_⟩
    obtain ⟨hpath, hslash⟩ := hchars c hin
    obtain ⟨htail, hquery, hfragment⟩ := mem_pathOf hpath
    have hkept := hclean c htail
    simp only [List.mem_cons, List.not_mem_nil, or_false] at hc
    rcases hc with rfl | rfl | rfl | rfl | rfl | rfl
    · exact hslash rfl
    · exact hquery rfl
    · exact hfragment rfl
    all_goals cases hkept
  exact ⟨hname _ List.mem_cons_self, hname _ (List.mem_cons_of_mem _ List.mem_cons_self)⟩

/-- A text that is read as a repository is, without tabs and line ends, a URL of the host of
repositories. -/
theorem exists_parts_of_ofUrl? {url : String} {r : Repository} (h : ofUrl? url = some r) :
    IsReadName r.owner.toList ∧ IsReadName r.name.toList ∧
      ∃ p : Parts, p.text = url.toList.filter (!isDropped ·) ∧ p.IsDivision ∧
        p.scheme.map Char.toLower ∈ schemes ∧ p.host.map Char.toLower = hostName := by
  obtain ⟨lower, below, hlower⟩ : ∃ a b, takeScheme (clean url.toList) = (a, b) := ⟨_, _, rfl⟩
  obtain ⟨authority, tail, hauthority⟩ : ∃ a b, takeAuthority below = (a, b) := ⟨_, _, rfl⟩
  rw [ofUrl?_of_clean hlower hauthority] at h
  split at h
  · rename_i hread
    obtain ⟨hfit, hscheme, hhost⟩ := hread
    have hlower_ne : lower ≠ [] := fun hnil => absurd (hnil ▸ hscheme) (by decide)
    have hauthority_ne : authority ≠ [] := by
      rintro rfl
      cases hhost
    obtain ⟨scheme, hclean, hcolon, rfl⟩ := exists_of_takeScheme hlower hlower_ne
    obtain ⟨rfl, hmarks, htail⟩ := eq_of_takeAuthority hauthority hauthority_ne
    have hkept : ∀ c ∈ tail, isDropped c = false := by
      intro c hc
      have hmem : c ∈ clean url.toList := by
        rw [hclean]
        simp [hc]
      simpa using (List.mem_filter.mp hmem).2
    have htail_ne : tail ≠ [] := by
      rintro rfl
      cases h
    obtain ⟨howner, hname⟩ := isReadName_of_ofPath? hkept h
    obtain ⟨p, htext, hp, rfl, rfl⟩ := exists_isDivision hclean hcolon hmarks htail htail_ne
    rw [Bool.and_eq_true] at hfit
    have hbracket := bracket_notMem_of_bracketsFit hfit.1 hhost
    rw [Url.host, hp.hostOf_eq hbracket] at hhost
    exact ⟨howner, hname, p, htext, hp, hscheme, hhost⟩
  · cases h

/-- Spelled as the URL of a repository, a text is read as that repository. Conversely, what is read
of a text are names without marks, tabs and line ends; and the text, without tabs and line ends, is
a URL with a scheme of repositories and with their host between the user part and the port. -/
theorem ofUrl?_parts (p : Parts) (owner name : List Char) (url : String) (r : Repository) :
    (p.Spells owner name →
      ofUrl? (String.ofList p.text) = some ⟨String.ofList owner, String.ofList name⟩) ∧
    (ofUrl? url = some r →
      IsReadName r.owner.toList ∧ IsReadName r.name.toList ∧
        ∃ q : Parts, q.text = url.toList.filter (!isDropped ·) ∧ q.IsDivision ∧
          q.scheme.map Char.toLower ∈ schemes ∧ q.host.map Char.toLower = hostName) :=
  ⟨fun h => ofUrl?_of_spells h, fun h => exists_parts_of_ofUrl? h⟩

/-- The parts of a URL with everything that may be spelled in it. -/
def demoParts : Parts where
  front := [' ']
  scheme := "HTTPS".toList
  user := "u1@".toList
  host := "GitHub.com".toList
  port := ":80".toList
  rest := "/acme/demo.git/tree?x ".toList

/-- A URL with everything that may be spelled in it is read as one of a repository. -/
theorem ofUrl?_parts_demo :
    demoParts.Spells "acme".toList "demo".toList ∧
      String.ofList demoParts.text = " HTTPS://u1@GitHub.com:80/acme/demo.git/tree?x " ∧
      ofUrl? (String.ofList demoParts.text) = some ⟨"acme", "demo"⟩ ∧
      IsReadName "acme".toList ∧ IsReadName "demo".toList := by
  have hspace : IsBlank [' '] := List.forall_mem_singleton.mpr (by decide)
  have hspells : demoParts.Spells "acme".toList "demo".toList :=
    { front := hspace
      scheme := by decide
      user := .inr ⟨"u1".toList, by decide, List.all_eq_true.mp (by decide)⟩
      host := by decide
      port := .inr ⟨"80".toList, by decide, List.all_eq_true.mp (by decide)⟩
      ownerName := ⟨by decide, List.all_eq_true.mp (by decide)⟩
      repositoryName := ⟨by decide, List.all_eq_true.mp (by decide)⟩
      noEnding := by decide
      rest := ⟨".git".toList, "/tree?x".toList, [' '], by decide, .inr (by decide),
        fun c hc => Option.mem_some_iff.mp hc ▸ rfl, hspace⟩ }
  obtain ⟨hspelled, hnames⟩ := ofUrl?_parts demoParts "acme".toList "demo".toList
    (String.ofList demoParts.text) ⟨"acme", "demo"⟩
  have hread := hspelled hspells
  obtain ⟨howner, hname, -⟩ := hnames hread
  exact ⟨hspells, by decide, hread, howner, hname⟩

end Repository

end RepoGraph
