import Mathlib.Algebra.Ring.Parity
import RepoGraph.Proofs.Reference.Extractor
import RepoGraph.Proofs.Reference.Search

/-!
# Import lines of Python

A pattern for lines begins at the beginning of a line, but its white space may run over line ends.
So a keyword that stands alone on a line takes the first word of the next line for a module, and
that word may be the keyword of an import. Only a keyword that stands alone (`StandsAlone`) gets
beyond its line in this way: `Pattern.Reads.findAll_append` says so for all patterns of a keyword
and something read after it. Keywords that stand alone one after another take each other two by two,
so it matters how many there are at the end of the lines before an import (`EndsAlone`).

`findAll_importLine` and `findAll_fromImportLine` say exactly what is found at an import after whole
lines: its own module, unless the lines end with an odd number of lines with `import` alone, or with
the word `from` alone where the module begins with `import`. `mem_references_importLine` puts this
together.
-/

namespace RepoGraph

open RepoGraph.Text

variable {keyword lead pre line gap word z : List Char} {c : Char}

/-! ## White space and words -/

/-- The text is white space, and not empty. -/
def IsGap (s : List Char) : Prop := s ≠ [] ∧ ∀ c ∈ s, isBlank c = true

instance (s : List Char) : Decidable (IsGap s) :=
  @instDecidableAnd _ _ _ (List.decidableBAll (fun c => isBlank c = true) s)

/-- The text does not go on with a word. -/
def EndsWord (s : List Char) : Prop := ∀ c, s.head? = some c → isBlank c = true

/-- A word without line feed at the front of whole lines is removed from these lines. -/
theorem after?_append_of_endsLine (hline : EndsLine line) (hne : line ≠ []) (hword : '\n' ∉ word)
    (tail : List Char) : after? word (line ++ tail) = (after? word line).map (· ++ tail) := by
  cases h : after? word (line ++ tail) with
  | some rest =>
    obtain ⟨line', rfl, -, rfl⟩ := exists_of_after?_append hline hne hword h
    rw [after?_append, Option.map_some]
  | none =>
    cases h' : after? word line with
    | none => rfl
    | some rest =>
      rw [eq_append_of_after? h', List.append_assoc, after?_append] at h
      cases h

/-- White space goes up to a character that is none. -/
theorem afterBlanks?_append (hc : isBlank c = false) (s z : List Char) :
    afterBlanks? (s ++ c :: z) = (afterBlanks? s).map (· ++ c :: z) := by
  cases s with
  | nil => simp [afterBlanks?, hc]
  | cons b s =>
    rw [List.cons_append, afterBlanks?, afterBlanks?, dropWhile_append_cons hc]
    split
    · rfl
    · rfl

/-- White space is what there is before the text after it. -/
theorem exists_isGap_of_afterBlanks? {s rest : List Char} (h : afterBlanks? s = some rest) :
    ∃ gap, IsGap gap ∧ s = gap ++ rest := by
  cases s with
  | nil => cases h
  | cons b s =>
    rw [afterBlanks?] at h
    split at h
    · rename_i hb
      obtain rfl := Option.some.inj h
      refine ⟨b :: s.takeWhile isBlank, ⟨List.cons_ne_nil _ _, ?_⟩, ?_⟩
      · exact List.forall_mem_cons.mpr ⟨hb, fun c hc => List.mem_takeWhile_imp hc⟩
      · rw [List.cons_append, List.takeWhile_append_dropWhile]
    · cases h

/-- All white space before another character is passed over. -/
theorem afterBlanks?_gap (hgap : IsGap gap) (hc : isBlank c = false) (z : List Char) :
    afterBlanks? (gap ++ c :: z) = some (c :: z) := by
  obtain ⟨b, s, rfl⟩ := List.exists_cons_of_ne_nil hgap.1
  obtain ⟨hb, hs⟩ := List.forall_mem_cons.mp hgap.2
  rw [List.cons_append, afterBlanks?, if_pos hb, dropWhile_append_cons hc,
    List.dropWhile_eq_nil_iff.mpr hs, List.nil_append]

/-- After white space alone there is nothing. -/
theorem afterBlanks?_of_isGap (hgap : IsGap gap) : afterBlanks? gap = some [] := by
  obtain ⟨b, s, rfl⟩ := List.exists_cons_of_ne_nil hgap.1
  obtain ⟨hb, hs⟩ := List.forall_mem_cons.mp hgap.2
  rw [afterBlanks?, if_pos hb, List.dropWhile_eq_nil_iff.mpr hs]

/-- A space is white space. -/
theorem isGap_space : IsGap [' '] := by decide

/-- White space ends a word. -/
theorem IsGap.endsWord (h : IsGap gap) (z : List Char) : EndsWord (gap ++ z) := by
  obtain ⟨b, s, rfl⟩ := List.exists_cons_of_ne_nil h.1
  intro c hc
  obtain rfl := Option.some.inj hc
  exact h.2 b List.mem_cons_self

/-- A word goes up to white space or the end of the text. -/
theorem word?_append (hword : IsSolid word) (hne : word ≠ []) {rest : List Char}
    (hrest : EndsWord rest) : word? (word ++ rest) = some (word, rest) := by
  have hsolid : ∀ c ∈ word, (!isBlank c) = true := fun c hc => by simp [hword c hc]
  have htake : rest.takeWhile (fun c => !isBlank c) = [] ∧
      rest.dropWhile (fun c => !isBlank c) = rest := by
    cases rest with
    | nil => exact ⟨rfl, rfl⟩
    | cons b rest =>
      have hb := hrest b rfl
      exact ⟨List.takeWhile_cons_of_neg (by simp [hb]), List.dropWhile_cons_of_neg (by simp [hb])⟩
  simp only [word?, List.takeWhile_append_of_pos hsolid, List.dropWhile_append_of_pos hsolid,
    htake.1, htake.2, List.append_nil]
  rw [if_neg (by simpa using hne)]

/-- A word at the front of a text is what stands there up to white space. -/
theorem word?_eq_some {s rest : List Char} (h : word? s = some (word, rest)) :
    s = word ++ rest ∧ word ≠ [] ∧ IsSolid word := by
  simp only [word?] at h
  split at h
  · cases h
  · rename_i hne
    obtain ⟨rfl, rfl⟩ := Prod.mk.inj (Option.some.inj h)
    refine ⟨List.takeWhile_append_dropWhile.symm, by simpa using hne, fun c hc => ?_⟩
    simpa using List.mem_takeWhile_imp hc

/-- A word before white space does not depend on what follows. -/
theorem word?_append_of_mem {s : List Char} (h : ∃ b ∈ s, isBlank b = true) (tail : List Char) :
    word? (s ++ tail) = (word? s).map fun found => (found.1, found.2 ++ tail) := by
  obtain ⟨b, hb, hblank⟩ := h
  have hrest : s.dropWhile (fun c => !isBlank c) ≠ [] := by
    rw [ne_eq, List.dropWhile_eq_nil_iff]
    exact fun hall => by simpa [hblank] using hall b hb
  have htake : (s ++ tail).takeWhile (fun c => !isBlank c) = s.takeWhile (fun c => !isBlank c) := by
    rw [List.takeWhile_append, if_neg]
    intro hlength
    have hsplit := congrArg List.length (List.takeWhile_append_dropWhile
      (p := fun c => !isBlank c) (l := s))
    rw [List.length_append, hlength] at hsplit
    exact hrest (List.length_eq_zero_iff.mp (by omega))
  have hdrop : (s ++ tail).dropWhile (fun c => !isBlank c) =
      s.dropWhile (fun c => !isBlank c) ++ tail := by
    rw [List.dropWhile_append, if_neg (by simpa using hrest)]
  simp only [word?, htake, hdrop]
  split
  · rfl
  · rfl

/-- In whole lines something comes after a word. -/
theorem EndsLine.ne_nil_of_append {rest : List Char} (h : EndsLine (word ++ rest))
    (hne : word ≠ []) (hword : '\n' ∉ word) : rest ≠ [] := by
  rintro rfl
  rw [List.append_nil] at h
  obtain ⟨line, rfl⟩ := h.exists_eq_append hne
  exact hword (List.mem_append_right line List.mem_cons_self)

/-- There is white space at the end of whole lines. -/
theorem EndsLine.exists_isBlank (h : EndsLine line) (hne : line ≠ []) :
    ∃ b ∈ line, isBlank b = true := by
  obtain ⟨front, rfl⟩ := h.exists_eq_append hne
  exact ⟨'\n', List.mem_append_right front List.mem_cons_self, by decide⟩

/-- A word without white space has no line feed. -/
theorem IsSolid.feed_notMem (h : IsSolid word) : '\n' ∉ word := fun hmem => by
  have hfeed := h '\n' hmem
  cases hfeed

/-! ## Keywords that stand alone -/

/-- After some lines the text goes on with the keyword on a line of its own, and nothing else than
white space. -/
def StandsAlone (keyword lead pre : List Char) : Prop :=
  EndsLine lead ∧ ∃ gap, IsGap gap ∧ pre = lead ++ (keyword ++ gap)

/-- The text ends with so many lines, and no more, that hold the keyword alone, blank lines
aside. -/
inductive EndsAlone (keyword : List Char) : Nat → List Char → Prop
  /-- The text does not end with such a line. -/
  | zero {pre : List Char} (h : ∀ lead, ¬StandsAlone keyword lead pre) : EndsAlone keyword 0 pre
  /-- There is one more such line than in what comes before it. -/
  | succ {n : Nat} {lead pre : List Char} (h : StandsAlone keyword lead pre)
      (hlead : EndsAlone keyword n lead) : EndsAlone keyword (n + 1) pre

/-- Every text ends with some number of lines that hold the keyword alone. -/
theorem exists_endsAlone (keyword pre : List Char) : ∃ n, EndsAlone keyword n pre := by
  induction hlength : pre.length using Nat.strong_induction_on generalizing pre with
  | _ n ih =>
    by_cases h : ∃ lead, StandsAlone keyword lead pre
    · obtain ⟨lead, hlead⟩ := h
      obtain ⟨gap, hgap, heq⟩ := hlead.2
      have hpos := List.length_pos_of_ne_nil hgap.1
      have hlt : lead.length < n := by
        rw [← hlength, heq, List.length_append, List.length_append]
        omega
      obtain ⟨k, hk⟩ := ih lead.length hlt lead rfl
      exact ⟨k + 1, .succ hlead hk⟩
    · exact ⟨0, .zero (not_exists.mp h)⟩

/-- The keyword is at the end of the text but for white space. -/
theorem StandsAlone.append_eq (h : StandsAlone keyword lead pre) (hkeyword : IsSolid keyword)
    (hne : keyword ≠ []) : lead ++ keyword = trimRight pre := by
  obtain ⟨-, gap, hgap, rfl⟩ := h
  obtain ⟨front, c, rfl⟩ := (List.eq_nil_or_concat' keyword).resolve_left hne
  have hc : isBlank c = false := hkeyword c (List.mem_append_right _ (List.mem_singleton.mpr rfl))
  have happend : lead ++ (front ++ [c] ++ gap) = (lead ++ front) ++ c :: gap := by simp
  have hgap : gap.rdropWhile isBlank = [] := List.rdropWhile_eq_nil_iff.mpr hgap.2
  rw [happend, trimRight, dropRightWhile_append_cons hc, dropRightWhile_eq_rdropWhile, hgap,
    List.append_assoc]

/-- The number of lines that hold the keyword alone is known from the text. -/
theorem EndsAlone.unique {n m : Nat} (h : EndsAlone keyword n pre) (h' : EndsAlone keyword m pre)
    (hkeyword : IsSolid keyword) (hne : keyword ≠ []) : n = m := by
  induction h generalizing m with
  | zero hnone =>
    cases h' with
    | zero _ => rfl
    | succ hlead _ => exact absurd hlead (hnone _)
  | succ hlead _ ih =>
    cases h' with
    | zero hnone => exact absurd hlead (hnone _)
    | succ hlead' h' =>
      have heq := (hlead.append_eq hkeyword hne).trans (hlead'.append_eq hkeyword hne).symm
      rw [List.append_cancel_right heq] at ih
      rw [ih h']

/-- A line with the keyword alone, at the end of some lines, stands alone in them. -/
theorem StandsAlone.of_beginsLine (h : Pattern.BeginsLine true pre (keyword ++ gap))
    (hgap : IsGap gap) : ∃ lead, StandsAlone keyword lead pre := by
  obtain ⟨lead, hlead, heq⟩ := h.exists_endsLine
  exact ⟨lead, hlead, gap, hgap, heq⟩

/-! ## Statements with a keyword -/

/-- The pattern is a keyword at the beginning of a line, white space, and what is read after it. -/
structure Pattern.Reads (p : Pattern) (keyword : List Char)
    (read : List Char → Option (List Char × List Char)) : Prop where
  /-- The keyword begins a line. -/
  atLineStart : p.atLineStart = true
  /-- There is nothing else in a statement. -/
  recognise_eq (s : List Char) : p.recognise s = ((after? keyword s).bind afterBlanks?).bind read
  /-- There is no white space in the keyword. -/
  solid : IsSolid keyword
  /-- There is a keyword. -/
  ne_nil : keyword ≠ []
  /-- In whole lines reading ends before the last line feed. -/
  read_endsLine (s : List Char) (found : List Char × List Char) (hs : EndsLine s)
    (h : read s = some found) : found.2 ≠ [] ∧ found.2 <:+ s

namespace Pattern.Reads

variable {p : Pattern} {read : List Char → Option (List Char × List Char)}
  (hp : p.Reads keyword read)

include hp

/-- Nothing is read in the empty text. -/
theorem read_nil : read [] = none := by
  rw [Option.eq_none_iff_forall_ne_some]
  intro found hfound
  obtain ⟨hne, hsuffix⟩ := hp.read_endsLine [] found (.inl rfl) hfound
  exact hne (List.suffix_nil.mp hsuffix)

/-- No statement begins with white space. -/
theorem recognise_blank {b : Char} (hb : isBlank b = true) (s : List Char) :
    p.recognise (b :: s) = none := by
  obtain ⟨k, word, hkeyword⟩ := List.exists_cons_of_ne_nil hp.ne_nil
  have hk : isBlank k = false := hp.solid k (hkeyword ▸ List.mem_cons_self)
  have hne : k ≠ b := by
    rintro rfl
    rw [hb] at hk
    cases hk
  rw [hp.recognise_eq, hkeyword]
  simp [after?, hne]

/-- After the keyword and white space the rest is read. -/
theorem recognise_gap_append (hgap : IsGap gap) (hc : isBlank c = false) (z : List Char) :
    p.recognise (keyword ++ (gap ++ c :: z)) = read (c :: z) := by
  rw [hp.recognise_eq, after?_append, Option.bind_some, afterBlanks?_gap hgap hc, Option.bind_some]

/-- The keyword alone is no statement. -/
theorem recognise_gap (hgap : IsGap gap) : p.recognise (keyword ++ gap) = none := by
  rw [hp.recognise_eq, after?_append, Option.bind_some, afterBlanks?_of_isGap hgap,
    Option.bind_some, hp.read_nil]

/-- A statement in whole lines ends before the last line feed. -/
theorem recognise_endsLine (line : List Char) (found : List Char × List Char)
    (hline : EndsLine line) (h : p.recognise line = some found) :
    found.2 ≠ [] ∧ found.2 <:+ line ∧ found.2.length < line.length := by
  rw [hp.recognise_eq] at h
  obtain ⟨s, hs, hfound⟩ := Option.bind_eq_some_iff.mp h
  obtain ⟨t, ht, hblanks⟩ := Option.bind_eq_some_iff.mp hs
  obtain rfl := eq_append_of_after? ht
  obtain ⟨gap, hgap, rfl⟩ := exists_isGap_of_afterBlanks? hblanks
  have hsuffix : s <:+ keyword ++ (gap ++ s) :=
    (List.suffix_append gap s).trans (List.suffix_append keyword _)
  obtain ⟨hne, hrest⟩ := hp.read_endsLine s found (hline.of_suffix hsuffix) hfound
  have hlength := hrest.length_le
  have hpos := List.length_pos_of_ne_nil hgap.1
  refine ⟨hne, hrest.trans hsuffix, ?_⟩
  rw [List.length_append, List.length_append]
  omega

/-- White space before other text is passed over. -/
theorem findFrom_gap (hgap : IsGap gap) (hends : EndsLine gap) (fresh : Bool) (z : List Char) :
    p.findFrom fresh (gap ++ z) = p.findFrom true z := by
  obtain ⟨front, rfl⟩ := hends.exists_eq_append hgap.1
  have hblank : ∀ b ∈ front, isBlank b = true := fun b hb =>
    hgap.2 b (List.mem_append_left _ hb)
  clear hgap hends
  rw [List.append_assoc, List.singleton_append]
  induction front generalizing fresh with
  | nil =>
    rw [List.nil_append, Pattern.findFrom_cons_of_none fun _ => hp.recognise_blank (by decide) z]
    rfl
  | cons b front ih =>
    rw [List.forall_mem_cons] at hblank
    rw [List.cons_append, Pattern.findFrom_cons_of_none fun _ => hp.recognise_blank hblank.1 _,
      ih _ hblank.2]

/-- Nothing is found at a keyword that stands alone at the end of the text. -/
theorem findFrom_alone (hgap : IsGap gap) (hends : EndsLine gap) :
    p.findFrom true (keyword ++ gap) = [] := by
  have hblank := hp.findFrom_gap hgap hends false []
  rw [List.append_nil, Pattern.findFrom] at hblank
  have hnone := hp.recognise_gap hgap
  obtain ⟨k, word, hkeyword⟩ := List.exists_cons_of_ne_nil hp.ne_nil
  have hfeed := hp.solid.feed_notMem
  rw [hkeyword, List.mem_cons, not_or] at hfeed
  rw [hkeyword, List.cons_append] at hnone ⊢
  rw [Pattern.findFrom_cons_of_none fun _ => hnone, beq_false_of_ne (Ne.symm hfeed.1),
    Pattern.findFrom_false_append hp.atLineStart hfeed.2, hblank]

/-- A statement in whole lines does not depend on what follows, if what is read does not, unless the
keyword stands alone and is one of a statement with what follows. -/
theorem within (hline : EndsLine line) (hne : line ≠ []) (hc : isBlank c = false)
    (hread : ∀ s, EndsLine s → s ≠ [] →
      read (s ++ c :: z) = (read s).map fun found => (found.1, found.2 ++ c :: z))
    (halone : ∀ gap, IsGap gap → line = keyword ++ gap → read (c :: z) = none) :
    p.Within (c :: z) line := by
  rw [Pattern.Within, hp.recognise_eq, hp.recognise_eq,
    after?_append_of_endsLine hline hne hp.solid.feed_notMem]
  cases hafter : after? keyword line with
  | none => rfl
  | some s =>
    obtain rfl := eq_append_of_after? hafter
    rw [Option.map_some, Option.bind_some, Option.bind_some, afterBlanks?_append hc]
    cases hblanks : afterBlanks? s with
    | none => rfl
    | some t =>
      obtain ⟨gap, hgap, rfl⟩ := exists_isGap_of_afterBlanks? hblanks
      rw [Option.map_some, Option.bind_some, Option.bind_some]
      by_cases ht : t = []
      · subst ht
        rw [List.nil_append, halone gap hgap (by rw [List.append_nil]), hp.read_nil]
        rfl
      · exact hread t (hline.of_suffix
          ((List.suffix_append gap t).trans (List.suffix_append keyword _))) ht

/-- What is found after whole lines, unless the keyword stands alone at their end and is one of a
statement with what follows. -/
theorem findAll_append (hpre : EndsLine pre) (hc : isBlank c = false)
    (hread : ∀ s, EndsLine s → s ≠ [] →
      read (s ++ c :: z) = (read s).map fun found => (found.1, found.2 ++ c :: z))
    (halone : ∀ lead, StandsAlone keyword lead pre → read (c :: z) = none) :
    p.findAll (pre ++ c :: z) = p.findAll pre ++ p.findFrom true (c :: z) := by
  refine Pattern.findFrom_append_of_within hp.atLineStart hp.recognise_endsLine hpre
    (fun _ => rfl) fun line hne hline => ?_
  obtain ⟨lead, -, heq⟩ := hline.exists_endsLine
  refine hp.within (hpre.of_suffix ⟨lead, heq.symm⟩) hne hc hread fun gap hgap hkeyword => ?_
  subst hkeyword
  obtain ⟨lead, hlead⟩ := StandsAlone.of_beginsLine hline hgap
  exact halone lead hlead

end Pattern.Reads

/-! ## The keyword `import` -/

/-- The keyword before a module. -/
def importWord : List Char := ['i', 'm', 'p', 'o', 'r', 't']

/-- An import of a module is the keyword and a word. -/
theorem reads_importLine : Pattern.importLine.Reads importWord word? where
  atLineStart := rfl
  recognise_eq _ := rfl
  solid := by decide
  ne_nil := by decide
  read_endsLine s found hs h := by
    obtain ⟨rfl, hne, hsolid⟩ := word?_eq_some h
    exact ⟨hs.ne_nil_of_append hne hsolid.feed_notMem, List.suffix_append found.1 found.2⟩

/-- The keyword, white space and a word are an import. -/
theorem recognise_importLine (hgap : IsGap gap) (hword : IsSolid word) (hne : word ≠ [])
    {rest : List Char} (hrest : EndsWord rest) :
    Pattern.importLine.recognise (importWord ++ (gap ++ (word ++ rest))) = some (word, rest) := by
  obtain ⟨c, cs, rfl⟩ := List.exists_cons_of_ne_nil hne
  rw [← word?_append hword hne hrest]
  exact reads_importLine.recognise_gap_append hgap (hword c List.mem_cons_self) _

/-- What is found after whole lines at a word that does not begin with white space: the word is the
module of an import before it if an odd number of keywords stands alone at the end of the lines, and
otherwise the search stands before it at the beginning of a line. -/
theorem findAll_importLine_append {n : Nat} (h : EndsAlone importWord n pre) (hpre : EndsLine pre)
    (hword : IsSolid word) (hne : word ≠ []) {rest : List Char} (hrest : EndsWord rest) :
    Pattern.importLine.findAll (pre ++ (word ++ rest)) =
      Pattern.importLine.findAll pre ++
        if Odd n then word :: Pattern.importLine.findFrom false rest
        else Pattern.importLine.findFrom true (word ++ rest) := by
  have hkeyword : IsSolid importWord := by decide
  induction h generalizing word rest with
  | zero h =>
    obtain ⟨c, word, rfl⟩ := List.exists_cons_of_ne_nil hne
    rw [if_neg (by decide)]
    exact reads_importLine.findAll_append hpre (hword c List.mem_cons_self)
      (fun s hs hne => word?_append_of_mem (hs.exists_isBlank hne) _)
      fun lead hlead => absurd hlead (h lead)
  | @succ n lead pre h _ ih =>
    obtain ⟨hlead, gap, hgap, rfl⟩ := h
    have hends : EndsLine gap := hpre.of_suffix
      ((List.suffix_append importWord gap).trans (List.suffix_append lead _))
    have hskip := reads_importLine.findFrom_gap hgap hends false
    -- The keyword is itself a word after the lines before it.
    have htext := ih hlead hkeyword (by decide) (hgap.endsWord (word ++ rest))
    have hlines := ih hlead hkeyword (by decide) (hgap.endsWord [])
    rw [hskip] at htext hlines
    rw [List.append_nil, Pattern.findFrom] at hlines
    rw [List.append_assoc, List.append_assoc, htext, hlines, List.append_assoc]
    refine congrArg _ ?_
    by_cases hn : Odd n
    · -- The keyword is the module of the one before it.
      rw [if_pos hn, if_pos hn, if_neg fun hsucc => (Nat.odd_add_one.mp hsucc) hn]
      rfl
    · -- The keyword takes the word for its module.
      rw [if_neg hn, if_neg hn, if_pos (Nat.odd_add_one.mpr hn),
        reads_importLine.findFrom_alone hgap hends, List.nil_append]
      refine Pattern.findFrom_of_recognise rfl (recognise_importLine hgap hword hne hrest) ?_
      have hpos := List.length_pos_of_ne_nil hne
      simp only [List.length_append]
      omega

/-- What is found at an import of a module after whole lines: the module, unless an odd number of
keywords stands alone at the end of the lines, the last of which takes the import's keyword for its
module. -/
theorem findAll_importLine {n : Nat} (h : EndsAlone importWord n pre) (hpre : EndsLine pre)
    {name : List Char} (hname : IsSolid name) (hne : name ≠ []) {rest : List Char}
    (hrest : EndsWord rest) :
    Pattern.importLine.findAll (pre ++ (importWord ++ ' ' :: (name ++ rest))) =
      Pattern.importLine.findAll pre ++
        (if Odd n then importWord else name) :: Pattern.importLine.findFrom false rest := by
  have hspace : EndsWord (' ' :: (name ++ rest)) := isGap_space.endsWord _
  rw [findAll_importLine_append h hpre (by decide) (by decide) hspace]
  refine congrArg _ ?_
  split
  · have hfeed : '\n' ∉ ' ' :: name := by
      rw [List.mem_cons, not_or]
      exact ⟨by decide, hname.feed_notMem⟩
    rw [← List.cons_append, Pattern.findFrom_false_append rfl hfeed]
  · refine Pattern.findFrom_of_recognise rfl
      (recognise_importLine isGap_space hname hne hrest) ?_
    simp only [List.length_append, List.length_cons]
    omega

/-! ## The keyword `from` -/

/-- The keyword before a module of which names are imported. -/
def fromWord : List Char := ['f', 'r', 'o', 'm']

/-- A module, white space and the keyword `import`. -/
def moduleImport? (s : List Char) : Option (List Char × List Char) :=
  (word? s).bind fun found =>
    ((afterBlanks? found.2).bind (after? importWord)).map fun rest => (found.1, rest)

/-- An import of names is the keyword, white space, and a module with the keyword `import`. -/
theorem fromImport?_eq (s : List Char) :
    fromImport? s = ((after? fromWord s).bind afterBlanks?).bind moduleImport? := by
  change _ = ((after? ['f', 'r', 'o', 'm'] s).bind afterBlanks?).bind moduleImport?
  unfold fromImport?
  cases (after? ['f', 'r', 'o', 'm'] s).bind afterBlanks? with
  | none => rfl
  | some t =>
    rw [Option.bind_some, Option.bind_some, moduleImport?]
    cases word? t with
    | none => rfl
    | some found => rfl

/-- A module is followed by the keyword `import` if the text after the white space begins with
it. -/
theorem moduleImport?_append (hword : IsSolid word) (hne : word ≠ []) (hgap : IsGap gap)
    (hc : isBlank c = false) (z : List Char) :
    moduleImport? (word ++ (gap ++ c :: z)) =
      (after? importWord (c :: z)).map fun rest => (word, rest) := by
  rw [moduleImport?, word?_append hword hne (hgap.endsWord _), Option.bind_some,
    afterBlanks?_gap hgap hc, Option.bind_some]

/-- A module alone is not followed by the keyword. -/
theorem moduleImport?_gap (hword : IsSolid word) (hne : word ≠ []) (hgap : IsGap gap) :
    moduleImport? (word ++ gap) = none := by
  have hends := hgap.endsWord []
  rw [List.append_nil] at hends
  rw [moduleImport?, word?_append hword hne hends, Option.bind_some, afterBlanks?_of_isGap hgap]
  rfl

/-- A module and the keyword `import` in whole lines end before the last line feed. -/
theorem moduleImport?_endsLine (s : List Char) (found : List Char × List Char) (hs : EndsLine s)
    (h : moduleImport? s = some found) : found.2 ≠ [] ∧ found.2 <:+ s := by
  obtain ⟨⟨module, u⟩, hu, hfound⟩ := Option.bind_eq_some_iff.mp h
  obtain ⟨rest, hrest, rfl⟩ := Option.map_eq_some_iff.mp hfound
  obtain ⟨v, hv, hrest⟩ := Option.bind_eq_some_iff.mp hrest
  obtain rfl := eq_append_of_after? hrest
  obtain ⟨gap, -, hgap⟩ := exists_isGap_of_afterBlanks? hv
  obtain ⟨rfl, -, -⟩ := word?_eq_some hu
  have hkeyword : importWord ++ rest <:+ module ++ u :=
    .trans ⟨gap, hgap.symm⟩ (List.suffix_append module u)
  exact ⟨(hs.of_suffix hkeyword).ne_nil_of_append (by decide) (by decide),
    (List.suffix_append importWord rest).trans hkeyword⟩

/-- An import of names is the keyword, and a module with the keyword `import`. -/
theorem reads_fromImportLine : Pattern.fromImportLine.Reads fromWord moduleImport? where
  atLineStart := rfl
  recognise_eq := fromImport?_eq
  solid := by decide
  ne_nil := by decide
  read_endsLine := moduleImport?_endsLine

/-- A module and the keyword `import` in whole lines do not depend on what follows, if that cannot
be the keyword. -/
theorem moduleImport?_append_of_endsLine (hline : EndsLine line) (hne : line ≠ [])
    (hc : isBlank c = false) (hi : c ≠ 'i') (z : List Char) :
    moduleImport? (line ++ c :: z) =
      (moduleImport? line).map fun found => (found.1, found.2 ++ c :: z) := by
  rw [moduleImport?, moduleImport?, word?_append_of_mem (hline.exists_isBlank hne)]
  cases hword : word? line with
  | none => rfl
  | some found =>
    obtain ⟨module, s⟩ := found
    obtain ⟨rfl, -, -⟩ := word?_eq_some hword
    have hs : EndsLine s := hline.of_suffix (List.suffix_append module s)
    rw [Option.map_some, Option.bind_some, Option.bind_some, afterBlanks?_append hc]
    cases hblanks : afterBlanks? s with
    | none => rfl
    | some t =>
      obtain ⟨gap, -, rfl⟩ := exists_isGap_of_afterBlanks? hblanks
      rw [Option.map_some, Option.bind_some, Option.bind_some]
      by_cases ht : t = []
      · subst ht
        have hkeyword : after? importWord (c :: z) = none := by
          simp [importWord, after?, Ne.symm hi]
        rw [List.nil_append, hkeyword]
        rfl
      · rw [after?_append_of_endsLine (hs.of_suffix (List.suffix_append gap t)) ht (by decide)]
        cases after? importWord t with
        | none => rfl
        | some rest => rfl

/-- What is found after whole lines, unless the keyword stands alone at their end and what follows
is a module and the keyword `import`. -/
theorem findAll_fromImportLine_append (hpre : EndsLine pre) (hc : isBlank c = false) (hi : c ≠ 'i')
    (halone : ∀ lead, StandsAlone fromWord lead pre → moduleImport? (c :: z) = none) :
    Pattern.fromImportLine.findAll (pre ++ c :: z) =
      Pattern.fromImportLine.findAll pre ++ Pattern.fromImportLine.findFrom true (c :: z) :=
  reads_fromImportLine.findAll_append hpre hc
    (fun _ hs hne => moduleImport?_append_of_endsLine hs hne hc hi z) halone

section

variable {name rest : List Char} (hname : IsSolid name) (hne : name ≠ [])

include hname hne

/-- The keyword `from`, white space, a module and the keyword `import` are an import of names. -/
theorem recognise_fromImportLine :
    Pattern.fromImportLine.recognise (fromWord ++ ' ' :: (name ++ ' ' :: (importWord ++ rest))) =
      some (name, rest) := by
  have hmodule : moduleImport? (name ++ ([' '] ++ (importWord ++ rest))) = some (name, rest) := by
    refine (moduleImport?_append hname hne isGap_space (by decide) _).trans ?_
    show (after? importWord (importWord ++ rest)).map _ = _
    rw [after?_append, Option.map_some]
  obtain ⟨c, cs, rfl⟩ := List.exists_cons_of_ne_nil hne
  exact (reads_fromImportLine.recognise_gap_append isGap_space (hname c List.mem_cons_self)
    _).trans hmodule

/-- Where the keyword `from` is read as a module, the module after it is read as a keyword. -/
theorem moduleImport?_line :
    moduleImport? (fromWord ++ ' ' :: (name ++ ' ' :: (importWord ++ rest))) =
      (after? importWord (name ++ ' ' :: (importWord ++ rest))).map fun r => (fromWord, r) := by
  obtain ⟨c, cs, rfl⟩ := List.exists_cons_of_ne_nil hne
  exact moduleImport?_append (by decide) (by decide) isGap_space (hname c List.mem_cons_self) _

/-- An import of names after whole lines is found, unless the keyword stands alone at their end and
the module begins with `import`. -/
theorem findAll_fromImportLine_of_free (hpre : EndsLine pre)
    (hfree : ∀ lead, StandsAlone fromWord lead pre → ¬importWord <+: name) :
    Pattern.fromImportLine.findAll
        (pre ++ (fromWord ++ ' ' :: (name ++ ' ' :: (importWord ++ rest)))) =
      Pattern.fromImportLine.findAll pre ++
        name :: Pattern.fromImportLine.findFrom false rest := by
  have halone (lead : List Char) (hlead : StandsAlone fromWord lead pre) :
      moduleImport? (fromWord ++ ' ' :: (name ++ ' ' :: (importWord ++ rest))) = none := by
    rw [moduleImport?_line hname hne, Option.map_eq_none_iff,
      Option.eq_none_iff_forall_ne_some]
    intro r hr
    obtain ⟨more, hmore, -⟩ := eq_append_of_after?_cons (by decide) hr
    exact hfree lead hlead ⟨more, hmore.symm⟩
  have hlt : rest.length <
      (fromWord ++ ' ' :: (name ++ ' ' :: (importWord ++ rest))).length := by
    simp only [List.length_append, List.length_cons]
    omega
  refine (findAll_fromImportLine_append hpre (by decide) (by decide) halone).trans ?_
  exact congrArg _ (Pattern.findFrom_of_recognise rfl (recognise_fromImportLine hname hne) hlt)

/-- A keyword `from` that stands alone before an import of names from a module that begins with
`import` is found in its place. -/
theorem findAll_fromImportLine_of_standsAlone {lead more : List Char} (hpre : EndsLine pre)
    (hlead : StandsAlone fromWord lead pre) (hmore : name = importWord ++ more) :
    Pattern.fromImportLine.findAll
        (pre ++ (fromWord ++ ' ' :: (name ++ ' ' :: (importWord ++ rest)))) =
      Pattern.fromImportLine.findAll pre ++
        fromWord :: Pattern.fromImportLine.findFrom false rest := by
  obtain ⟨hends, gap, hgap, rfl⟩ := hlead
  have hkeyword : IsSolid fromWord := by decide
  have hgapEnds : EndsLine gap := hpre.of_suffix
    ((List.suffix_append fromWord gap).trans (List.suffix_append lead _))
  -- The keyword that stands alone is no module before an import, whatever keyword comes before it.
  have hfind (z : List Char) (hz : moduleImport? (fromWord ++ z) = none) :
      Pattern.fromImportLine.findAll (lead ++ (fromWord ++ z)) =
        Pattern.fromImportLine.findAll lead ++
          Pattern.fromImportLine.findFrom true (fromWord ++ z) :=
    findAll_fromImportLine_append hends (by decide) (by decide) fun _ _ => hz
  have htext := hfind (gap ++ (fromWord ++ ' ' :: (name ++ ' ' :: (importWord ++ rest))))
    (moduleImport?_append hkeyword (by decide) hgap (by decide) _)
  have hlines := hfind gap (moduleImport?_gap hkeyword (by decide) hgap)
  rw [reads_fromImportLine.findFrom_alone hgap hgapEnds, List.append_nil] at hlines
  have hmatch : Pattern.fromImportLine.recognise
      (fromWord ++ (gap ++ (fromWord ++ ' ' :: (name ++ ' ' :: (importWord ++ rest))))) =
        some (fromWord, more ++ ' ' :: (importWord ++ rest)) := by
    refine (reads_fromImportLine.recognise_gap_append hgap (by decide) _).trans ?_
    refine (moduleImport?_line hname hne).trans ?_
    rw [hmore, List.append_assoc, after?_append, Option.map_some]
  have hfeed : '\n' ∉ more ++ ' ' :: importWord := by
    rw [List.mem_append, not_or]
    refine ⟨fun hmem => hname.feed_notMem ?_, by decide⟩
    exact hmore ▸ List.mem_append_right importWord hmem
  have hrest : Pattern.fromImportLine.findFrom false (more ++ ' ' :: (importWord ++ rest)) =
      Pattern.fromImportLine.findFrom false rest := by
    have hskip : Pattern.fromImportLine.findFrom false (more ++ ' ' :: importWord ++ rest) =
        Pattern.fromImportLine.findFrom false rest := Pattern.findFrom_false_append rfl hfeed
    rwa [List.append_assoc, List.cons_append] at hskip
  rw [List.append_assoc, List.append_assoc]
  refine htext.trans (congrArg₂ _ hlines.symm ?_)
  refine (Pattern.findFrom_of_recognise rfl hmatch ?_).trans (congrArg _ hrest)
  rw [hmore]
  simp only [List.length_append, List.length_cons]
  omega

/-- What is found at an import of names after whole lines: the module, unless it begins with
`import` and the word `from` stands alone at the end of the lines, and then takes the keyword for a
module. -/
theorem findAll_fromImportLine {m : Nat} (h : EndsAlone fromWord m pre) (hpre : EndsLine pre)
    (rest : List Char) :
    Pattern.fromImportLine.findAll
        (pre ++ (fromWord ++ ' ' :: (name ++ ' ' :: (importWord ++ rest)))) =
      Pattern.fromImportLine.findAll pre ++
        (if 0 < m ∧ importWord <+: name then fromWord else name) ::
          Pattern.fromImportLine.findFrom false rest := by
  cases h with
  | zero hnone =>
    rw [if_neg fun h => Nat.not_lt_zero 0 h.1]
    exact findAll_fromImportLine_of_free hname hne hpre fun lead hlead => absurd hlead (hnone lead)
  | succ hlead _ =>
    by_cases himport : importWord <+: name
    · rw [if_pos ⟨Nat.succ_pos _, himport⟩]
      obtain ⟨more, hmore⟩ := himport
      exact findAll_fromImportLine_of_standsAlone hname hne hpre hlead hmore.symm
    · rw [if_neg fun h => himport h.2]
      exact findAll_fromImportLine_of_free hname hne hpre fun _ _ => himport

end

/-! ## References -/

/-- What is found in a file of Python at an import that begins a line, whatever stands before and
after the line. The pattern for imports of a module finds there the module, unless an odd number of
lines with `import` alone comes right before, and then the word `import`; the pattern for imports of
names finds the module, unless a line with `from` alone comes right before and the module begins
with `import`, and then the word `from`. All that is found otherwise is found before and after. So
the module is among the references, these cases apart. -/
theorem mem_references_importLine (path before name after : String)
    (hpath : Registry.standard.extractorFor path = .python) (hbefore : EndsLine before.toList)
    (hafter : EndsWord after.toList) (hne : name ≠ "") (hname : IsSolid name.toList)
    (hscheme : hasUrlScheme name.toList = false) :
    ∃ n m, EndsAlone importWord n before.toList ∧ EndsAlone fromWord m before.toList ∧
      Pattern.importLine.findAll (before ++ "import " ++ name ++ after).toList =
        Pattern.importLine.findAll before.toList ++
          (if Odd n then importWord else name.toList) ::
            Pattern.importLine.findFrom false after.toList ∧
      Pattern.fromImportLine.findAll (before ++ "from " ++ name ++ " import" ++ after).toList =
        Pattern.fromImportLine.findAll before.toList ++
          (if 0 < m ∧ importWord <+: name.toList then fromWord else name.toList) ::
            Pattern.fromImportLine.findFrom false after.toList ∧
      (¬Odd n →
        name ∈ (referencesOf path (before ++ "import " ++ name ++ after)).map (·.specifier)) ∧
      (¬(0 < m ∧ importWord <+: name.toList) →
        name ∈ (referencesOf path (before ++ "from " ++ name ++ " import" ++ after)).map
          (·.specifier)) := by
  have hchars : name.toList ≠ [] := by simpa using hne
  obtain ⟨n, hn⟩ := exists_endsAlone importWord before.toList
  obtain ⟨m, hm⟩ := exists_endsAlone fromWord before.toList
  have himport := findAll_importLine hn hbefore hname hchars hafter
  have hfrom := findAll_fromImportLine hname hchars hm hbefore after.toList
  have himportText : (before ++ "import " ++ name ++ after).toList =
      before.toList ++ (importWord ++ ' ' :: (name.toList ++ after.toList)) := by
    simp [importWord]
  have hfromText : (before ++ "from " ++ name ++ " import" ++ after).toList = before.toList ++
      (fromWord ++ ' ' :: (name.toList ++ ' ' :: (importWord ++ after.toList))) := by
    simp [fromWord, importWord]
  rw [← himportText] at himport
  rw [← hfromText] at hfrom
  refine ⟨n, m, hn, hm, himport, hfrom, fun heven => ?_, fun hfree => ?_⟩
  · refine Extractor.mem_specifiers_iff.mpr ⟨hscheme, (.imports, .importLine), ?_, ?_⟩
    · simp [hpath, Extractor.patterns]
    · rw [himport, if_neg heven]
      exact List.mem_append_right _ List.mem_cons_self
  · refine Extractor.mem_specifiers_iff.mpr ⟨hscheme, (.imports, .fromImportLine), ?_, ?_⟩
    · simp [hpath, Extractor.patterns]
    · rw [hfrom, if_neg hfree]
      exact List.mem_append_right _ List.mem_cons_self

/-- A module whose name begins with `import` is found after two lines with `import` alone. -/
theorem mem_references_importLine_after_two :
    (Registry.standard.extractorFor "x.py" = .python ∧ EndsLine "import\n\nimport\n".toList ∧
      EndsWord " as i".toList ∧ "importlib" ≠ "" ∧ IsSolid "importlib".toList ∧
      hasUrlScheme "importlib".toList = false) ∧
    "importlib" ∈ (referencesOf "x.py"
      ("import\n\nimport\n" ++ "import " ++ "importlib" ++ " as i")).map (·.specifier) ∧
    "importlib" ∈ (referencesOf "x.py"
      ("import\n\nimport\n" ++ "from " ++ "importlib" ++ " import" ++ " as i")).map
        (·.specifier) := by
  have hpath : Registry.standard.extractorFor "x.py" = .python := by decide +kernel
  have hbefore : EndsLine "import\n\nimport\n".toList := .inr ⟨"import\n\nimport".toList, rfl⟩
  have hafter : EndsWord " as i".toList := isGap_space.endsWord "as i".toList
  have hname : IsSolid "importlib".toList := by decide
  have hscheme : hasUrlScheme "importlib".toList = false := by decide
  have hkeyword : IsSolid importWord := by decide
  have htwo : EndsAlone importWord 2 "import\n\nimport\n".toList := by
    have hfirst : StandsAlone importWord [] "import\n\n".toList :=
      ⟨.inl rfl, ['\n', '\n'], by decide, rfl⟩
    have hsecond : StandsAlone importWord "import\n\n".toList "import\n\nimport\n".toList :=
      ⟨.inr ⟨"import\n".toList, rfl⟩, ['\n'], by decide, rfl⟩
    refine .succ hsecond (.succ hfirst (.zero fun lead h => ?_))
    exact absurd (List.append_eq_nil_iff.mp (h.append_eq hkeyword (by decide))).2 (by decide)
  have hzero : EndsAlone fromWord 0 "import\n\nimport\n".toList := by
    refine .zero fun lead h => ?_
    have hsuffix : fromWord <:+ trimRight "import\n\nimport\n".toList :=
      ⟨lead, h.append_eq (by decide) (by decide)⟩
    exact absurd hsuffix (by decide)
  obtain ⟨n, m, hn, hm, -, -, himport, hfrom⟩ := mem_references_importLine "x.py"
    "import\n\nimport\n" "importlib" " as i" hpath hbefore hafter (by decide) hname hscheme
  obtain rfl := hn.unique htwo hkeyword (by decide)
  obtain rfl := hm.unique hzero (by decide) (by decide)
  exact ⟨⟨hpath, hbefore, hafter, by decide, hname, hscheme⟩, himport (by decide),
    hfrom fun h => absurd h.1 (by decide)⟩

/-- An import of a module is missed after a line with `import` alone, and an import of names after a
line with `from` alone. -/
theorem notMem_references_after_keyword :
    (EndsLine "import\n".toList ∧ EndsLine "from\n".toList ∧ EndsWord "".toList ∧
      IsSolid "os".toList ∧ IsSolid "importlib".toList ∧ hasUrlScheme "os".toList = false ∧
      hasUrlScheme "importlib".toList = false) ∧
    "os" ∉ (referencesOf "x.py" ("import\n" ++ "import " ++ "os" ++ "")).map (·.specifier) ∧
    "importlib" ∉ (referencesOf "x.py" ("from\n" ++ "from " ++ "importlib" ++ " import" ++ "")).map
      (·.specifier) := by
  have hafter : EndsWord "".toList := nofun
  refine ⟨⟨.inr ⟨"import".toList, rfl⟩, .inr ⟨"from".toList, rfl⟩, hafter, by decide, by decide,
    by decide, by decide⟩, ?_, ?_⟩
  · decide +kernel
  · decide +kernel

end RepoGraph
