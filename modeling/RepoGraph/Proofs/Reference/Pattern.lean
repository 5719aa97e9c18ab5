import Mathlib.Data.List.Infix
import Mathlib.Data.List.TakeWhile
import RepoGraph.Proofs.Text.Blank
import RepoGraph.Reference.Pattern

/-!
# Where statements end

A pattern may begin long before a given line, and its white space may run over line ends. Two facts
keep it from cutting the line in two. A word, a specifier and the gap before `from` hold no line
feed, so that a match that begins in earlier lines and gets into the given one has not used up
anything of it before its gap. And a line has only two quotes, so that whatever match uses them has
the specifier between them.

The proofs go along the functions of a pattern. Applied to `pre ++ tail`, where `pre` consists of
whole lines, each of them leaves an end of `pre` in front of all of `tail` (`fromClause?_append`),
except that the gap may go on into `tail` (`gapThenFrom?_append`). Applied to a text without quotes
before a quoted specifier, each of them fails or gives that specifier (`fromClause?_plain`,
`gapThenFrom?_plain`). `mem_findFrom_append` turns this into a statement about whole texts: a
pattern that finds a specifier in `tail` finds it after any whole lines.
-/

namespace RepoGraph

open RepoGraph.Text

variable {tail rest specifier : List Char} {found : List Char × List Char}

/-! ## Whole lines -/

/-- The text is empty or ends in a line feed. -/
def EndsLine (s : List Char) : Prop := s = [] ∨ ∃ line, s = line ++ ['\n']

/-- The end of whole lines is empty or ends in a line feed. -/
theorem EndsLine.of_suffix {pre pre' : List Char} (h : EndsLine pre) (hsuffix : pre' <:+ pre) :
    EndsLine pre' := by
  rcases h with rfl | ⟨line, rfl⟩
  · exact .inl (List.suffix_nil.mp hsuffix)
  · rcases List.suffix_concat_iff.mp hsuffix with rfl | ⟨line', rfl, -⟩
    · exact .inl rfl
    · exact .inr ⟨line', rfl⟩

/-- Lines of which there is at least a character end in a line feed. -/
theorem EndsLine.exists_eq_append {pre : List Char} (h : EndsLine pre) (hne : pre ≠ []) :
    ∃ line, pre = line ++ ['\n'] := h.resolve_left hne

/-! ## Words and white space -/

/-- A word without a character is removed from what stands before this character. -/
theorem eq_append_of_after?_cons {word front z : List Char} {d : Char} (hd : d ∉ word)
    (h : after? word (front ++ d :: z) = some rest) :
    ∃ front', front = word ++ front' ∧ rest = front' ++ d :: z := by
  rcases List.append_eq_append_iff.mp (eq_append_of_after? h) with
    ⟨more, hword, hrest⟩ | ⟨front', hfront, hrest⟩
  · -- The word does not reach beyond the character.
    cases more with
    | nil => exact ⟨[], by simpa using hword.symm, hrest.symm⟩
    | cons c more =>
      obtain ⟨rfl, -⟩ := List.cons.inj hrest
      exact absurd (hword ▸ List.mem_append_right front List.mem_cons_self) hd
  · exact ⟨front', hfront, hrest⟩

/-- A word without line feed is removed from the lines before a text. -/
theorem exists_of_after?_append {word pre : List Char} (hpre : EndsLine pre) (hne : pre ≠ [])
    (hword : '\n' ∉ word) (h : after? word (pre ++ tail) = some rest) :
    ∃ pre', pre = word ++ pre' ∧ pre' ≠ [] ∧ rest = pre' ++ tail := by
  obtain ⟨line, rfl⟩ := hpre.exists_eq_append hne
  rw [List.append_assoc, List.singleton_append] at h
  obtain ⟨line', rfl, rfl⟩ := eq_append_of_after?_cons hword h
  exact ⟨line' ++ ['\n'], by simp, by simp, by simp⟩

/-- White space that is required is dropped as well. -/
theorem afterBlanks?_append_cons {c : Char} (hc : isBlank c = false) {front z : List Char}
    (h : afterBlanks? (front ++ c :: z) = some rest) :
    ∃ front', front' <:+ front ∧ rest = front' ++ c :: z := by
  cases front with
  | nil => simp [afterBlanks?, hc] at h
  | cons b front =>
    rw [List.cons_append, afterBlanks?] at h
    split at h
    · obtain rfl := Option.some.inj h
      refine ⟨front.dropWhile isBlank, ?_, dropWhile_append_cons hc front z⟩
      exact (List.dropWhile_suffix isBlank).trans (List.suffix_cons b front)
    · cases h

/-! ## Matches that begin in earlier lines -/

/-- A quote closes on its line. -/
theorem untilQuote?_append {close line z : List Char} (hclose : '\n' ∉ close)
    (h : untilQuote? close (line ++ '\n' :: z) = some found) :
    ∃ line', line' <:+ line ∧ found.2 = line' ++ '\n' :: z := by
  induction line generalizing found with
  | nil =>
    rw [List.nil_append, untilQuote?] at h
    simp [isQuote] at h
  | cons c line ih =>
    rw [List.cons_append, untilQuote?] at h
    split at h
    · rename_i after hafter
      obtain rfl := Option.some.inj h
      split at hafter
      · obtain ⟨line', rfl, rfl⟩ := eq_append_of_after?_cons hclose hafter
        exact ⟨line', (List.suffix_append close line').trans (List.suffix_cons c _), rfl⟩
      · cases hafter
    · split at h
      · cases h
      · obtain ⟨found', hfound, rfl⟩ := Option.map_eq_some_iff.mp h
        obtain ⟨line', hsuffix, hrest⟩ := ih hfound
        exact ⟨line', hsuffix.trans (List.suffix_cons c line), hrest⟩

/-- A specifier that begins before a line ends before it. -/
theorem quotedSpecifier?_append {close pre : List Char} {c : Char} (hpre : EndsLine pre)
    (hclose : '\n' ∉ close) (hc : isQuote c = false)
    (h : quotedSpecifier? close (pre ++ c :: tail) = some found) :
    ∃ pre', pre' <:+ pre ∧ found.2 = pre' ++ c :: tail := by
  rcases hpre with rfl | ⟨line, rfl⟩
  · cases tail <;> simp [quotedSpecifier?, hc] at h
  rw [List.append_assoc, List.singleton_append] at h
  match line with
  | [] => simp [quotedSpecifier?, isQuote] at h
  | [q] => simp [quotedSpecifier?] at h
  | q :: d :: line =>
    rw [List.cons_append, List.cons_append, quotedSpecifier?] at h
    split at h
    · obtain ⟨found', hfound, rfl⟩ := Option.map_eq_some_iff.mp h
      obtain ⟨line', hsuffix, hrest⟩ := untilQuote?_append hclose hfound
      have hwhole : line' <:+ q :: d :: line :=
        hsuffix.trans ((List.suffix_cons d line).trans (List.suffix_cons q _))
      exact ⟨line' ++ ['\n'], List.suffix_concat_iff.mpr (.inr ⟨line', rfl, hwhole⟩),
        by simpa using hrest⟩
    · cases h

/-- A `from` clause that begins before a line ends before it, if the line does not begin with a
quote or with `f`. -/
theorem fromClause?_append {pre : List Char} {c : Char} (hpre : EndsLine pre)
    (hblank : isBlank c = false) (hquote : isQuote c = false) (hf : c ≠ 'f')
    (h : fromClause? (pre ++ c :: tail) = some found) :
    ∃ pre', pre' <:+ pre ∧ found.2 = pre' ++ c :: tail := by
  by_cases hne : pre = []
  · subst hne
    simp [fromClause?, after?, Ne.symm hf] at h
  unfold fromClause? at h
  obtain ⟨s, hs, h⟩ := Option.bind_eq_some_iff.mp h
  obtain ⟨t, ht, hs⟩ := Option.bind_eq_some_iff.mp hs
  -- The word, the white space and the specifier each leave an end of the earlier lines.
  obtain ⟨pre₁, rfl, -, rfl⟩ := exists_of_after?_append hpre hne (by decide) ht
  obtain ⟨pre₂, hsuffix₂, rfl⟩ := afterBlanks?_append_cons hblank hs
  have hsuffix : pre₂ <:+ ['f', 'r', 'o', 'm'] ++ pre₁ :=
    hsuffix₂.trans (List.suffix_append _ pre₁)
  obtain ⟨pre₃, hsuffix₃, hrest⟩ :=
    quotedSpecifier?_append (hpre.of_suffix hsuffix) List.not_mem_nil hquote h
  exact ⟨pre₃, hsuffix₃.trans hsuffix, hrest⟩

/-- A gap that begins before a line, and the clause after it, end before the line, or the gap goes
on in the line as if it began there. -/
theorem gapThenFrom?_append {pre : List Char} {c : Char} (hpre : EndsLine pre)
    (hblank : isBlank c = false) (hquote : isQuote c = false) (hf : c ≠ 'f')
    (h : gapThenFrom? (pre ++ c :: tail) = some found) :
    gapThenFrom? (c :: tail) = some found ∨ ∃ pre', pre' <:+ pre ∧ found.2 = pre' ++ c :: tail := by
  induction pre with
  | nil => exact .inl h
  | cons d pre ih =>
    have hpre' : EndsLine pre := hpre.of_suffix (List.suffix_cons d pre)
    -- Where the gap takes in one more character.
    have hlonger (h : gapThenFrom? (pre ++ c :: tail) = some found) :
        gapThenFrom? (c :: tail) = some found ∨
          ∃ pre', pre' <:+ d :: pre ∧ found.2 = pre' ++ c :: tail := by
      rcases ih hpre' h with hline | ⟨pre', hsuffix, hrest⟩
      · exact .inl hline
      · exact .inr ⟨pre', hsuffix.trans (List.suffix_cons d pre), hrest⟩
    rw [List.cons_append, gapThenFrom?] at h
    split at h
    · rw [dropWhile_append_cons hblank] at h
      split at h
      · rename_i found' hclause
        obtain rfl := Option.some.inj h
        have hdropped : pre.dropWhile isBlank <:+ pre := List.dropWhile_suffix isBlank
        obtain ⟨pre', hsuffix, hrest⟩ :=
          fromClause?_append (hpre'.of_suffix hdropped) hblank hquote hf hclause
        exact .inr ⟨pre', hsuffix.trans (hdropped.trans (List.suffix_cons d pre)), hrest⟩
      · split at h
        · cases h
        · exact hlonger h
    · exact hlonger h

/-- A statement that begins before a line ends before it, or its gap goes on in the line as if it
began there. -/
theorem keywordFrom?_append {keyword pre : List Char} {c : Char} (hpre : EndsLine pre)
    (hne : pre ≠ []) (hkeyword : '\n' ∉ keyword) (hblank : isBlank c = false)
    (hquote : isQuote c = false) (hf : c ≠ 'f')
    (h : keywordFrom? keyword (pre ++ c :: tail) = some found) :
    gapThenFrom? (c :: tail) = some found ∨
      ∃ pre₁ pre₂, pre = keyword ++ pre₁ ∧ pre₂ <:+ pre₁ ∧ found.2 = pre₂ ++ c :: tail := by
  unfold keywordFrom? at h
  split at h
  · rename_i b cs hafter
    obtain ⟨pre₁, rfl, hne₁, hcs⟩ := exists_of_after?_append hpre hne hkeyword hafter
    have hpre₁ : EndsLine pre₁ := hpre.of_suffix (List.suffix_append keyword pre₁)
    obtain ⟨b', pre₂, rfl⟩ := List.exists_cons_of_ne_nil hne₁
    rw [List.cons_append] at hcs
    obtain ⟨rfl, rfl⟩ := List.cons.inj hcs
    have hdropped : pre₂.dropWhile isBlank <:+ b :: pre₂ :=
      (List.dropWhile_suffix isBlank).trans (List.suffix_cons b pre₂)
    have hends : EndsLine (pre₂.dropWhile isBlank) := hpre₁.of_suffix hdropped
    split at h
    · simp only [dropWhile_append_cons hblank] at h
      split at h
      · rename_i found' hgap
        obtain rfl := Option.some.inj h
        rcases gapThenFrom?_append hends hblank hquote hf hgap with hline | ⟨pre', hsuffix, hrest⟩
        · exact .inl hline
        · exact .inr ⟨_, pre', rfl, hsuffix.trans hdropped, hrest⟩
      · split at h
        · obtain ⟨pre', hsuffix, hrest⟩ := fromClause?_append hends hblank hquote hf h
          exact .inr ⟨_, pre', rfl, hsuffix.trans hdropped, hrest⟩
        · cases h
    · cases h
  · cases h

/-- A call that begins before a line ends before it. -/
theorem requireCall?_append {pre : List Char} {c : Char} (hpre : EndsLine pre) (hne : pre ≠ [])
    (hquote : isQuote c = false) (h : requireCall? (pre ++ c :: tail) = some found) :
    ∃ pre₁ pre₂, pre = ['r', 'e', 'q', 'u', 'i', 'r', 'e', '('] ++ pre₁ ∧ pre₂ <:+ pre₁ ∧
      found.2 = pre₂ ++ c :: tail := by
  unfold requireCall? at h
  obtain ⟨s, hs, h⟩ := Option.bind_eq_some_iff.mp h
  obtain ⟨pre₁, rfl, -, rfl⟩ := exists_of_after?_append hpre hne (by decide) hs
  have hpre₁ : EndsLine pre₁ := hpre.of_suffix (List.suffix_append _ pre₁)
  obtain ⟨pre₂, hsuffix, hrest⟩ := quotedSpecifier?_append hpre₁ (by decide) hquote h
  exact ⟨pre₁, pre₂, rfl, hsuffix, hrest⟩

/-! ## Texts before a quoted specifier -/

/-- The text stays in its line and holds no quote. -/
def IsPlain (s : List Char) : Prop := ∀ c ∈ s, isQuote c = false ∧ c ≠ '\n'

-- The characters of the text are looked at, and not all characters that there are.
instance (s : List Char) : Decidable (IsPlain s) :=
  List.decidableBAll (fun c => isQuote c = false ∧ c ≠ '\n') s

/-- The end of a plain text is plain. -/
theorem IsPlain.of_suffix {s s' : List Char} (h : IsPlain s) (hsuffix : s' <:+ s) : IsPlain s' :=
  fun c hc => h c (hsuffix.subset hc)

/-- Two plain texts one after the other are plain. -/
theorem IsPlain.append {s s' : List Char} (h : IsPlain s) (h' : IsPlain s') : IsPlain (s ++ s') :=
  fun c hc => (List.mem_append.mp hc).elim (h c) (h' c)

/-- A quote is no white space. -/
theorem isBlank_of_isQuote {q : Char} (h : isQuote q = true) : isBlank q = false := by
  rw [isQuote, Bool.or_eq_true, beq_iff_eq, beq_iff_eq] at h
  rcases h with rfl | rfl
  · decide
  · decide

/-- There is no quote in a plain text. -/
theorem notMem_of_isPlain {s : List Char} {q : Char} (hs : IsPlain s) (hq : isQuote q = true) :
    q ∉ s := fun hmem => by
  rw [(hs q hmem).1] at hq
  cases hq

/-- A plain text goes up to the quote that the word follows. -/
theorem untilQuote?_plain {close s : List Char} {q : Char} (hs : IsPlain s)
    (hq : isQuote q = true) (rest : List Char) :
    untilQuote? close (s ++ q :: (close ++ rest)) = some (s, rest) := by
  induction s with
  | nil => simp [untilQuote?, hq, after?_append]
  | cons c s ih =>
    obtain ⟨hc, hline⟩ := hs c List.mem_cons_self
    have ih := ih (hs.of_suffix (List.suffix_cons c s))
    rw [List.cons_append, untilQuote?]
    simp [hc, hline, ih]

/-- A specifier that is plain and not empty is read back between its quotes. -/
theorem quotedSpecifier?_plain (close : List Char) {q : Char} (hspecifier : IsPlain specifier)
    (hne : specifier ≠ []) (hq : isQuote q = true) (rest : List Char) :
    quotedSpecifier? close (q :: (specifier ++ q :: (close ++ rest))) = some (specifier, rest) := by
  obtain ⟨c, s, rfl⟩ := List.exists_cons_of_ne_nil hne
  have hline := (hspecifier c List.mem_cons_self).2
  have hs := hspecifier.of_suffix (List.suffix_cons c s)
  rw [List.cons_append, quotedSpecifier?, untilQuote?_plain hs hq]
  simp [hq, hline]

/-- No specifier begins in a plain text. -/
theorem eq_nil_of_quotedSpecifier? {close front z : List Char} (hfront : IsPlain front)
    (h : quotedSpecifier? close (front ++ z) = some found) : front = [] := by
  cases front with
  | nil => rfl
  | cons c front =>
    have hc := (hfront c List.mem_cons_self).1
    rw [List.cons_append] at h
    unfold quotedSpecifier? at h
    split at h
    · rename_i heq
      obtain ⟨rfl, -⟩ := List.cons.inj heq
      simp [hc] at h
    · cases h

/-- A `from` clause in a plain text before a quoted specifier is about this specifier. -/
theorem fromClause?_plain {front : List Char} {q : Char} (hfront : IsPlain front)
    (hspecifier : IsPlain specifier) (hne : specifier ≠ []) (hq : isQuote q = true)
    (h : fromClause? (front ++ q :: (specifier ++ q :: rest)) = some found) :
    found = (specifier, rest) := by
  unfold fromClause? at h
  obtain ⟨s, hs, h⟩ := Option.bind_eq_some_iff.mp h
  obtain ⟨t, ht, hs⟩ := Option.bind_eq_some_iff.mp hs
  have hword : q ∉ ['f', 'r', 'o', 'm'] := notMem_of_isPlain (by decide) hq
  obtain ⟨front₁, rfl, rfl⟩ := eq_append_of_after?_cons hword ht
  obtain ⟨front₂, hsuffix, rfl⟩ := afterBlanks?_append_cons (isBlank_of_isQuote hq) hs
  -- White space that goes up to the quote is all that may stand between.
  have hfront₂ : IsPlain front₂ := hfront.of_suffix (hsuffix.trans (List.suffix_append _ front₁))
  obtain rfl := eq_nil_of_quotedSpecifier? hfront₂ h
  have hread := quotedSpecifier?_plain [] hspecifier hne hq rest
  exact Option.some.inj (h.symm.trans hread)

/-- A `from` clause about a quoted specifier is recognised. -/
theorem fromClause?_quoted {q : Char} (hspecifier : IsPlain specifier) (hne : specifier ≠ [])
    (hq : isQuote q = true) (rest : List Char) :
    fromClause? (['f', 'r', 'o', 'm', ' '] ++ q :: (specifier ++ q :: rest)) =
      some (specifier, rest) := by
  have hdropped :
      (q :: (specifier ++ q :: rest)).dropWhile isBlank = q :: (specifier ++ q :: rest) :=
    List.dropWhile_cons_of_neg (by simp [isBlank_of_isQuote hq])
  show ((after? ['f', 'r', 'o', 'm'] (['f', 'r', 'o', 'm'] ++ ' ' :: q :: _)).bind
    afterBlanks?).bind (quotedSpecifier? []) = _
  rw [after?_append, Option.bind_some, afterBlanks?, if_pos (by decide), hdropped, Option.bind_some]
  exact quotedSpecifier?_plain [] hspecifier hne hq rest

/-- A call in a plain text before a quoted specifier is about this specifier. -/
theorem requireCall?_plain {front : List Char} {q : Char} (hfront : IsPlain front)
    (hspecifier : IsPlain specifier) (hne : specifier ≠ []) (hq : isQuote q = true)
    (h : requireCall? (front ++ q :: (specifier ++ q :: ')' :: rest)) = some found) :
    found = (specifier, rest) := by
  unfold requireCall? at h
  obtain ⟨s, hs, h⟩ := Option.bind_eq_some_iff.mp h
  have hword : q ∉ ['r', 'e', 'q', 'u', 'i', 'r', 'e', '('] := notMem_of_isPlain (by decide) hq
  obtain ⟨front₁, rfl, rfl⟩ := eq_append_of_after?_cons hword hs
  obtain rfl := eq_nil_of_quotedSpecifier? (hfront.of_suffix (List.suffix_append _ front₁)) h
  have hread := quotedSpecifier?_plain [')'] hspecifier hne hq rest
  exact Option.some.inj (h.symm.trans hread)

/-- The shortest gap before `from` and a quoted specifier leads to this specifier. -/
theorem gapThenFrom?_plain {front : List Char} {q : Char} (hfront : IsPlain front)
    (hspecifier : IsPlain specifier) (hne : specifier ≠ []) (hq : isQuote q = true)
    (rest : List Char) :
    gapThenFrom? (front ++ ([' ', 'f', 'r', 'o', 'm', ' '] ++ q :: (specifier ++ q :: rest))) =
      some (specifier, rest) := by
  have hblank := isBlank_of_isQuote hq
  induction front with
  | nil =>
    have hdropped : (['f', 'r', 'o', 'm', ' '] ++ q :: (specifier ++ q :: rest)).dropWhile isBlank =
        ['f', 'r', 'o', 'm', ' '] ++ q :: (specifier ++ q :: rest) :=
      List.dropWhile_cons_of_neg (by decide)
    show gapThenFrom? (' ' :: (['f', 'r', 'o', 'm', ' '] ++ q :: (specifier ++ q :: rest))) = _
    rw [gapThenFrom?, if_pos (by decide), hdropped, fromClause?_quoted hspecifier hne hq]
  | cons c front ih =>
    obtain ⟨hc, hline⟩ := hfront c List.mem_cons_self
    have hfront' : IsPlain front := hfront.of_suffix (List.suffix_cons c front)
    rw [List.cons_append, gapThenFrom?]
    split
    · -- A shorter gap would be before the same specifier.
      rw [← List.append_assoc, dropWhile_append_cons hblank]
      split
      · rename_i found hclause
        have hplain : IsPlain (front ++ [' ', 'f', 'r', 'o', 'm', ' ']) :=
          hfront'.append (by decide)
        have hdropped := hplain.of_suffix (List.dropWhile_suffix isBlank)
        rw [fromClause?_plain hdropped hspecifier hne hq hclause]
      · rw [List.append_assoc]
        exact ih hfront'
    · exact ih hfront'

/-- A statement with a binding that is not white space alone has the specifier of its line. -/
theorem keywordFrom?_plain {keyword binding : List Char} {q : Char} (hbinding : IsPlain binding)
    (hvisible : ∃ c ∈ binding, isBlank c = false) (hspecifier : IsPlain specifier)
    (hne : specifier ≠ []) (hq : isQuote q = true) (rest : List Char) :
    keywordFrom? keyword (keyword ++ ' ' :: (binding ++ ([' ', 'f', 'r', 'o', 'm', ' '] ++
      q :: (specifier ++ q :: rest)))) = some (specifier, rest) := by
  -- The gap begins with what is visible of the binding.
  have hshown : (binding.dropWhile isBlank).isEmpty = false := by
    obtain ⟨c, hc, hblank⟩ := hvisible
    rw [List.isEmpty_eq_false_iff, ne_eq, List.dropWhile_eq_nil_iff]
    exact fun hall => by simp [hall c hc] at hblank
  have hdropped (z : List Char) :
      (binding ++ z).dropWhile isBlank = binding.dropWhile isBlank ++ z := by
    rw [List.dropWhile_append, if_neg (by simp [hshown])]
  have hplain := hbinding.of_suffix (List.dropWhile_suffix isBlank)
  rw [keywordFrom?, after?_append]
  simp only [hdropped, gapThenFrom?_plain hplain hspecifier hne hq rest]
  rfl

/-! ## Searching a whole text -/

variable {p : Pattern}

/-- A statement at the front of a text is found. -/
theorem mem_findFrom_of_recognise (hp : p.atLineStart = false) (hne : tail ≠ [])
    (h : p.recognise tail = some (specifier, rest)) (fresh : Bool) :
    specifier ∈ p.findFrom fresh tail := by
  obtain ⟨c, cs, rfl⟩ := List.exists_cons_of_ne_nil hne
  rw [Pattern.findFrom]
  simp [hp, h]

/-- What is found in the end of a text is found in the text, if no match that begins before ends in
it, except one that finds the same. What stands before is of a kind that its ends are of, too. -/
theorem mem_findFrom_append (hp : p.atLineStart = false) {P : List Char → Prop}
    (hP : ∀ pre pre', pre' <:+ pre → P pre → P pre')
    (htail : ∀ fresh, specifier ∈ p.findFrom fresh tail)
    (hends : ∀ pre found, pre ≠ [] → P pre → p.recognise (pre ++ tail) = some found →
      found.1 = specifier ∨
        ∃ pre', pre' <:+ pre ∧ pre'.length < pre.length ∧ found.2 = pre' ++ tail)
    (pre : List Char) (hpre : P pre) (fresh : Bool) :
    specifier ∈ p.findFrom fresh (pre ++ tail) := by
  -- The search goes on with ever shorter ends of `pre` before `tail`.
  induction hlength : pre.length using Nat.strong_induction_on generalizing pre fresh with
  | _ n ih =>
    subst hlength
    cases pre with
    | nil => exact htail fresh
    | cons c pre =>
      have hrest : P pre := hP (c :: pre) pre (List.suffix_cons c pre) hpre
      rw [List.cons_append, Pattern.findFrom]
      simp only [hp, Bool.not_false, Bool.or_true, if_true]
      split
      · rename_i specifier' rest' hmatch
        rcases hends (c :: pre) _ (List.cons_ne_nil c pre) hpre hmatch with
          rfl | ⟨pre', hsuffix, hlt, rfl⟩
        · exact List.mem_cons_self
        · have hle : (pre' ++ tail).length ≤ (pre ++ tail).length := by
            simp only [List.length_append, List.length_cons] at hlt ⊢
            omega
          rw [if_pos hle]
          exact List.mem_cons_of_mem _ (ih _ hlt pre' (hP _ pre' hsuffix hpre) false rfl)
      · exact ih pre.length (by simp) pre hrest _ rfl

end RepoGraph
