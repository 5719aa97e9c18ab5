import RepoGraph.Proofs.Reference.Search
import RepoGraph.Proofs.Reference.Statement
import RepoGraph.Proofs.Text.Ascii

/-!
# Statements written and read back

A text that is nothing but statements, one on each line, has the references of these statements and
no others: `references_program` says so for the two extractors for scripts. Specifiers may hold
keywords, but no white space and no quotes.

Where a pattern finds nothing it is led past one word after another (`findAll_words`). A pattern
with a keyword needs white space after it, and so applies in front of white space only to a word
that ends with the keyword (`passes_keywordFrom`); a call needs a quote, and so applies to no word
without quotes (`passes_requireCall`). The specifier itself may end in `require(` with a quote after
it, but then the line ends, and a specifier does not begin with a line feed
(`passes_requireCall_quoted`).
-/

namespace RepoGraph

open RepoGraph.Text

/-! ## Passing over words -/

section

variable {p : Pattern} {keyword word : List Char} {words : List (List Char)} {b : Char}

/-- In front of the character the pattern is led past the text, whatever follows. -/
def Pattern.Passes (p : Pattern) (b : Char) (word : List Char) : Prop :=
  ∀ tail, p.findAll (word ++ b :: tail) = p.findAll tail

/-- The words one after another, each with a space after it. -/
def spaced (words : List (List Char)) : List Char := words.flatMap (· ++ [' '])

/-- The pattern is led past words that it is led past one by one. -/
theorem findAll_words (h : ∀ word ∈ words, p.Passes ' ' word) (tail : List Char) :
    p.findAll (spaced words ++ tail) = p.findAll tail := by
  induction words with
  | nil => rfl
  | cons word words ih =>
    rw [List.forall_mem_cons] at h
    have hspaced : spaced (word :: words) ++ tail = word ++ ' ' :: (spaced words ++ tail) := by
      simp [spaced]
    rw [hspaced, h.1, ih h.2]

/-- A text is passed over if the pattern applies neither to its ends nor to what stands after it. -/
theorem passes_of_recognise (hp : p.atLineStart = false)
    (h : ∀ word', word' <:+ word → ∀ tail, p.recognise (word' ++ b :: tail) = none) :
    p.Passes b word := by
  intro tail
  rw [List.append_cons]
  refine Pattern.findAll_append_of_none hp fun pre hne hsuffix => ?_
  rcases List.suffix_concat_iff.mp hsuffix with rfl | ⟨word', rfl, hword⟩
  · exact absurd rfl hne
  · rw [← List.append_cons]
    exact h word' hword tail

/-- A keyword with `from` is not at the front of another word. -/
theorem keywordFrom?_eq_none {tail : List Char} (hkeyword : IsSolid keyword) (hword : IsSolid word)
    (hne : word ≠ keyword) (hb : isBlank b = true) :
    keywordFrom? keyword (word ++ b :: tail) = none := by
  have hfree : b ∉ keyword := fun hmem => by simp [hkeyword b hmem] at hb
  cases hafter : after? keyword (word ++ b :: tail) with
  | none => rw [keywordFrom?, hafter]
  | some rest =>
    obtain ⟨front, rfl, rfl⟩ := eq_append_of_after?_cons hfree hafter
    cases front with
    | nil => exact absurd (List.append_nil keyword) hne
    | cons c front =>
      have hc : isBlank c = false := hword c (by simp)
      rw [keywordFrom?, hafter, List.cons_append]
      simp [hc]

/-- A pattern with a keyword is led past words that do not end with it. -/
theorem passes_keywordFrom (hkeyword : IsSolid keyword) (hword : IsSolid word)
    (hne : ¬keyword <:+ word) (hb : isBlank b = true) :
    Pattern.Passes ⟨false, keywordFrom? keyword⟩ b word := by
  refine passes_of_recognise rfl fun word' hsuffix tail => ?_
  refine keywordFrom?_eq_none hkeyword (fun c hc => hword c (hsuffix.subset hc)) ?_ hb
  rintro rfl
  exact hne hsuffix

/-- What a call begins with. -/
def callWord : List Char := ['r', 'e', 'q', 'u', 'i', 'r', 'e', '(']

/-- A call needs a quote. -/
theorem requireCall?_eq_none {c : Char} {tail : List Char} (hword : ∀ c ∈ word, isQuote c = false)
    (hc : c ∉ callWord) (hquote : isQuote c = false) :
    requireCall? (word ++ c :: tail) = none := by
  rw [Option.eq_none_iff_forall_ne_some]
  intro found hfound
  unfold requireCall? at hfound
  obtain ⟨s, hs, hfound⟩ := Option.bind_eq_some_iff.mp hfound
  obtain ⟨front, rfl, rfl⟩ := eq_append_of_after?_cons hc hs
  -- The first character after the word is one of the text, or the one that follows it.
  cases front with
  | nil => cases tail <;> simp [quotedSpecifier?, hquote] at hfound
  | cons d front =>
    have hd : isQuote d = false := hword d (by simp)
    cases front <;> simp [quotedSpecifier?, hd] at hfound

/-- The pattern of calls is led past words without quotes. -/
theorem passes_requireCall (hword : ∀ c ∈ word, isQuote c = false) (hb : isBlank b = true) :
    Pattern.requireCall.Passes b word := by
  have hcall : IsSolid callWord := by decide
  have hfree : b ∉ callWord := fun hmem => by simp [hcall b hmem] at hb
  have hquote : isQuote b = false := by
    cases h : isQuote b with
    | false => rfl
    | true => rw [isBlank_of_isQuote h] at hb; cases hb
  exact passes_of_recognise rfl fun word' hsuffix tail =>
    requireCall?_eq_none (fun c hc => hword c (hsuffix.subset hc)) hfree hquote

/-- The pattern of calls is led past a quoted specifier at the end of a line. -/
theorem passes_requireCall_quoted {specifier : List Char} {q : Char}
    (hspecifier : IsPlain specifier) (hq : isQuote q = true) :
    Pattern.requireCall.Passes '\n' (q :: (specifier ++ [q])) := by
  have hfeed : '\n' ∉ callWord := by decide
  refine passes_of_recognise rfl fun word' hsuffix tail => ?_
  show requireCall? (word' ++ '\n' :: tail) = none
  rw [Option.eq_none_iff_forall_ne_some]
  intro found hfound
  unfold requireCall? at hfound
  obtain ⟨s, hs, hfound⟩ := Option.bind_eq_some_iff.mp hfound
  obtain ⟨front, rfl, rfl⟩ := eq_append_of_after?_cons hfeed hs
  match front with
  | [] => cases tail <;> simp [quotedSpecifier?, isQuote] at hfound
  | [c] => simp [quotedSpecifier?] at hfound
  | c :: d :: front =>
    -- A quote that is not the last character would be one of the specifier's.
    have hquote : isQuote c = true := by
      by_contra hc
      simp [quotedSpecifier?, hc] at hfound
    have hmem : c ∈ specifier := by
      rcases List.suffix_cons_iff.mp hsuffix with heq | hsuffix'
      · obtain ⟨rfl, -⟩ := List.cons.inj heq
        cases hq
      rcases List.suffix_concat_iff.mp hsuffix' with hnil | ⟨word, hword, hspecified⟩
      · cases hnil
      · have hdropped := congrArg List.dropLast hword
        rw [List.dropLast_concat, List.dropLast_append_cons, List.dropLast_cons_cons] at hdropped
        exact hspecified.subset (hdropped ▸ by simp)
    rw [(hspecifier c hmem).1] at hquote
    cases hquote

end

/-! ## Lines -/

namespace Statement

/-- The statement with the name that it exports in braces. -/
def braced (s : Statement) : Statement :=
  match s.kind with
  | .exports => { s with binding := "\x7b " ++ s.binding ++ " \x7d" }
  | .imports | .requires => s

/-- The text of some statements, each on a line of its own. -/
def program : List Statement → String
  | [] => ""
  | s :: statements => s.braced.line ++ "\n" ++ program statements

/-- The character may stand in a name: it is a letter, a digit or a low line. -/
def isNameChar (c : Char) : Bool := c.isAlphanum || c == '_'

/-- The text holds neither white space nor quotes. -/
def IsVisible (s : List Char) : Prop := ∀ c ∈ s, isBlank c = false ∧ isQuote c = false

instance (s : List Char) : Decidable (IsVisible s) :=
  List.decidableBAll (fun c => isBlank c = false ∧ isQuote c = false) s

/-- The statement is about one name, in which there is no keyword, and its specifier holds neither
white space nor quotes. -/
structure IsSimple (s : Statement) : Prop where
  /-- The quote is one. -/
  quote : isQuote s.quote = true
  /-- The name is not empty. -/
  binding_ne : s.binding ≠ ""
  /-- The name consists of letters, digits and low lines. -/
  binding : s.binding.toList.all isNameChar = true
  /-- There is no `import` in the name. -/
  noImport : ¬"import".toList <:+: s.binding.toList
  /-- There is no `export` in the name. -/
  noExport : ¬"export".toList <:+: s.binding.toList
  /-- The specifier is not empty. -/
  specifier_ne : s.specifier ≠ ""
  /-- The specifier holds neither white space nor quotes. -/
  specifier : IsVisible s.specifier.toList

instance : DecidablePred IsSimple := fun s =>
  decidable_of_iff
    ((isQuote s.quote = true ∧ s.binding ≠ "" ∧ s.binding.toList.all isNameChar = true ∧
        ¬"import".toList <:+: s.binding.toList ∧ ¬"export".toList <:+: s.binding.toList) ∧
      s.specifier ≠ "" ∧ IsVisible s.specifier.toList)
    ⟨fun ⟨⟨h₁, h₂, h₃, h₄, h₅⟩, h₆, h₇⟩ => ⟨h₁, h₂, h₃, h₄, h₅, h₆, h₇⟩,
      fun ⟨h₁, h₂, h₃, h₄, h₅, h₆, h₇⟩ => ⟨⟨h₁, h₂, h₃, h₄, h₅⟩, h₆, h₇⟩⟩

/-- A text without white space and quotes is plain. -/
theorem IsVisible.isPlain {s : List Char} (h : IsVisible s) : IsPlain s := by
  intro c hc
  obtain ⟨hblank, hquote⟩ := h c hc
  refine ⟨hquote, ?_⟩
  rintro rfl
  cases hblank

/-- A character of a name is neither white space nor a quote. -/
theorem visible_of_isNameChar {c : Char} (h : isNameChar c = true) :
    isBlank c = false ∧ isQuote c = false := by
  rcases Bool.or_eq_true_iff.mp h with h | hline
  · have hrange := isAlphanum_iff.mp h
    constructor
    · exact isBlank_of_visible (by omega) (by omega)
    · rw [isQuote, Bool.or_eq_false_iff, beq_eq_false_iff_ne, beq_eq_false_iff_ne]
      constructor
      · rintro rfl
        exact absurd h (by decide)
      · rintro rfl
        exact absurd h (by decide)
  · rw [eq_of_beq hline]
    decide

/-- The words of the line before the specifier or the call. -/
def words (s : Statement) : List (List Char) :=
  match s.kind with
  | .imports => ["import".toList, s.binding.toList, "from".toList]
  | .requires => ["const".toList, s.binding.toList, "=".toList]
  | .exports => ["export".toList, ['\x7b'], s.binding.toList, ['\x7d'], "from".toList]

/-- The words before the specifier or the call in lines of the kind, the name aside. -/
def keywords : ReferenceKind → List (List Char)
  | .imports => ["import".toList, "from".toList]
  | .requires => ["const".toList, "=".toList]
  | .exports => ["export".toList, ['\x7b'], ['\x7d'], "from".toList]

/-- The specifier or the call at the end of the line. -/
def last (s : Statement) : List Char :=
  match s.kind with
  | .requires => callWord ++ s.quote :: (s.specifier.toList ++ [s.quote, ')'])
  | .imports | .exports => s.quote :: (s.specifier.toList ++ [s.quote])

variable {s : Statement}

/-- The words of a line are its name and the words that all lines of its kind have. -/
theorem mem_words {word : List Char} (h : word ∈ s.words) :
    word = s.binding.toList ∨ word ∈ keywords s.kind := by
  cases hkind : s.kind <;> simp only [words, hkind, keywords, List.mem_cons] at h ⊢ <;> tauto

/-- A line consists of its words. -/
theorem toList_line (s : Statement) : s.braced.line.toList = spaced s.words ++ s.last := by
  cases hkind : s.kind with
  | imports => simp [line, braced, words, last, spaced, hkind, toList_quoted]
  | requires => simp [line, braced, words, last, spaced, hkind, toList_quoted, callWord]
  | exports => simp [line, braced, words, last, spaced, hkind, toList_quoted]

/-- A line ends with a quote or the end of a call. -/
theorem exists_last_eq_concat (s : Statement) :
    ∃ front c, s.last = front ++ [c] ∧ (c = s.quote ∨ c = ')') := by
  cases hkind : s.kind with
  | imports => exact ⟨s.quote :: s.specifier.toList, s.quote, by simp [last, hkind], .inl rfl⟩
  | exports => exact ⟨s.quote :: s.specifier.toList, s.quote, by simp [last, hkind], .inl rfl⟩
  | requires =>
    exact ⟨callWord ++ s.quote :: (s.specifier.toList ++ [s.quote]), ')', by simp [last, hkind],
      .inr rfl⟩

namespace IsSimple

/-- A specifier without white space and quotes is plain. -/
theorem isPlain_specifier (hs : s.IsSimple) : IsPlain s.specifier.toList := hs.specifier.isPlain

/-- A name holds neither white space nor quotes. -/
theorem visible_binding (hs : s.IsSimple) : IsVisible s.binding.toList := fun c hc =>
  visible_of_isNameChar (List.all_eq_true.mp hs.binding c hc)

/-- The specifier has characters. -/
theorem toList_specifier_ne_nil (hs : s.IsSimple) : s.specifier.toList ≠ [] := by
  simpa using hs.specifier_ne

/-- The name has a character that is no white space. -/
theorem exists_visible (hs : s.IsSimple) : ∃ c ∈ s.binding.toList, isBlank c = false := by
  have hne : s.binding.toList ≠ [] := by simpa using hs.binding_ne
  obtain ⟨c, cs, hcons⟩ := List.exists_cons_of_ne_nil hne
  have hmem : c ∈ s.binding.toList := hcons ▸ List.mem_cons_self
  exact ⟨c, hmem, (hs.visible_binding c hmem).1⟩

/-- A name is plain. -/
theorem isPlain_binding (hs : s.IsSimple) : IsPlain s.binding.toList := hs.visible_binding.isPlain

/-- The words of a line hold neither white space nor quotes. -/
theorem visible_words (hs : s.IsSimple) : ∀ word ∈ s.words, IsVisible word := by
  have hkeywords (kind : ReferenceKind) : ∀ word ∈ keywords kind, IsVisible word := by
    cases kind <;> decide
  intro word hword
  rcases mem_words hword with rfl | hmem
  · exact hs.visible_binding
  · exact hkeywords s.kind word hmem

/-- The end of a line holds no white space. -/
theorem isSolid_last (hs : s.IsSimple) : IsSolid s.last := by
  have hcall : IsSolid callWord := by decide
  have hquote : isBlank s.quote = false := isBlank_of_isQuote hs.quote
  have hclose : isBlank ')' = false := by decide
  intro c hc
  have hparts : c ∈ callWord ∨ c ∈ s.specifier.toList ∨ c = s.quote ∨ c = ')' := by
    cases hkind : s.kind <;> simp only [last, hkind] at hc <;> simp at hc ⊢ <;> tauto
  rcases hparts with hc | hc | rfl | rfl
  · exact hcall c hc
  · exact (hs.specifier c hc).1
  · exact hquote
  · exact hclose

variable {keyword : List Char}

/-- A pattern with a keyword is led past a line of which no word ends with the keyword. -/
theorem passes_keywordFrom_line (hs : s.IsSimple) (hkeyword : keyword.all Char.isAlpha = true)
    (hne : keyword ≠ []) (hbinding : ¬keyword <:+ s.binding.toList)
    (hkeywords : ∀ word ∈ keywords s.kind, ¬keyword <:+ word) :
    Pattern.Passes ⟨false, keywordFrom? keyword⟩ '\n' s.braced.line.toList := by
  have halpha := List.all_eq_true.mp hkeyword
  have hletter : IsVisible keyword := fun c hc =>
    visible_of_isNameChar (by rw [isNameChar, Char.isAlphanum, halpha c hc]; rfl)
  have hwords (word : List Char) (hword : word ∈ s.words) : ¬keyword <:+ word := by
    rcases mem_words hword with rfl | hmem
    · exact hbinding
    · exact hkeywords word hmem
  obtain ⟨front, c, hlast, hc⟩ := s.exists_last_eq_concat
  have hend : ¬keyword <:+ s.last := by
    rw [hlast, List.suffix_concat_iff]
    rintro (hnil | ⟨t, rfl, -⟩)
    · exact hne hnil
    · have hmem : c ∈ t ++ [c] := List.mem_append_right t List.mem_cons_self
      rcases hc with rfl | rfl
      · have hquote := hs.quote
        rw [(hletter _ hmem).2] at hquote
        cases hquote
      · exact absurd (halpha _ hmem) (by decide)
  intro tail
  rw [toList_line, List.append_assoc, findAll_words fun word hword =>
    passes_keywordFrom (fun c hc => (hletter c hc).1)
      (fun c hc => (hs.visible_words word hword c hc).1) (hwords word hword) (by decide)]
  exact passes_keywordFrom (fun c hc => (hletter c hc).1) hs.isSolid_last hend (by decide) tail

/-- A statement with a keyword is found on its line. -/
theorem findAll_keywordFrom_line (hs : s.IsSimple) (keyword : List Char) {binding : List Char}
    (hkeyword : IsSolid keyword) (hne : keyword ≠ []) (hbinding : IsPlain binding)
    (hvisible : ∃ c ∈ binding, isBlank c = false) (tail : List Char) :
    Pattern.findAll ⟨false, keywordFrom? keyword⟩ (keyword ++ ' ' :: (binding ++
      ([' ', 'f', 'r', 'o', 'm', ' '] ++ s.quote :: (s.specifier.toList ++
        s.quote :: '\n' :: tail)))) =
      s.specifier.toList :: Pattern.findAll ⟨false, keywordFrom? keyword⟩ tail := by
  have hfeed : Pattern.Passes ⟨false, keywordFrom? keyword⟩ '\n' [] :=
    passes_keywordFrom hkeyword (fun _ h => by cases h)
      (fun hnil => hne (List.suffix_nil.mp hnil)) (by decide)
  have hfound : Pattern.findFrom ⟨false, keywordFrom? keyword⟩ true _ = _ :=
    Pattern.findFrom_of_recognise rfl (keywordFrom?_plain hbinding hvisible hs.isPlain_specifier
      hs.toList_specifier_ne_nil hs.quote ('\n' :: tail)) (by simp; omega)
  rw [Pattern.findAll, hfound, Pattern.findFrom_eq_findAll rfl]
  exact congrArg _ (hfeed tail)

/-- An import is found by its pattern, and no other statement is. -/
theorem findAll_importFrom_line (hs : s.IsSimple) (tail : List Char) :
    Pattern.importFrom.findAll (s.braced.line.toList ++ '\n' :: tail) =
      (if s.kind = .imports then [s.specifier.toList] else []) ++
        Pattern.importFrom.findAll tail := by
  by_cases hkind : s.kind = .imports
  · have hfound := hs.findAll_keywordFrom_line ['i', 'm', 'p', 'o', 'r', 't']
      (by decide) (by decide) hs.isPlain_binding hs.exists_visible tail
    rw [if_pos hkind, List.singleton_append]
    refine Eq.trans (congrArg _ ?_) hfound
    simp [toList_line, words, last, hkind, spaced]
  · have hkeywords : ∀ word ∈ keywords s.kind, ¬['i', 'm', 'p', 'o', 'r', 't'] <:+ word := by
      cases hother : s.kind with
      | imports => exact absurd hother hkind
      | requires => decide
      | exports => decide
    rw [if_neg hkind, List.nil_append]
    exact hs.passes_keywordFrom_line (by decide) (by decide) (fun h => hs.noImport h.isInfix)
      hkeywords tail

/-- An export is found by its pattern, and no other statement is. -/
theorem findAll_exportFrom_line (hs : s.IsSimple) (tail : List Char) :
    Pattern.exportFrom.findAll (s.braced.line.toList ++ '\n' :: tail) =
      (if s.kind = .exports then [s.specifier.toList] else []) ++
        Pattern.exportFrom.findAll tail := by
  by_cases hkind : s.kind = .exports
  · have hplain : IsPlain ('\x7b' :: ' ' :: (s.binding.toList ++ [' ', '\x7d'])) :=
      IsPlain.append (s := ['\x7b', ' ']) (by decide) (hs.isPlain_binding.append (by decide))
    have hfound := hs.findAll_keywordFrom_line ['e', 'x', 'p', 'o', 'r', 't']
      (by decide) (by decide) hplain ⟨'\x7b', List.mem_cons_self, by decide⟩ tail
    rw [if_pos hkind, List.singleton_append]
    refine Eq.trans (congrArg _ ?_) hfound
    simp [toList_line, words, last, hkind, spaced]
  · have hkeywords : ∀ word ∈ keywords s.kind, ¬['e', 'x', 'p', 'o', 'r', 't'] <:+ word := by
      cases hother : s.kind with
      | exports => exact absurd hother hkind
      | imports => decide
      | requires => decide
    rw [if_neg hkind, List.nil_append]
    exact hs.passes_keywordFrom_line (by decide) (by decide) (fun h => hs.noExport h.isInfix)
      hkeywords tail

/-- A call that loads a module is found by its pattern, and no other statement is. -/
theorem findAll_requireCall_line (hs : s.IsSimple) (tail : List Char) :
    Pattern.requireCall.findAll (s.braced.line.toList ++ '\n' :: tail) =
      (if s.kind = .requires then [s.specifier.toList] else []) ++
        Pattern.requireCall.findAll tail := by
  rw [toList_line, List.append_assoc, findAll_words fun word hword =>
    passes_requireCall (fun c hc => (hs.visible_words word hword c hc).2) (by decide)]
  by_cases hkind : s.kind = .requires
  · have hmatch : requireCall? (callWord ++ s.quote :: (s.specifier.toList ++
        s.quote :: ')' :: '\n' :: tail)) = some (s.specifier.toList, '\n' :: tail) := by
      rw [requireCall?]
      show ((after? callWord _).bind _) = _
      rw [after?_append]
      exact quotedSpecifier?_plain [')'] hs.isPlain_specifier hs.toList_specifier_ne_nil hs.quote _
    have hlast : s.last ++ '\n' :: tail = callWord ++ s.quote :: (s.specifier.toList ++
        s.quote :: ')' :: '\n' :: tail) := by
      simp [last, hkind]
    have hfeed : Pattern.requireCall.Passes '\n' [] :=
      passes_requireCall (fun _ h => by cases h) (by decide)
    rw [hlast, if_pos hkind, List.singleton_append, Pattern.findAll,
      Pattern.findFrom_of_recognise rfl hmatch (by simp; omega), Pattern.findFrom_eq_findAll rfl]
    exact congrArg _ (hfeed tail)
  · have hlast : s.last = s.quote :: (s.specifier.toList ++ [s.quote]) := by
      cases hother : s.kind with
      | requires => exact absurd hother hkind
      | imports => simp [last, hother]
      | exports => simp [last, hother]
    rw [if_neg hkind, List.nil_append, hlast]
    exact passes_requireCall_quoted hs.isPlain_specifier hs.quote tail

end IsSimple

/-! ## Programs -/

variable {statements : List Statement} {kind : ReferenceKind} {p : Pattern}

/-- Each pattern of the extractor for typed scripts finds the statements of its kind. -/
theorem findAll_line (hs : s.IsSimple) (hp : (kind, p) ∈ Extractor.typedScript.patterns)
    (tail : List Char) :
    p.findAll (s.braced.line.toList ++ '\n' :: tail) =
      (if s.kind = kind then [s.specifier.toList] else []) ++ p.findAll tail := by
  simp only [Extractor.patterns, List.mem_cons, Prod.mk.injEq, List.not_mem_nil, or_false] at hp
  rcases hp with ⟨rfl, rfl⟩ | ⟨rfl, rfl⟩ | ⟨rfl, rfl⟩
  · exact hs.findAll_importFrom_line tail
  · exact hs.findAll_requireCall_line tail
  · exact hs.findAll_exportFrom_line tail

/-- In a program each pattern finds the statements of its kind, in their order. -/
theorem findAll_program (h : ∀ s ∈ statements, s.IsSimple)
    (hp : (kind, p) ∈ Extractor.typedScript.patterns) :
    p.findAll (program statements).toList =
      (statements.filter (·.kind = kind)).map (·.specifier.toList) := by
  induction statements with
  | nil => rw [program, String.toList_empty, Pattern.findAll, Pattern.findFrom]; rfl
  | cons s statements ih =>
    rw [List.forall_mem_cons] at h
    have htext : (program (s :: statements)).toList =
        s.braced.line.toList ++ '\n' :: (program statements).toList := by
      simp [program]
    rw [htext, findAll_line h.1 hp, ih h.2, List.filter_cons]
    by_cases hkind : s.kind = kind
    · simp [hkind]
    · simp [hkind]

/-- The references that statements of a kind make. -/
def named (kind : ReferenceKind) (statements : List Statement) : List Reference :=
  (statements.filter (·.kind = kind)).map fun s => ⟨s.specifier, kind⟩

/-- An extractor whose patterns are among those for typed scripts lists the statements of a program
kind by kind. -/
theorem occurrences_program {e : Extractor} (h : ∀ s ∈ statements, s.IsSimple)
    (he : e.patterns ⊆ Extractor.typedScript.patterns) :
    e.occurrences (program statements) = e.patterns.flatMap fun p => named p.1 statements := by
  rw [Extractor.occurrences]
  refine List.flatMap_congr fun p hp => ?_
  rw [findAll_program h (he hp), named, List.map_map]
  refine List.map_congr_left fun s _ => ?_
  rw [Function.comp_apply, String.ofList_toList]

/-- The references of a program are those that its statements make: the imports, then the calls that
load a module, then, in a typed script, the exports, each in their order, without those that carry a
URL scheme, and of all with one specifier the first. -/
theorem references_program (statements : List Statement) (h : ∀ s ∈ statements, s.IsSimple) :
    Extractor.typedScript.references (program statements) =
        keepFirstBy Reference.specifier []
          ((named .imports statements ++ named .requires statements ++
            named .exports statements).filter fun r => !hasUrlScheme r.specifier.toList) ∧
      Extractor.script.references (program statements) =
        keepFirstBy Reference.specifier []
          ((named .imports statements ++ named .requires statements).filter fun r =>
            !hasUrlScheme r.specifier.toList) := by
  have htyped := occurrences_program (e := .typedScript) h (List.Subset.refl _)
  have hscript := occurrences_program (e := .script) h (by simp [Extractor.patterns])
  rw [Extractor.references_eq, Extractor.references_eq, htyped, hscript]
  simp [Extractor.patterns]

/-- Specifiers that are keywords, look like the beginning of a call, come twice or have a scheme. -/
theorem references_program_of_five :
    let statements : List Statement :=
      [⟨.imports, "from", '"', "import"⟩, ⟨.exports, "from", '"', "./require("⟩,
        ⟨.requires, "x_1", '"', "./import"⟩, ⟨.imports, "y", '"', "https://y.z"⟩,
        ⟨.requires, "z", '"', "import"⟩]
    ((∀ s ∈ statements, s.IsSimple) ∧
      program statements = "import from from \"import\"\n" ++
        "export \x7b from \x7d from \"./require(\"\n" ++ "const x_1 = require(\"./import\")\n" ++
        "import y from \"https://y.z\"\n" ++ "const z = require(\"import\")\n") ∧
    Extractor.typedScript.references (program statements) =
      [⟨"import", .imports⟩, ⟨"./import", .requires⟩, ⟨"./require(", .exports⟩] ∧
    Extractor.script.references (program statements) =
      [⟨"import", .imports⟩, ⟨"./import", .requires⟩] := by
  intro statements
  have h : ∀ s ∈ statements, s.IsSimple := by decide
  obtain ⟨htyped, hscript⟩ := references_program statements h
  exact ⟨⟨h, by decide⟩, htyped.trans (by decide), hscript.trans (by decide)⟩

end Statement

end RepoGraph
