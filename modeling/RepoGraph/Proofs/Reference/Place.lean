import RepoGraph.Proofs.Reference.ImportLine

/-!
# Where references stand

A reference is a piece of the text that it was found in, however odd the text is: for scripts what
stands between two quotes on one line (`IsQuotedIn`), for lines of Python a word after white space
(`IsWordIn`). Each reader of a pattern is shown to leave such a place before the rest of the text,
and a search goes on with the rest, so that all that is found stands in the text (`exists_place`).

`references_of_any_text` adds what the gathering does: references are distinct, none begins with a
URL scheme, their kinds come one after another, and typed scripts have the references of scripts
with exports after them.
-/

namespace RepoGraph

open RepoGraph.Text

variable {close keyword s s' specifier rest : List Char} {found : List Char × List Char}

/-! ## Between two quotes -/

/-- The specifier stands in the text between two quotes, with at least one character and none that
ends the line; the rest comes after it. -/
structure IsQuotedIn (s : List Char) (found : List Char × List Char) : Prop where
  /-- The specifier has a character. -/
  ne_nil : found.1 ≠ []
  /-- The specifier stays on its line. -/
  feed_notMem : '\n' ∉ found.1
  /-- There is a quote on both sides. -/
  exists_eq : ∃ before q q' after, isQuote q = true ∧ isQuote q' = true ∧
    s = before ++ q :: (found.1 ++ q' :: (after ++ found.2))

/-- What stands in an end of a text stands in the text. -/
theorem IsQuotedIn.of_suffix (h : IsQuotedIn s' found) (hsuffix : s' <:+ s) :
    IsQuotedIn s found := by
  obtain ⟨front, rfl⟩ := hsuffix
  obtain ⟨before, q, q', after, hq, hq', rfl⟩ := h.exists_eq
  exact ⟨h.ne_nil, h.feed_notMem, front ++ before, q, q', after, hq, hq',
    (List.append_assoc front before _).symm⟩

/-- The rest after a quoted specifier is an end of the text. -/
theorem IsQuotedIn.rest_suffix (h : IsQuotedIn s found) : found.2 <:+ s := by
  obtain ⟨before, q, q', after, -, -, rfl⟩ := h.exists_eq
  refine .trans ?_ (List.suffix_append before _)
  refine .trans ?_ (List.suffix_cons q _)
  refine .trans ?_ (List.suffix_append found.1 _)
  exact .trans (List.suffix_append after found.2) (List.suffix_cons q' _)

/-- What is read up to a quote stands before the quote and the word after it. -/
theorem untilQuote?_eq_some (h : untilQuote? close s = some found) :
    '\n' ∉ found.1 ∧ ∃ q, isQuote q = true ∧ s = found.1 ++ q :: (close ++ found.2) := by
  induction s generalizing found with
  | nil => cases h
  | cons c s ih =>
    rw [untilQuote?] at h
    split at h
    · rename_i rest hclose
      obtain rfl := Option.some.inj h
      split at hclose
      · rename_i hquote
        obtain rfl := eq_append_of_after? hclose
        exact ⟨List.not_mem_nil, c, hquote, rfl⟩
      · cases hclose
    · split at h
      · cases h
      · rename_i hline
        obtain ⟨found', hfound, rfl⟩ := Option.map_eq_some_iff.mp h
        obtain ⟨hfeed, q, hq, rfl⟩ := ih hfound
        refine ⟨?_, q, hq, rfl⟩
        rw [List.mem_cons, not_or]
        exact ⟨Ne.symm hline, hfeed⟩

/-- A specifier is read where it stands. -/
theorem isQuotedIn_of_quotedSpecifier? (h : quotedSpecifier? close s = some found) :
    IsQuotedIn s found := by
  unfold quotedSpecifier? at h
  split at h
  · rename_i q c cs
    split at h
    · rename_i hbegins
      rw [Bool.and_eq_true, bne_iff_ne] at hbegins
      obtain ⟨found', hfound, rfl⟩ := Option.map_eq_some_iff.mp h
      obtain ⟨hfeed, q', hq', rfl⟩ := untilQuote?_eq_some hfound
      have hline : '\n' ∉ c :: found'.1 := by
        rw [List.mem_cons, not_or]
        exact ⟨Ne.symm hbegins.2, hfeed⟩
      exact ⟨List.cons_ne_nil c _, hline, [], q, q', close, hbegins.1, hq', rfl⟩
    · cases h
  · cases h

/-- After a word there is an end of the text. -/
theorem suffix_of_after? (h : after? keyword s = some rest) : rest <:+ s :=
  ⟨keyword, (eq_append_of_after? h).symm⟩

/-- After white space there is an end of the text. -/
theorem suffix_of_afterBlanks? (h : afterBlanks? s = some rest) : rest <:+ s := by
  obtain ⟨gap, -, rfl⟩ := exists_isGap_of_afterBlanks? h
  exact List.suffix_append gap rest

/-- The specifier of a `from` clause stands in it. -/
theorem isQuotedIn_of_fromClause? (h : fromClause? s = some found) : IsQuotedIn s found := by
  obtain ⟨t, ht, hfound⟩ := Option.bind_eq_some_iff.mp h
  obtain ⟨u, hu, hblanks⟩ := Option.bind_eq_some_iff.mp ht
  have hsuffix : t <:+ s := (suffix_of_afterBlanks? hblanks).trans (suffix_of_after? hu)
  exact (isQuotedIn_of_quotedSpecifier? hfound).of_suffix hsuffix

/-- The specifier after a gap stands after it. -/
theorem isQuotedIn_of_gapThenFrom? (h : gapThenFrom? s = some found) : IsQuotedIn s found := by
  induction s with
  | nil => cases h
  | cons c s ih =>
    have hlonger (h : gapThenFrom? s = some found) : IsQuotedIn (c :: s) found :=
      (ih h).of_suffix (List.suffix_cons c s)
    rw [gapThenFrom?] at h
    split at h
    · split at h
      · rename_i found' hclause
        obtain rfl := Option.some.inj h
        exact (isQuotedIn_of_fromClause? hclause).of_suffix
          ((List.dropWhile_suffix isBlank).trans (List.suffix_cons c s))
      · split at h
        · cases h
        · exact hlonger h
    · exact hlonger h

/-- The specifier of a statement with a keyword stands in it. -/
theorem isQuotedIn_of_keywordFrom? (h : keywordFrom? keyword s = some found) :
    IsQuotedIn s found := by
  unfold keywordFrom? at h
  split at h
  · rename_i c cs hafter
    have hsuffix : cs.dropWhile isBlank <:+ s :=
      ((List.dropWhile_suffix isBlank).trans (List.suffix_cons c cs)).trans
        (suffix_of_after? hafter)
    split at h
    · dsimp only at h
      split at h
      · rename_i found' hgap
        obtain rfl := Option.some.inj h
        exact (isQuotedIn_of_gapThenFrom? hgap).of_suffix hsuffix
      · split at h
        · exact (isQuotedIn_of_fromClause? h).of_suffix hsuffix
        · cases h
    · cases h
  · cases h

/-- The specifier of a call stands in it. -/
theorem isQuotedIn_of_requireCall? (h : requireCall? s = some found) : IsQuotedIn s found := by
  obtain ⟨t, ht, hfound⟩ := Option.bind_eq_some_iff.mp h
  exact (isQuotedIn_of_quotedSpecifier? hfound).of_suffix (suffix_of_after? ht)

/-! ## After white space -/

/-- The word stands in the text right after white space, has at least one character and no white
space in it; the rest comes after it. -/
structure IsWordIn (s : List Char) (found : List Char × List Char) : Prop where
  /-- The word has a character. -/
  ne_nil : found.1 ≠ []
  /-- There is no white space in the word. -/
  solid : IsSolid found.1
  /-- There is white space before it. -/
  exists_eq : ∃ before b after, isBlank b = true ∧
    s = before ++ b :: (found.1 ++ (after ++ found.2))

/-- What stands in an end of a text stands in the text. -/
theorem IsWordIn.of_suffix (h : IsWordIn s' found) (hsuffix : s' <:+ s) : IsWordIn s found := by
  obtain ⟨front, rfl⟩ := hsuffix
  obtain ⟨before, b, after, hb, rfl⟩ := h.exists_eq
  exact ⟨h.ne_nil, h.solid, front ++ before, b, after, hb, (List.append_assoc front before _).symm⟩

/-- The rest after a word is an end of the text. -/
theorem IsWordIn.rest_suffix (h : IsWordIn s found) : found.2 <:+ s := by
  obtain ⟨before, b, after, -, rfl⟩ := h.exists_eq
  refine .trans ?_ (List.suffix_append before _)
  refine .trans ?_ (List.suffix_cons b _)
  exact .trans (List.suffix_append after found.2) (List.suffix_append found.1 _)

/-- A module is read where it stands, if it is the word at the front of what is read after the
keyword and the white space. -/
theorem Pattern.Reads.isWordIn {p : Pattern} {read : List Char → Option (List Char × List Char)}
    (hp : p.Reads keyword read)
    (hread : ∀ t found, read t = some found →
      ∃ u, word? t = some (found.1, u) ∧ found.2 <:+ u)
    (h : p.recognise s = some found) : IsWordIn s found := by
  rw [hp.recognise_eq] at h
  obtain ⟨t, ht, hfound⟩ := Option.bind_eq_some_iff.mp h
  obtain ⟨u, hu, hblanks⟩ := Option.bind_eq_some_iff.mp ht
  obtain ⟨gap, hgap, rfl⟩ := exists_isGap_of_afterBlanks? hblanks
  obtain ⟨v, hv, after, hrest⟩ := hread t found hfound
  obtain ⟨rfl, hne, hsolid⟩ := word?_eq_some hv
  -- The last character of the white space is the one before the word.
  obtain ⟨front, b, rfl⟩ := gap.eq_nil_or_concat'.resolve_left hgap.1
  have hb : isBlank b = true := hgap.2 b (List.mem_append_right front List.mem_cons_self)
  have hword : IsWordIn (front ++ [b] ++ (found.1 ++ v)) found := by
    refine ⟨hne, hsolid, front, b, after, hb, ?_⟩
    rw [hrest, List.append_assoc, List.singleton_append]
  exact hword.of_suffix (suffix_of_after? hu)

/-- The module of an import stands in it. -/
theorem isWordIn_of_importLine (h : Pattern.importLine.recognise s = some found) :
    IsWordIn s found :=
  reads_importLine.isWordIn (fun _ found hfound => ⟨found.2, hfound, List.suffix_rfl⟩) h

/-- The module of an import of names stands in it. -/
theorem isWordIn_of_fromImportLine (h : Pattern.fromImportLine.recognise s = some found) :
    IsWordIn s found := by
  refine reads_fromImportLine.isWordIn (fun t found hfound => ?_) h
  obtain ⟨⟨module, u⟩, hword, hkeyword⟩ := Option.bind_eq_some_iff.mp hfound
  obtain ⟨rest, hrest, rfl⟩ := Option.map_eq_some_iff.mp hkeyword
  obtain ⟨v, hblanks, himport⟩ := Option.bind_eq_some_iff.mp hrest
  exact ⟨u, hword, (suffix_of_after? himport).trans (suffix_of_afterBlanks? hblanks)⟩

/-! ## Searches -/

/-- What a pattern finds in a text stands in a place of the text, if what it recognises does: places
in an end of the text are places in the text, and the rest after a place is an end of the text. -/
theorem Pattern.exists_place {p : Pattern} {IsIn : List Char → List Char × List Char → Prop}
    (hlonger : ∀ {s s' found}, IsIn s' found → s' <:+ s → IsIn s found)
    (hrest : ∀ {s found}, IsIn s found → found.2 <:+ s)
    (hp : ∀ s found, p.recognise s = some found → IsIn s found)
    (h : specifier ∈ p.findAll s) : ∃ rest, IsIn s (specifier, rest) := by
  obtain ⟨s', rest, hsuffix, hfound⟩ :=
    Pattern.exists_suffix_of_mem_findFrom (fun s found hfound => hrest (hp s found hfound)) h
  exact ⟨rest, hlonger (hp s' _ hfound) hsuffix⟩

/-- The specifier stands in the text between two quotes. -/
def Reference.IsBetweenQuotes (r : Reference) (text : String) : Prop :=
  ∃ before q q' after, isQuote q = true ∧ isQuote q' = true ∧
    text.toList = before ++ q :: (r.specifier.toList ++ q' :: after)

/-- The specifier stands in the text right after white space. -/
def Reference.IsAfterBlank (r : Reference) (text : String) : Prop :=
  ∃ before b after, isBlank b = true ∧ text.toList = before ++ b :: (r.specifier.toList ++ after)

/-- The text begins with a URL scheme: a letter, other characters of a scheme, a colon and two
slashes. -/
def BeginsWithScheme (s : List Char) : Prop :=
  ∃ c scheme rest, c.isAlpha = true ∧ (∀ d ∈ scheme, isSchemeChar d = true) ∧
    s = c :: (scheme ++ ':' :: '/' :: '/' :: rest)

/-- What is dropped as a URL begins with a URL scheme. -/
theorem hasUrlScheme_iff : hasUrlScheme s = true ↔ BeginsWithScheme s := by
  constructor
  · intro h
    cases s with
    | nil => cases h
    | cons c s =>
      rw [hasUrlScheme, Bool.and_eq_true, startsWith, Option.isSome_iff_exists] at h
      obtain ⟨hc, rest, hrest⟩ := h
      refine ⟨c, s.takeWhile isSchemeChar, rest, hc, fun d hd => List.mem_takeWhile_imp hd, ?_⟩
      have hslashes := eq_append_of_after? hrest
      have hsplit := List.takeWhile_append_dropWhile (p := isSchemeChar) (l := s)
      rw [hslashes] at hsplit
      exact congrArg (c :: ·) hsplit.symm
  · rintro ⟨c, scheme, rest, hc, hscheme, rfl⟩
    have hcolon : (':' :: '/' :: '/' :: rest).dropWhile isSchemeChar = ':' :: '/' :: '/' :: rest :=
      List.dropWhile_cons_of_neg (by decide)
    rw [hasUrlScheme, hc, List.dropWhile_append_of_pos hscheme, hcolon, startsWith]
    exact congrArg Option.isSome (after?_append [':', '/', '/'] rest)

/-- The references are listed kind by kind. -/
def ListedByKind (rs : List Reference) : Prop :=
  ∃ imports requires exports, rs = imports ++ requires ++ exports ∧
    (∀ r ∈ imports, r.kind = .imports) ∧ (∀ r ∈ requires, r.kind = .requires) ∧
    ∀ r ∈ exports, r.kind = .exports

/-- References that are left out do not change the order of the kinds. -/
theorem ListedByKind.sublist {rs rs' : List Reference} (h : ListedByKind rs)
    (hsublist : rs'.Sublist rs) : ListedByKind rs' := by
  obtain ⟨imports, requires, exports, rfl, himports, hrequires, hexports⟩ := h
  obtain ⟨front, exports', rfl, hfront, hexports'⟩ := List.sublist_append_iff.mp hsublist
  obtain ⟨imports', requires', rfl, himports', hrequires'⟩ := List.sublist_append_iff.mp hfront
  exact ⟨imports', requires', exports', rfl, fun r hr => himports r (himports'.subset hr),
    fun r hr => hrequires r (hrequires'.subset hr), fun r hr => hexports r (hexports'.subset hr)⟩

namespace Extractor

variable {e : Extractor} {text : String} {r : Reference}

/-- A reference that is listed has no URL scheme, and a pattern of its kind finds it. -/
theorem exists_pattern_of_mem_references (h : r ∈ e.references text) :
    hasUrlScheme r.specifier.toList = false ∧
      ∃ p ∈ e.patterns, p.1 = r.kind ∧ r.specifier.toList ∈ p.2.findAll text.toList := by
  rw [references_eq] at h
  obtain ⟨hmem, hscheme⟩ := List.mem_filter.mp ((keepFirstBy_sublist _ _ _).subset h)
  exact ⟨by simpa using hscheme, mem_occurrences_iff.mp hmem⟩

/-- A reference of a script stands between two quotes. -/
theorem isQuotedIn_of_mem_references (he : e.patterns ⊆ typedScript.patterns)
    (h : r ∈ e.references text) : ∃ rest, IsQuotedIn text.toList (r.specifier.toList, rest) := by
  obtain ⟨-, p, hp, -, hfound⟩ := exists_pattern_of_mem_references h
  have hplace : ∀ s found, p.2.recognise s = some found → IsQuotedIn s found := by
    have hpattern := he hp
    simp only [patterns, List.mem_cons, List.not_mem_nil, or_false] at hpattern
    rcases hpattern with rfl | rfl | rfl
    · exact fun _ _ => isQuotedIn_of_keywordFrom?
    · exact fun _ _ => isQuotedIn_of_requireCall?
    · exact fun _ _ => isQuotedIn_of_keywordFrom?
  exact Pattern.exists_place IsQuotedIn.of_suffix IsQuotedIn.rest_suffix hplace hfound

/-- A reference of a file of Python stands after white space. -/
theorem isWordIn_of_mem_references (h : r ∈ python.references text) :
    ∃ rest, IsWordIn text.toList (r.specifier.toList, rest) := by
  obtain ⟨-, p, hp, -, hfound⟩ := exists_pattern_of_mem_references h
  have hplace : ∀ s found, p.2.recognise s = some found → IsWordIn s found := by
    simp only [patterns, List.mem_cons, List.not_mem_nil, or_false] at hp
    rcases hp with rfl | rfl
    · exact fun _ _ => isWordIn_of_fromImportLine
    · exact fun _ _ => isWordIn_of_importLine
  exact Pattern.exists_place IsWordIn.of_suffix IsWordIn.rest_suffix hplace hfound

/-- No reference has an empty specifier. -/
theorem specifier_ne_of_mem_references (h : r ∈ e.references text) : r.specifier ≠ "" := by
  have hne : r.specifier.toList ≠ [] := by
    cases e with
    | script =>
      obtain ⟨rest, hplace⟩ := isQuotedIn_of_mem_references (by simp [patterns]) h
      exact hplace.ne_nil
    | typedScript =>
      obtain ⟨rest, hplace⟩ := isQuotedIn_of_mem_references (List.Subset.refl _) h
      exact hplace.ne_nil
    | python =>
      obtain ⟨rest, hplace⟩ := isWordIn_of_mem_references h
      exact hplace.ne_nil
    | none =>
      obtain ⟨-, p, hp, -⟩ := exists_pattern_of_mem_references h
      cases hp
  simpa using hne

/-- The specifiers that a pattern finds, as references of a kind. -/
def foundBy (p : ReferenceKind × Pattern) (text : String) : List Reference :=
  (p.2.findAll text.toList).map fun specifier => ⟨String.ofList specifier, p.1⟩

/-- What a pattern finds is of the pattern's kind. -/
theorem kind_of_mem_foundBy {p : ReferenceKind × Pattern} (h : r ∈ foundBy p text) :
    r.kind = p.1 := by
  obtain ⟨specifier, -, rfl⟩ := List.mem_map.mp h
  rfl

/-- The patterns of an extractor are tried kind by kind. -/
theorem listedByKind_occurrences (e : Extractor) (text : String) :
    ListedByKind (e.occurrences text) := by
  cases e with
  | script =>
    refine ⟨foundBy (.imports, .importFrom) text, foundBy (.requires, .requireCall) text, [], ?_,
      fun r => kind_of_mem_foundBy, fun r => kind_of_mem_foundBy, nofun⟩
    simp [occurrences, patterns, foundBy]
  | typedScript =>
    refine ⟨foundBy (.imports, .importFrom) text, foundBy (.requires, .requireCall) text,
      foundBy (.exports, .exportFrom) text, ?_, fun r => kind_of_mem_foundBy,
      fun r => kind_of_mem_foundBy, fun r => kind_of_mem_foundBy⟩
    simp [occurrences, patterns, foundBy]
  | python =>
    refine ⟨foundBy (.imports, .fromImportLine) text ++ foundBy (.imports, .importLine) text, [],
      [], ?_, fun r hr => ?_, nofun, nofun⟩
    · simp [occurrences, patterns, foundBy]
    · rcases List.mem_append.mp hr with hr | hr
      · exact kind_of_mem_foundBy hr
      · exact kind_of_mem_foundBy hr
  | none => exact ⟨[], [], [], rfl, nofun, nofun, nofun⟩

/-- The references of a typed script are those of a script and after them exports that no pattern
for scripts finds. -/
theorem exists_references_typedScript_eq (text : String) :
    ∃ exported, typedScript.references text = script.references text ++ exported ∧
      ∀ r ∈ exported, r.kind = .exports ∧
        ∀ p ∈ script.patterns, r.specifier.toList ∉ p.2.findAll text.toList := by
  have hsplit : typedScript.occurrences text =
      script.occurrences text ++ foundBy (.exports, .exportFrom) text := by
    simp [occurrences, patterns, foundBy]
  -- Of the exports those are left that were not seen among what the patterns for scripts find.
  have happend := keepFirstBy_append Reference.specifier []
    ((script.occurrences text).filter fun r => !hasUrlScheme r.specifier.toList)
    ((foundBy (.exports, .exportFrom) text).filter fun r => !hasUrlScheme r.specifier.toList)
  rw [← List.filter_append, ← hsplit, ← references_eq, ← references_eq] at happend
  refine ⟨_, happend, fun r hr => ?_⟩
  obtain ⟨hnew, before, after, heq, -⟩ := mem_keepFirstBy_iff.mp hr
  have hmem : r ∈ before ++ r :: after := List.mem_append_right before List.mem_cons_self
  rw [← heq, List.mem_filter] at hmem
  refine ⟨kind_of_mem_foundBy hmem.1, fun p hp hfound => hnew ?_⟩
  -- What a pattern for scripts finds has a key of the references before.
  have hoccurs : ⟨r.specifier, p.1⟩ ∈ script.occurrences text :=
    mem_occurrences_iff.mpr ⟨p, hp, rfl, hfound⟩
  rw [List.append_nil]
  exact List.mem_map.mpr ⟨⟨r.specifier, p.1⟩, List.mem_filter.mpr ⟨hoccurs, hmem.2⟩, rfl⟩

/-- What is listed for a text, whatever it is. Each specifier is listed once, is not empty and does
not begin with a URL scheme, and the kinds come one after another. Those of scripts stand between
two quotes on one line, and those of files of Python are words after white space. A typed script has
the references of a script, and after them exports that neither of the patterns for scripts
finds. -/
theorem references_of_any_text (text : String) :
    (∀ e : Extractor,
      ((e.references text).map (·.specifier)).Nodup ∧ ListedByKind (e.references text) ∧
        ∀ r ∈ e.references text, r.specifier ≠ "" ∧ ¬BeginsWithScheme r.specifier.toList) ∧
    (∀ e ∈ [script, typedScript], ∀ r ∈ e.references text,
      '\n' ∉ r.specifier.toList ∧ r.IsBetweenQuotes text) ∧
    (∀ r ∈ python.references text, IsSolid r.specifier.toList ∧ r.IsAfterBlank text) ∧
    ∃ exported, typedScript.references text = script.references text ++ exported ∧
      ∀ r ∈ exported, r.kind = .exports ∧
        r.specifier.toList ∉ Pattern.importFrom.findAll text.toList ∧
        r.specifier.toList ∉ Pattern.requireCall.findAll text.toList := by
  refine ⟨fun e => ⟨?distinct, ?kinds, fun r hr => ⟨specifier_ne_of_mem_references hr, ?scheme⟩⟩,
    fun e he r hr => ?quoted, fun r hr => ?word, ?typed⟩
  case distinct =>
    rw [references_eq]
    exact nodup_map_keepFirstBy _ _ _
  case kinds =>
    rw [references_eq]
    exact (listedByKind_occurrences e text).sublist
      ((keepFirstBy_sublist _ _ _).trans List.filter_sublist)
  case scheme =>
    rw [← hasUrlScheme_iff, (exists_pattern_of_mem_references hr).1]
    exact Bool.false_ne_true
  case quoted =>
    have hpatterns : e.patterns ⊆ typedScript.patterns := by
      simp only [List.mem_cons, List.not_mem_nil, or_false] at he
      rcases he with rfl | rfl
      · simp [patterns]
      · exact List.Subset.refl _
    obtain ⟨rest, hplace⟩ := isQuotedIn_of_mem_references hpatterns hr
    obtain ⟨before, q, q', after, hq, hq', heq⟩ := hplace.exists_eq
    exact ⟨hplace.feed_notMem, before, q, q', after ++ rest, hq, hq', heq⟩
  case word =>
    obtain ⟨rest, hplace⟩ := isWordIn_of_mem_references hr
    obtain ⟨before, b, after, hb, heq⟩ := hplace.exists_eq
    exact ⟨hplace.solid, before, b, after ++ rest, hb, heq⟩
  case typed =>
    obtain ⟨exported, happend, hexported⟩ := exists_references_typedScript_eq text
    refine ⟨exported, happend, fun r hr => ?_⟩
    obtain ⟨hkind, hnone⟩ := hexported r hr
    exact ⟨hkind, hnone (.imports, .importFrom) (by simp [patterns]),
      hnone (.requires, .requireCall) (by simp [patterns])⟩

end Extractor

end RepoGraph
