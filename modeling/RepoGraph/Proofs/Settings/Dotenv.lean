import RepoGraph.Proofs.Text.Ascii
import RepoGraph.Proofs.Text.Blank
import RepoGraph.Proofs.Text.Split
import RepoGraph.Settings.Dotenv

/-!
# Writing values to a file of variables

A line that begins with a name and an equals sign, perhaps after the word `export`, sets the name to
the value that is written after it (`parseChars_line`). Between double quotes any value can be
written (`parseValue_double`), between single quotes any without such a quote
(`parseValue_single`), and without quotes any that needs none (`IsBare`, `parseValue_bare`,
`parseValue_comment`). What follows the closing quote, or the sign of a comment, does not count
(`parseLine_written`).
-/

namespace RepoGraph.Dotenv

open RepoGraph.Text

variable {name text value : List Char}

/-! ## Names -/

/-- The character may stand in a name. -/
def isNameChar (c : Char) : Bool := c.isAlphanum || c == '_'

/-- The name is a letter or a low line, and letters, digits and low lines after it. -/
structure IsName (name : List Char) : Prop where
  ne_nil : name ≠ []
  first : ∀ c ∈ name.head?, c.isDigit = false
  chars : ∀ c ∈ name, isNameChar c = true

/-- A character of a name is visible. -/
theorem toNat_of_isNameChar {c : Char} (h : isNameChar c = true) :
    0x2F < c.toNat ∧ c.toNat < 0x7F ∧ c ≠ '=' := by
  rcases Bool.or_eq_true_iff.mp h with halphanum | hline
  · have hrange := isAlphanum_iff.mp halphanum
    refine ⟨by omega, by omega, ?_⟩
    rintro rfl
    cases halphanum
  · obtain rfl := beq_iff_eq.mp hline
    decide

/-- There is no white space in a name. -/
theorem IsName.isBlank_of_mem (h : IsName name) {c : Char} (hc : c ∈ name) : isBlank c = false := by
  obtain ⟨hlow, hhigh, -⟩ := toNat_of_isNameChar (h.chars c hc)
  exact isBlank_of_visible (by omega) hhigh

/-- There is no equals sign in a name. -/
theorem IsName.equals_notMem (h : IsName name) : '=' ∉ name := fun hmem =>
  (toNat_of_isNameChar (h.chars _ hmem)).2.2 rfl

/-! ## Lines -/

/-- The word that may stand before a name, with the space after it. -/
def exportWord : List Char := ['e', 'x', 'p', 'o', 'r', 't', ' ']

/-- What may stand before a name: white space, or the word `export` between white space. -/
inductive IsFront : List Char → Prop
  | blank {blanks : List Char} : IsBlank blanks → IsFront blanks
  | exported {blanks more : List Char} : IsBlank blanks → IsBlank more →
      IsFront (blanks ++ exportWord ++ more)

/-- A name is not taken for the word `export`, since there is no space in it. -/
theorem dropExport_name (h : IsName name) (text : List Char) :
    dropExport (name ++ '=' :: text) = name ++ '=' :: text := by
  unfold dropExport
  split
  · rename_i rest hrest
    have hbegins : exportWord <+: name ++ '=' :: text := ⟨rest, (eq_append_of_after? hrest).symm⟩
    have hname : exportWord <+: name := (prefix_append_cons_iff (by decide)).mp hbegins
    have hspace : ' ' ∈ name := hname.subset (by decide)
    cases h.isBlank_of_mem hspace
  · rfl

/-- The word `export` is dropped from the front of a name. -/
theorem dropExport_exported {more : List Char} (hmore : IsBlank more) (h : IsName name)
    (text : List Char) :
    dropExport (exportWord ++ (more ++ (name ++ '=' :: text))) = name ++ '=' :: text := by
  obtain ⟨c, cs, rfl⟩ := List.exists_cons_of_ne_nil h.ne_nil
  have hc := h.isBlank_of_mem List.mem_cons_self
  have hafter : after? ['e', 'x', 'p', 'o', 'r', 't', ' ']
      (exportWord ++ (more ++ (c :: cs ++ '=' :: text))) =
        some (more ++ (c :: cs ++ '=' :: text)) := after?_append exportWord _
  unfold dropExport
  rw [hafter]
  show trimLeft _ = _
  rw [trimLeft, List.dropWhile_append_of_pos hmore, List.cons_append,
    List.dropWhile_cons_of_neg (by rw [hc]; decide)]

/-- White space at the end of a value does not count. -/
theorem parseValue_trimRight (s : List Char) : parseValue (trimRight s) = parseValue s := by
  unfold parseValue
  rw [trim_trimRight]

/-- A line sets the name that stands before its first equals sign. -/
theorem parseChars_of_dropExport {line s : List Char} {c : Char} (htrim : trim line = c :: s)
    (hmark : c ≠ '#') (h : IsName name) (hdrop : dropExport (c :: s) = name ++ '=' :: text) :
    parseChars line = some (name, parseValue text) := by
  have hempty : name.isEmpty = false := List.isEmpty_eq_false_iff.mpr h.ne_nil
  unfold parseChars
  rw [htrim]
  split
  · rename_i hnil
    cases hnil
  · rename_i hcons
    exact absurd (List.cons.inj hcons).1 hmark
  · rw [hdrop, cut?_append_cons h.equals_notMem]
    dsimp only
    rw [(IsTrimmed.of_forall fun _ hc => h.isBlank_of_mem hc).trim_eq, hempty]
    rfl

/-- A line that begins with a name and an equals sign sets the name to the value that is written
after it. -/
theorem parseChars_line {front : List Char} (hfront : IsFront front) (h : IsName name)
    (text : List Char) :
    parseChars (front ++ (name ++ '=' :: text)) = some (name, parseValue text) := by
  -- The whole line is trimmed before it is cut, and so is the value at its end; the equals sign
  -- keeps the name from that.
  rw [← parseValue_trimRight]
  cases hfront with
  | blank hblanks =>
    obtain ⟨c, cs, rfl⟩ := List.exists_cons_of_ne_nil h.ne_nil
    have hchar := toNat_of_isNameChar (h.chars c List.mem_cons_self)
    have htrim : trim (front ++ (c :: cs ++ '=' :: text)) = c :: (cs ++ '=' :: trimRight text) := by
      rw [trim_append_of_blank hblanks, List.cons_append,
        trim_cons (h.isBlank_of_mem List.mem_cons_self), trimRight,
        dropRightWhile_append_cons (by decide)]
      rfl
    have hmark : c ≠ '#' := by
      rintro rfl
      exact absurd hchar.1 (by decide)
    exact parseChars_of_dropExport htrim hmark h (dropExport_name h _)
  | @exported blanks more hblanks hmore =>
    have htrim : trim (blanks ++ exportWord ++ more ++ (name ++ '=' :: text)) =
        exportWord ++ (more ++ (name ++ '=' :: trimRight text)) := by
      have happend : exportWord ++ (more ++ (name ++ '=' :: text)) =
          'e' :: ((['x', 'p', 'o', 'r', 't', ' '] ++ more ++ name) ++ '=' :: text) := by
        simp [exportWord]
      rw [List.append_assoc, List.append_assoc, trim_append_of_blank hblanks, happend,
        trim_cons (by decide), trimRight, dropRightWhile_append_cons (by decide)]
      simp [exportWord, trimRight]
    exact parseChars_of_dropExport htrim (by decide) h (dropExport_exported hmore h _)

/-! ## Values -/

/-- The value with a backslash before each backslash and each double quote. -/
def escaped (value : List Char) : List Char :=
  value.flatMap fun c => if c = '\\' ∨ c = '"' then ['\\', c] else [c]

/-- The value needs no quotes: it does not begin with one, and there is neither the sign of a
comment in it nor white space at its ends. -/
structure IsBare (value : List Char) : Prop where
  quote : '"' ∉ value.head?
  apostrophe : '\'' ∉ value.head?
  mark : '#' ∉ value
  trimmed : IsTrimmed value

/-- The text is read up to the quote. -/
theorem untilQuote_cons_self {mark : Char} {escapes : Bool} (h : mark ≠ '\\') (tail : List Char) :
    untilQuote mark escapes (mark :: tail) = [] := by
  unfold untilQuote
  rw [if_neg (by simp [h]), if_pos rfl]

/-- A character that is neither the quote nor escapes another stands for itself. -/
theorem untilQuote_cons_of_ne {mark c : Char} {escapes : Bool} (h : c ≠ mark)
    (hescape : ¬(escapes = true ∧ c = '\\')) (s : List Char) :
    untilQuote mark escapes (c :: s) = c :: untilQuote mark escapes s := by
  rw [untilQuote.eq_def]
  dsimp only
  rw [if_neg (by simpa using hescape), if_neg h]

/-- What is escaped is read up to the quote that closes it. -/
theorem untilQuote_escaped (value tail : List Char) :
    untilQuote '"' true (escaped value ++ '"' :: tail) = value := by
  induction value with
  | nil => exact untilQuote_cons_self (by decide) tail
  | cons c cs ih =>
    have hrest : escaped (c :: cs) ++ '"' :: tail =
        (if c = '\\' ∨ c = '"' then ['\\', c] else [c]) ++ (escaped cs ++ '"' :: tail) := by
      rw [escaped, List.flatMap_cons, List.append_assoc]
      rfl
    rw [hrest]
    split
    · show c :: untilQuote '"' true (escaped cs ++ '"' :: tail) = _
      rw [ih]
    · rename_i hplain
      rw [not_or] at hplain
      rw [List.singleton_append, untilQuote_cons_of_ne hplain.2 (fun h => hplain.1 h.2), ih]

/-- Where nothing is escaped, a value without the quote is read up to it. -/
theorem untilQuote_of_notMem {mark : Char} (hmark : mark ≠ '\\') (h : mark ∉ value)
    (tail : List Char) : untilQuote mark false (value ++ mark :: tail) = value := by
  induction value with
  | nil => exact untilQuote_cons_self hmark tail
  | cons c cs ih =>
    rw [List.mem_cons, not_or] at h
    rw [List.cons_append, untilQuote_cons_of_ne (Ne.symm h.1) (fun h => Bool.noConfusion h.1),
      ih h.2]

/-- Any value can be written between double quotes. -/
theorem parseValue_double (value tail : List Char) :
    parseValue ('"' :: (escaped value ++ '"' :: tail)) = value := by
  unfold parseValue
  rw [trim_cons (by decide), trimRight, dropRightWhile_append_cons (by decide)]
  exact untilQuote_escaped value _

/-- A value without single quotes can be written between them. -/
theorem parseValue_single (h : '\'' ∉ value) (tail : List Char) :
    parseValue ('\'' :: (value ++ '\'' :: tail)) = value := by
  unfold parseValue
  rw [trim_cons (by decide), trimRight, dropRightWhile_append_cons (by decide)]
  exact untilQuote_of_notMem (by decide) h _

/-- A text without a quote at its front is cut at the sign of a comment. -/
theorem parseValue_of_unquoted {s : List Char} (hquote : '"' ∉ (trim s).head?)
    (hapostrophe : '\'' ∉ (trim s).head?) : parseValue s = trim (before '#' (trim s)) := by
  unfold parseValue
  split
  · rename_i hnil
    rw [hnil]
    rfl
  · rename_i c cs hcons
    rw [hcons, List.head?_cons, Option.mem_some_iff] at hquote hapostrophe
    rw [if_neg (not_or.mpr ⟨hapostrophe, hquote⟩), hcons]

/-- A value that needs no quotes can be written as it is. -/
theorem parseValue_bare (h : IsBare value) : parseValue value = value := by
  have htrim := h.trimmed.trim_eq
  have hbefore : before '#' value = value := by
    refine List.takeWhile_eq_self_iff.mpr fun c hc => bne_iff_ne.mpr ?_
    rintro rfl
    exact h.mark hc
  rw [parseValue_of_unquoted (by rw [htrim]; exact h.quote) (by rw [htrim]; exact h.apostrophe),
    htrim, hbefore, htrim]

/-- Before a comment a value begins as it does alone, and where it is empty the comment begins. -/
theorem IsBare.notMem_head? (h : IsBare value) {q : Char} (hmark : q ≠ '#')
    (hq : q ∉ value.head?) (s : List Char) :
    q ∉ (trimLeft (value ++ [' ']) ++ '#' :: s).head? := by
  cases value with
  | nil => exact fun hmem => hmark (Option.mem_some_iff.mp hmem).symm
  | cons c cs =>
    have hc := h.trimmed.first c rfl
    rw [trimLeft, List.cons_append, List.dropWhile_cons_of_neg (by rw [hc]; decide)]
    exact hq

/-- A comment may follow a value that needs no quotes. -/
theorem parseValue_comment (h : IsBare value) (tail : List Char) :
    parseValue (value ++ ' ' :: '#' :: tail) = value := by
  -- The space before the comment is trimmed twice: in front if the value is empty, and else after
  -- the comment is cut off.
  have hfree : '#' ∉ trimLeft (value ++ [' ']) := by
    intro hmem
    rcases List.mem_append.mp ((List.dropWhile_sublist _).subset hmem) with hvalue | hspace
    · exact h.mark hvalue
    · exact absurd hspace (by decide)
  have htrim : trim (value ++ ' ' :: '#' :: tail) =
      trimLeft (value ++ [' ']) ++ '#' :: trimRight tail := by
    rw [List.append_cons, trim_append_cons (by decide)]
  have hspace : IsBlank [' '] := List.forall_mem_singleton.mpr (by decide)
  rw [parseValue_of_unquoted (by rw [htrim]; exact h.notMem_head? (by decide) h.quote _)
      (by rw [htrim]; exact h.notMem_head? (by decide) h.apostrophe _),
    htrim, before, takeWhile_append_cons hfree, trim_trimLeft, h.trimmed.trim_append hspace]

/-! ## Lines with values -/

/-- The line that sets a name to what is written. -/
def line (front name text : List Char) : String := String.ofList (front ++ (name ++ '=' :: text))

/-- Every value can be written, and is read as it was: between double quotes with what would end it
escaped, between single quotes if there are none in it, and without quotes, alone or before a
comment, if it needs none. -/
theorem parseLine_written {front : List Char} (hfront : IsFront front) (h : IsName name)
    (value tail : List Char) :
    let sets (text : List Char) :=
      parseLine (line front name text) = some (String.ofList name, String.ofList value)
    sets ('"' :: (escaped value ++ '"' :: tail)) ∧
      ('\'' ∉ value → sets ('\'' :: (value ++ '\'' :: tail))) ∧
      (IsBare value → sets value ∧ sets (value ++ ' ' :: '#' :: tail)) := by
  intro sets
  have hsets {text : List Char} (hvalue : parseValue text = value) : sets text := by
    show (parseChars (line front name text).toList).map _ = _
    rw [line, String.toList_ofList, parseChars_line hfront h, hvalue]
    rfl
  refine ⟨hsets (parseValue_double value tail), fun hsingle => ?_, fun hbare => ⟨?_, ?_⟩⟩
  · exact hsets (parseValue_single hsingle tail)
  · exact hsets (parseValue_bare hbare)
  · exact hsets (parseValue_comment hbare tail)

/-- A value with a double quote and a backslash in it, written in each of the ways. -/
theorem parseLine_written_quote :
    IsFront " export ".toList ∧ IsName "KEY".toList ∧ IsBare "a\"\\".toList ∧
      parseLine " export KEY=\"a\\\"\\\\\" b" = some ("KEY", "a\"\\") ∧
      parseLine " export KEY='a\"\\' b" = some ("KEY", "a\"\\") ∧
      parseLine " export KEY=a\"\\" = some ("KEY", "a\"\\") ∧
      parseLine " export KEY=a\"\\ # b" = some ("KEY", "a\"\\") := by
  have hspace : IsBlank [' '] := List.forall_mem_singleton.mpr (by decide)
  have hfront : IsFront " export ".toList := @IsFront.exported [' '] [] hspace nofun
  have hname : IsName "KEY".toList :=
    { ne_nil := by decide
      first := fun c hc => Option.mem_some_iff.mp hc ▸ rfl
      chars := List.all_eq_true.mp (by decide) }
  have hbare : IsBare "a\"\\".toList :=
    { quote := by decide
      apostrophe := by decide
      mark := by decide
      trimmed := ⟨fun c hc => Option.mem_some_iff.mp hc ▸ rfl,
        fun c hc => Option.mem_some_iff.mp hc ▸ rfl⟩ }
  obtain ⟨hdouble, hsingle, hplain⟩ := parseLine_written hfront hname "a\"\\".toList " b".toList
  exact ⟨hfront, hname, hbare, hdouble, hsingle (by decide), hplain hbare⟩

end RepoGraph.Dotenv
