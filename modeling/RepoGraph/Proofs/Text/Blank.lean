import Mathlib.Data.List.DropRight
import RepoGraph.Text.Blank

/-!
# Trimming a text

Trimming drops white space at both ends of a text and nothing else (`exists_eq_append_trim`): white
space in front does not count (`trim_append_of_blank`), and what stands up to a character that is no
white space is kept (`dropRightWhile_append_cons`). A text without white space at its ends is left
as it is (`IsTrimmed.trim_eq`).
-/

namespace RepoGraph.Text

variable {c : Char} {s : List Char}

/-- The text is nothing but white space. -/
def IsBlank (s : List Char) : Prop := ∀ c ∈ s, isBlank c = true

/-- There is no white space at either end of the text. -/
structure IsTrimmed (s : List Char) : Prop where
  first : ∀ c ∈ s.head?, isBlank c = false
  last : ∀ c ∈ s.getLast?, isBlank c = false

/-! ## The end of a text -/

section End

variable (p : Char → Bool)

/-- Dropping characters of a class at the end of a text. -/
theorem dropRightWhile_eq_rdropWhile (s : List Char) : dropRightWhile p s = s.rdropWhile p := rfl

variable {p}

/-- A character that is not of the class, and all before it, are kept. -/
theorem dropRightWhile_append_cons (hc : p c = false) (s t : List Char) :
    dropRightWhile p (s ++ c :: t) = s ++ c :: dropRightWhile p t := by
  have hc : ¬p c = true := by rw [hc]; decide
  simp only [dropRightWhile_eq_rdropWhile]
  induction t using List.reverseRecOn with
  | nil => rw [List.rdropWhile_concat_neg p s c hc, List.rdropWhile_nil]
  | append_singleton t d ih =>
    rw [← List.cons_append, ← List.append_assoc, List.rdropWhile_concat, List.rdropWhile_concat, ih]
    split
    · rfl
    · rw [List.append_assoc, List.cons_append]

end End

/-! ## Both ends -/

/-- White space in front does not count. -/
theorem trim_append_of_blank {blanks : List Char} (h : IsBlank blanks) (s : List Char) :
    trim (blanks ++ s) = trim s := by
  rw [trim, trimLeft, List.dropWhile_append_of_pos h]
  rfl

/-- White space before a character that is none is dropped from what stands before it. -/
theorem dropWhile_append_cons (hc : isBlank c = false) (front z : List Char) :
    (front ++ c :: z).dropWhile isBlank = front.dropWhile isBlank ++ c :: z := by
  rw [List.dropWhile_append]
  split
  · rename_i hempty
    rw [List.isEmpty_iff.mp hempty, List.dropWhile_cons_of_neg (by rw [hc]; decide)]
    rfl
  · rfl

/-- White space is trimmed before and after a character that is none. -/
theorem trim_append_cons (hc : isBlank c = false) (s t : List Char) :
    trim (s ++ c :: t) = trimLeft s ++ c :: trimRight t := by
  rw [trim, trimLeft, dropWhile_append_cons hc]
  exact dropRightWhile_append_cons hc _ t

/-- A text that does not begin with white space is trimmed at its end only. -/
theorem trim_cons (hc : isBlank c = false) (s : List Char) : trim (c :: s) = c :: trimRight s :=
  trim_append_cons hc [] s

/-- There is no white space at the ends of a text without any. -/
theorem IsTrimmed.of_forall (h : ∀ c ∈ s, isBlank c = false) : IsTrimmed s where
  first _ hc := h _ (List.mem_of_mem_head? hc)
  last _ hc := h _ (List.mem_of_mem_getLast? hc)

/-- A text without white space at its ends is left as it is. -/
theorem IsTrimmed.trim_eq (h : IsTrimmed s) : trim s = s := by
  have hleft : trimLeft s = s := by
    cases s with
    | nil => rfl
    | cons c s => exact List.dropWhile_cons_of_neg (by rw [h.first c rfl]; decide)
  have hright : trimRight s = s := by
    refine List.rdropWhile_eq_self_iff.mpr fun hne => ?_
    rw [h.last _ (List.getLast?_eq_some_getLast hne)]
    decide
  rw [trim, hleft, hright]

/-- A string without white space at its ends is left as it is. -/
theorem IsTrimmed.trimmed_eq {s : String} (h : IsTrimmed s.toList) : trimmed s = s := by
  rw [trimmed, h.trim_eq, String.ofList_toList]

/-- A text is white space, or begins with a character that is none after white space. -/
theorem isBlank_or_exists_eq_append (s : List Char) :
    IsBlank s ∨ ∃ blanks c rest, s = blanks ++ c :: rest ∧ IsBlank blanks ∧ isBlank c = false := by
  induction s with
  | nil => exact .inl nofun
  | cons c s ih =>
    cases hc : isBlank c with
    | false => exact .inr ⟨[], c, s, rfl, nofun, hc⟩
    | true =>
      rcases ih with hblank | ⟨blanks, d, rest, rfl, hblanks, hd⟩
      · exact .inl (List.forall_mem_cons.mpr ⟨hc, hblank⟩)
      · exact .inr ⟨c :: blanks, d, rest, rfl, List.forall_mem_cons.mpr ⟨hc, hblanks⟩, hd⟩

/-- Trimming the end first changes nothing. -/
theorem trim_trimRight (s : List Char) : trim (trimRight s) = trim s := by
  -- A text of white space is dropped from either end; any other has a character that stops both.
  rcases isBlank_or_exists_eq_append s with hblank | ⟨blanks, c, rest, rfl, hblanks, hc⟩
  · have hright : trimRight s = [] := List.rdropWhile_eq_nil_iff.mpr hblank
    have hleft : trimLeft s = [] := List.dropWhile_eq_nil_iff.mpr hblank
    rw [hright, trim, trim, hleft]
    rfl
  · have hright : trimRight (blanks ++ c :: rest) = blanks ++ c :: trimRight rest :=
      dropRightWhile_append_cons hc blanks rest
    have hagain : trimRight (trimRight rest) = trimRight rest :=
      List.rdropWhile_idempotent isBlank rest
    rw [hright, trim_append_of_blank hblanks, trim_append_of_blank hblanks, trim_cons hc,
      trim_cons hc, hagain]

/-- Trimming the front first changes nothing. -/
theorem trim_trimLeft (s : List Char) : trim (trimLeft s) = trim s := by
  rw [trim, trim, trimLeft, trimLeft, List.dropWhile_idempotent]

/-- White space after a text that is trimmed is dropped. -/
theorem IsTrimmed.trim_append {blanks : List Char} (h : IsTrimmed s) (hblanks : IsBlank blanks) :
    trim (s ++ blanks) = s := by
  have hright : trimRight (s ++ blanks) = trimRight s := by
    unfold trimRight dropRightWhile
    rw [List.reverse_append, List.dropWhile_append_of_pos fun c hc =>
      hblanks c (List.mem_reverse.mp hc)]
  rw [← trim_trimRight, hright, trim_trimRight, h.trim_eq]

/-- A text is what trimming leaves of it, between white space. -/
theorem exists_eq_append_trim (s : List Char) :
    ∃ front back, s = front ++ trim s ++ back ∧ IsBlank front ∧ IsBlank back := by
  have hleft : s.takeWhile isBlank ++ trimLeft s = s := List.takeWhile_append_dropWhile
  have hright : trim s ++ (trimLeft s).rtakeWhile isBlank = trimLeft s :=
    List.rdropWhile_append_rtakeWhile
  refine ⟨s.takeWhile isBlank, (trimLeft s).rtakeWhile isBlank, ?_,
    fun c hc => List.mem_takeWhile_imp hc, fun c hc => List.mem_rtakeWhile_imp hc⟩
  rw [List.append_assoc, hright, hleft]

/-- Trimming a text adds nothing. -/
theorem trim_subset (s : List Char) : trim s ⊆ s := by
  obtain ⟨front, back, hs, -, -⟩ := exists_eq_append_trim s
  intro c hc
  rw [hs]
  exact List.mem_append_left _ (List.mem_append_right _ hc)

end RepoGraph.Text
