/-!
# Cutting text at a character or a word

`splitOn` and `joinWith` are inverse to each other: the pieces of a text between the occurrences of
a separator, and the text that they came from. `cut?` divides a text at the first occurrence of a
character, `after?` removes a word from its front.
-/

namespace RepoGraph.Text

/-- The pieces between the occurrences of the separator: one more than there are occurrences. -/
def splitOn (sep : Char) : List Char → List (List Char)
  | [] => [[]]
  | c :: cs =>
    if c = sep then [] :: splitOn sep cs
    else match splitOn sep cs with
      | [] => [[c]]
      | piece :: pieces => (c :: piece) :: pieces

/-- The pieces in one text, with the separator between neighbours. -/
def joinWith (sep : Char) : List (List Char) → List Char
  | [] => []
  | [piece] => piece
  | piece :: pieces => piece ++ sep :: joinWith sep pieces

/-- A text has at least one piece. -/
theorem splitOn_ne_nil (sep : Char) (s : List Char) : splitOn sep s ≠ [] := by
  cases s with
  | nil => simp [splitOn]
  | cons c cs =>
    by_cases h : c = sep
    · simp [splitOn, h]
    · simp only [splitOn, h, if_false]
      split <;> simp

/-- Joining the pieces of a text gives the text back. -/
theorem joinWith_splitOn (sep : Char) (s : List Char) : joinWith sep (splitOn sep s) = s := by
  induction s with
  | nil => rfl
  | cons c cs ih =>
    by_cases h : c = sep
    · subst h
      simp only [splitOn, if_true]
      match hs : splitOn c cs with
      | [] => exact absurd hs (splitOn_ne_nil c cs)
      | piece :: pieces => rw [← ih, hs]; simp [joinWith]
    · simp only [splitOn, h, if_false]
      match hs : splitOn sep cs with
      | [] => exact absurd hs (splitOn_ne_nil sep cs)
      | [piece] => rw [hs] at ih; simp_all [joinWith]
      | piece :: next :: pieces => rw [hs] at ih; simp_all [joinWith]

/-- The text before and after the first occurrence of the character, if there is one. -/
def cut? (sep : Char) : List Char → Option (List Char × List Char)
  | [] => none
  | c :: cs => if c = sep then some ([], cs) else (cut? sep cs).map fun r => (c :: r.1, r.2)

/-- The text up to the first occurrence of the character, or all of it. -/
def before (sep : Char) (s : List Char) : List Char := s.takeWhile (· != sep)

/-- The text after the last occurrence of the character, or all of it. -/
def afterLast (sep : Char) (s : List Char) : List Char :=
  (s.reverse.takeWhile (· != sep)).reverse

/-- The text before the last occurrence of the character, if there is one. -/
def beforeLast? (sep : Char) (s : List Char) : Option (List Char) :=
  (cut? sep s.reverse).map (·.2.reverse)

/-- What follows a word at the front of a text. -/
def after? : (word s : List Char) → Option (List Char)
  | [], s => some s
  | _ :: _, [] => none
  | w :: word, c :: cs => if w = c then after? word cs else none

/-- A word removed from the front of a text gives the text when put back. -/
theorem eq_append_of_after? {word s rest : List Char} (h : after? word s = some rest) :
    s = word ++ rest := by
  induction word generalizing s with
  | nil => simp [after?] at h; simp [h]
  | cons w word ih =>
    cases s with
    | nil => simp [after?] at h
    | cons c cs =>
      by_cases hw : w = c
      · simp only [after?, hw, if_true] at h
        simp [hw, ih h]
      · simp [after?, hw] at h

/-- The word at the front of a text can be removed. -/
theorem after?_append (word rest : List Char) : after? word (word ++ rest) = some rest := by
  induction word with
  | nil => rfl
  | cons w word ih => simp [after?, ih]

/-- The text begins with the word. -/
def startsWith (word s : List Char) : Bool := (after? word s).isSome

/-- The word occurs in the text. -/
def occurs (word : List Char) : List Char → Bool
  | [] => word.isEmpty
  | c :: cs => startsWith word (c :: cs) || occurs word cs

/-- The text without the word at its end, if it ends with it. -/
def dropSuffix (word s : List Char) : List Char :=
  ((after? word.reverse s.reverse).map List.reverse).getD s

end RepoGraph.Text
