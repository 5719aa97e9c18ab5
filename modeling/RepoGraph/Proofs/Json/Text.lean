import Mathlib.Tactic.IntervalCases
import RepoGraph.Json.Reader
import RepoGraph.Json.Writer

/-!
# Texts in JSON are read back

A style of writing is legible when each character, however it is escaped, is read back as itself
(`Style.IsLegible`). Both styles are: the one that keeps characters (`isLegible_stable`) and the one
that writes printable ASCII only (`isLegible_compact`), where a character beyond four hexadecimal
digits is a pair of halves. In a legible style a whole text is read back (`readText_flatMap`).
-/

namespace RepoGraph.Json

open RepoGraph.Text

/-- A character of a text is read back as it was written, whatever was read before it; something
follows it, the closing mark at least. -/
def Style.IsLegible (style : Style) : Prop :=
  ∀ (whole done : List Char) (c next : Char) (rest : List Char),
    readText whole done (style.character c ++ next :: rest) =
      readText whole (c :: done) (next :: rest)

variable {whole done rest : List Char}

/-! ## Escapes -/

/-- An escape by one letter is read as the character that the letter stands for. -/
theorem readText_letter {c e : Char} (hc : escaped? c = some e) :
    readText whole done ('\\' :: c :: rest) = readText whole (e :: done) rest := by
  have hu : c ≠ 'u' := by
    rintro rfl
    simp [escaped?] at hc
  rw [readText.eq_def]
  split <;> grind

/-- An escape by code that is no first half is read as the character of the code. The patterns of
the reader overlap, as the code may or may not be followed by another one. -/
theorem readText_code {a b c d next : Char} {n : Nat} (hn : fourHex? a b c d = some n)
    (hhigh : isHighHalf n = false) :
    readText whole done ('\\' :: 'u' :: a :: b :: c :: d :: next :: rest) =
      readText whole (ofCode n :: done) (next :: rest) := by
  rw [readText.eq_def]
  split <;> grind

/-- Two escapes by code that are halves of a pair are read as one character. -/
theorem readText_pair {a b c d e f g h next : Char} {n m : Nat} (hn : fourHex? a b c d = some n)
    (hhigh : isHighHalf n = true) (hm : fourHex? e f g h = some m) (hlow : isLowHalf m = true) :
    readText whole done
        ('\\' :: 'u' :: a :: b :: c :: d :: '\\' :: 'u' :: e :: f :: g :: h :: next :: rest) =
      readText whole (Char.ofNat (0x10000 + (n - 0xD800) * 0x400 + (m - 0xDC00)) :: done)
        (next :: rest) := by
  rw [readText.eq_def]
  simp [hn, hm, hhigh, hlow]

/-- A character that needs no escape is read as itself. -/
theorem readText_plain {c : Char} (hquote : c ≠ '"') (hbackslash : c ≠ '\\')
    (hcontrol : 0x20 ≤ c.toNat) :
    readText whole done (c :: rest) = readText whole (c :: done) rest := by
  have hnot : ¬c.toNat < 0x20 := by omega
  rw [readText.eq_def]
  split <;> simp_all

/-! ## Hexadecimal digits -/

/-- A digit has the value that it was written for. -/
theorem hexValue?_hexDigit {n : Nat} (h : n < 16) : hexValue? (hexDigit n) = some n := by
  interval_cases n <;> rfl

/-- Four digits are read as the number that they were written for. -/
theorem exists_hexText_four {n : Nat} (h : n < 0x10000) :
    ∃ a b c d, hexText 4 n = [a, b, c, d] ∧ fourHex? a b c d = some n := by
  refine ⟨hexDigit (n / 16 / 16 / 16 % 16), hexDigit (n / 16 / 16 % 16), hexDigit (n / 16 % 16),
    hexDigit (n % 16), rfl, ?_⟩
  have hvalue (m : Nat) : hexValue? (hexDigit (m % 16)) = some (m % 16) :=
    hexValue?_hexDigit (Nat.mod_lt m (by omega))
  simp only [fourHex?, hvalue, Option.some.injEq]
  omega

/-- A code that is written is read as its character, unless it is a first half. -/
theorem readText_codeEscape {n : Nat} (h : n < 0x10000) (hhigh : isHighHalf n = false)
    (next : Char) :
    readText whole done (codeEscape n ++ next :: rest) =
      readText whole (ofCode n :: done) (next :: rest) := by
  obtain ⟨a, b, c, d, htext, hvalue⟩ := exists_hexText_four h
  rw [codeEscape, htext]
  exact readText_code hvalue hhigh

/-! ## Characters -/

/-- A letter that is written for a character stands for it. -/
theorem escaped?_of_shortEscape? {c : Char} {e : List Char} (h : shortEscape? c = some e) :
    ∃ letter, e = ['\\', letter] ∧ escaped? letter = some c := by
  unfold shortEscape? at h
  split at h
  all_goals cases h
  all_goals exact ⟨_, rfl, rfl⟩

/-- A character without a letter is no mark and no backslash. -/
theorem ne_of_shortEscape?_eq_none {c : Char} (h : shortEscape? c = none) :
    c ≠ '"' ∧ c ≠ '\\' := by
  constructor
  · rintro rfl
    simp [shortEscape?] at h
  · rintro rfl
    simp [shortEscape?] at h

/-- The code of a character is no half of a pair. -/
theorem halves_toNat (c : Char) : isHighHalf c.toNat = false ∧ isLowHalf c.toNat = false := by
  have hvalid : c.toNat < 0xD800 ∨ 0xDFFF < c.toNat ∧ c.toNat < 0x110000 := c.valid
  simp only [isHighHalf, isLowHalf, Bool.and_eq_false_iff, decide_eq_false_iff_not]
  omega

/-- The character of the code of a character is that character. -/
theorem ofCode_toNat (c : Char) : ofCode c.toNat = c := by
  obtain ⟨hhigh, hlow⟩ := halves_toNat c
  simp [ofCode, hhigh, hlow]

/-- An escape by the code of a character is read as the character. -/
theorem readText_codeEscape_toNat {c : Char} (h : c.toNat < 0x10000) (next : Char) :
    readText whole done (codeEscape c.toNat ++ next :: rest) =
      readText whole (c :: done) (next :: rest) := by
  rw [readText_codeEscape h (halves_toNat c).1, ofCode_toNat]

/-- A character beyond four digits is read back from its two halves. -/
theorem readText_halves {c : Char} (h : 0x10000 ≤ c.toNat) (next : Char) :
    readText whole done (codeEscape (0xD800 + (c.toNat - 0x10000) / 0x400) ++
        (codeEscape (0xDC00 + (c.toNat - 0x10000) % 0x400) ++ next :: rest)) =
      readText whole (c :: done) (next :: rest) := by
  -- Both halves have four digits, and the first one is recognised by its range.
  have hlt : c.toNat < 0x110000 := by
    have hvalid : c.toNat < 0xD800 ∨ 0xDFFF < c.toNat ∧ c.toNat < 0x110000 := c.valid
    omega
  obtain ⟨a, b, c', d, hhighText, hhighValue⟩ :=
    exists_hexText_four (n := 0xD800 + (c.toNat - 0x10000) / 0x400) (by omega)
  obtain ⟨e, f, g, h', hlowText, hlowValue⟩ :=
    exists_hexText_four (n := 0xDC00 + (c.toNat - 0x10000) % 0x400) (by omega)
  have hhigh : isHighHalf (0xD800 + (c.toNat - 0x10000) / 0x400) = true := by
    simp only [isHighHalf, Bool.and_eq_true, decide_eq_true_eq]
    omega
  have hlow : isLowHalf (0xDC00 + (c.toNat - 0x10000) % 0x400) = true := by
    simp only [isLowHalf, Bool.and_eq_true, decide_eq_true_eq]
    omega
  -- The two halves make up the code again.
  have hcode : 0x10000 + (0xD800 + (c.toNat - 0x10000) / 0x400 - 0xD800) * 0x400 +
      (0xDC00 + (c.toNat - 0x10000) % 0x400 - 0xDC00) = c.toNat := by omega
  rw [codeEscape, codeEscape, hhighText, hlowText]
  refine (readText_pair hhighValue hhigh hlowValue hlow).trans ?_
  rw [hcode, Char.ofNat_toNat]

/-- A character that is kept unless it must be escaped is read back. -/
theorem isLegible_stable : Style.stable.IsLegible := by
  intro whole done c next rest
  show readText whole done (plainChar c ++ next :: rest) = _
  unfold plainChar
  cases hshort : shortEscape? c with
  | some e =>
    obtain ⟨letter, rfl, hletter⟩ := escaped?_of_shortEscape? hshort
    exact readText_letter hletter
  | none =>
    obtain ⟨hquote, hbackslash⟩ := ne_of_shortEscape?_eq_none hshort
    by_cases hcontrol : c.toNat < 0x20
    · simp only [hcontrol, if_true]
      exact readText_codeEscape_toNat (by omega) next
    · simp only [hcontrol, if_false]
      exact readText_plain hquote hbackslash (by omega)

/-- A character in printable ASCII is read back, from one code or from two. -/
theorem isLegible_compact : Style.compact.IsLegible := by
  intro whole done c next rest
  show readText whole done (asciiChar c ++ next :: rest) = _
  unfold asciiChar
  cases hshort : shortEscape? c with
  | some e =>
    obtain ⟨letter, rfl, hletter⟩ := escaped?_of_shortEscape? hshort
    exact readText_letter hletter
  | none =>
    obtain ⟨hquote, hbackslash⟩ := ne_of_shortEscape?_eq_none hshort
    by_cases hprintable : 0x20 ≤ c.toNat ∧ c.toNat ≤ 0x7E
    · simp only [hprintable, decide_true, Bool.and_self, if_true]
      exact readText_plain hquote hbackslash hprintable.1
    · have hnot : (decide (0x20 ≤ c.toNat) && decide (c.toNat ≤ 0x7E)) = false := by
        simpa using fun h => Nat.lt_of_not_le fun h' => hprintable ⟨h, h'⟩
      -- One code has room for four digits.
      by_cases hfour : c.toNat < 0x10000
      · simp only [hnot, hfour, if_true, Bool.false_eq_true, if_false]
        exact readText_codeEscape_toNat hfour next
      · simp only [hnot, hfour, Bool.false_eq_true, if_false, List.append_assoc]
        exact readText_halves (by omega) next

/-! ## Texts -/

/-- The characters of a text are read back up to its closing mark. -/
theorem readText_flatMap {style : Style} (h : style.IsLegible) (s whole done rest : List Char) :
    readText whole done (s.flatMap style.character ++ '"' :: rest) =
      .ok (String.ofList (done.reverse ++ s), rest) := by
  induction s generalizing done with
  | nil => simp [readText]
  | cons c s ih =>
    -- Something follows the character: the next one, or the closing mark.
    obtain ⟨next, tail, htail⟩ :
        ∃ next tail, s.flatMap style.character ++ '"' :: rest = next :: tail :=
      List.exists_cons_of_ne_nil (by simp)
    rw [List.flatMap_cons, List.append_assoc, htail, h, ← htail, ih]
    simp

/-- A text between its marks is read back. -/
theorem readText_writeText {style : Style} (h : style.IsLegible) (s : String)
    (rest : List Char) : ∃ cs, writeText style s ++ rest = '"' :: cs ∧
      ∀ whole, readText whole [] cs = .ok (s, rest) := by
  refine ⟨s.toList.flatMap style.character ++ '"' :: rest, by simp [writeText], fun whole => ?_⟩
  rw [readText_flatMap h]
  simp

end RepoGraph.Json
