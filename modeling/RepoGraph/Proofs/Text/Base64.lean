import Mathlib.Tactic.IntervalCases
import RepoGraph.Text.Base64

/-!
# Base 64 is read as it is written

The lenient reader takes the characters of octets one after another, and so gives these octets for
any number of them (`decode_encode`). Line feeds are no characters of octets: wherever they are put
into a text (`IsWrapped`), leaving them out gives the text back (`IsWrapped.filter_eq`).
-/

namespace RepoGraph.Text.Base64

variable {n bits pads : Nat} {rest : List Char}

/-- The character for a number is read as that number. It is no padding, no line feed, and one of
ASCII. -/
theorem value?_digit (h : n < 64) :
    value? (digit n) = some n ∧ digit n ≠ '=' ∧ digit n ≠ '\n' ∧ (digit n).toNat ≤ 0x7F := by
  interval_cases n <;> decide

/-- The first character of a group. -/
theorem decodeFrom_start (h : n < 64) :
    decodeFrom .start pads (digit n :: rest) = decodeFrom (.one n) 0 rest := by
  obtain ⟨hvalue, hpad, -⟩ := value?_digit h
  simp only [decodeFrom, if_neg hpad, hvalue]

/-- The second character completes the first octet of a group. -/
theorem decodeFrom_one (h : n < 64) :
    decodeFrom (.one bits) pads (digit n :: rest) =
      (decodeFrom (.two (n % 16)) 0 rest).map (UInt8.ofNat (bits * 4 + n / 16) :: ·) := by
  obtain ⟨hvalue, hpad, -⟩ := value?_digit h
  simp only [decodeFrom, if_neg hpad, hvalue]

/-- The third character completes the second octet. -/
theorem decodeFrom_two (h : n < 64) :
    decodeFrom (.two bits) pads (digit n :: rest) =
      (decodeFrom (.three (n % 4)) 0 rest).map (UInt8.ofNat (bits * 16 + n / 4) :: ·) := by
  obtain ⟨hvalue, hpad, -⟩ := value?_digit h
  simp only [decodeFrom, if_neg hpad, hvalue]

/-- The fourth character completes the third octet, and the group. -/
theorem decodeFrom_three (h : n < 64) :
    decodeFrom (.three bits) pads (digit n :: rest) =
      (decodeFrom .start 0 rest).map (UInt8.ofNat (bits * 64 + n) :: ·) := by
  obtain ⟨hvalue, hpad, -⟩ := value?_digit h
  simp only [decodeFrom, if_neg hpad, hvalue]

/-- Octets are read back from their characters. -/
theorem decode_encode (bs : List UInt8) : decode (encode bs) = .ok bs := by
  unfold decode
  fun_induction encode bs with
  | case1 => rfl
  | case2 a n =>
    -- The bits that two characters have beyond one octet are not read.
    have ha := a.toNat_lt
    have hfirst : n / 64 * 4 + n % 64 / 16 = a.toNat := by omega
    rw [decodeFrom_start (by omega), decodeFrom_one (by omega), hfirst, UInt8.ofNat_toNat]
    rfl
  | case3 a b n =>
    have ha := a.toNat_lt
    have hb := b.toNat_lt
    have hfirst : n / 4096 * 4 + n / 64 % 64 / 16 = a.toNat := by omega
    have hsecond : n / 64 % 64 % 16 * 16 + n % 64 / 4 = b.toNat := by omega
    rw [decodeFrom_start (by omega), decodeFrom_one (by omega), decodeFrom_two (by omega),
      hfirst, hsecond, UInt8.ofNat_toNat, UInt8.ofNat_toNat]
    rfl
  | case4 a b c rest n ih =>
    have ha := a.toNat_lt
    have hb := b.toNat_lt
    have hc := c.toNat_lt
    have hfirst : n / 262144 * 4 + n / 4096 % 64 / 16 = a.toNat := by omega
    have hsecond : n / 4096 % 64 % 16 * 16 + n / 64 % 64 / 4 = b.toNat := by omega
    have hthird : n / 64 % 64 % 4 * 64 + n % 64 = c.toNat := by omega
    rw [decodeFrom_start (by omega), decodeFrom_one (by omega), decodeFrom_two (by omega),
      decodeFrom_three (by omega), ih, hfirst, hsecond, hthird, UInt8.ofNat_toNat,
      UInt8.ofNat_toNat, UInt8.ofNat_toNat]
    rfl

/-- The characters of octets are of ASCII, and no line feeds. -/
theorem of_mem_encode {bs : List UInt8} {c : Char} (h : c ∈ encode bs) :
    c ≠ '\n' ∧ c.toNat ≤ 0x7F := by
  have hdigit {n : Nat} (hn : n < 64) : digit n ≠ '\n' ∧ (digit n).toNat ≤ 0x7F :=
    (value?_digit hn).2.2
  have hpad : '=' ≠ '\n' ∧ '='.toNat ≤ 0x7F := by decide
  fun_induction encode bs with
  | case1 => cases h
  | case2 a n =>
    have ha := a.toNat_lt
    simp only [List.mem_cons, List.not_mem_nil, or_false] at h
    rcases h with rfl | rfl | rfl | rfl
    · exact hdigit (by omega)
    · exact hdigit (by omega)
    · exact hpad
    · exact hpad
  | case3 a b n =>
    have ha := a.toNat_lt
    have hb := b.toNat_lt
    simp only [List.mem_cons, List.not_mem_nil, or_false] at h
    rcases h with rfl | rfl | rfl | rfl
    · exact hdigit (by omega)
    · exact hdigit (by omega)
    · exact hdigit (by omega)
    · exact hpad
  | case4 a b c' rest n ih =>
    have ha := a.toNat_lt
    have hb := b.toNat_lt
    have hc := c'.toNat_lt
    simp only [List.mem_cons] at h
    rcases h with rfl | rfl | rfl | rfl | h
    · exact hdigit (by omega)
    · exact hdigit (by omega)
    · exact hdigit (by omega)
    · exact hdigit (by omega)
    · exact ih h

/-! ## Line feeds -/

/-- The second text is the first one with line feeds put in, any number of them at any places. -/
inductive IsWrapped : List Char → List Char → Prop
  /-- There is nothing left of either. -/
  | nil : IsWrapped [] []
  /-- A character of both. -/
  | char (c : Char) {s t : List Char} (h : IsWrapped s t) : IsWrapped (c :: s) (c :: t)
  /-- A line feed that was put in. -/
  | feed {s t : List Char} (h : IsWrapped s t) : IsWrapped s ('\n' :: t)

/-- Without line feeds a text is what it was before they were put in. -/
theorem IsWrapped.filter_eq {s t : List Char} (h : IsWrapped s t) (hs : '\n' ∉ s) :
    t.filter (· != '\n') = s := by
  induction h with
  | nil => rfl
  | char c h ih =>
    obtain ⟨hc, hs⟩ := not_or.mp fun hmem => hs (List.mem_cons.mpr hmem)
    rw [List.filter_cons_of_pos (by simpa using Ne.symm hc), ih hs]
  | feed h ih => rw [List.filter_cons_of_neg (by decide), ih hs]

end RepoGraph.Text.Base64
