import Mathlib.Data.List.TakeWhile
import RepoGraph.Json.Reader
import RepoGraph.Json.Writer

/-!
# Whole numbers in JSON are read back

A whole number is written by its decimal digits, with a minus in front if it is negative. What
follows a number in a document can extend it neither by a digit nor by a fraction or an exponent
(`EndsNumber`), and so the number is read back (`readScalar_int`), as long as it has no more digits
than are read.
-/

namespace RepoGraph.Json

open RepoGraph.Decimal RepoGraph.Text

/-! ## Digits -/

/-- A character is a digit for the reader exactly when it is one in general. -/
theorem isDigit_iff {c : Char} : Decimal.isDigit c = true ↔ c.isDigit = true := by
  simp only [Decimal.isDigit, Char.isDigit, Bool.and_eq_true, decide_eq_true_eq]
  constructor
  · rintro ⟨hlow, hhigh⟩
    exact ⟨hlow, hhigh⟩
  · rintro ⟨hlow, hhigh⟩
    exact ⟨hlow, hhigh⟩

/-- A number is written in digits. -/
theorem isDigit_of_mem_toDigits {n : Nat} {c : Char} (h : c ∈ Nat.toDigits 10 n) :
    Decimal.isDigit c = true :=
  isDigit_iff.mpr (Nat.isDigit_of_mem_toDigits (by omega) (by omega) h)

/-- A digit differs from what is none. -/
theorem ne_of_isDigit {c d : Char} (hd : Decimal.isDigit d = true)
    (hc : Decimal.isDigit c = false) : c ≠ d := by
  rintro rfl
  rw [hd] at hc
  cases hc

/-- The digits of a number write that number. -/
theorem digitsValue_toDigits (n : Nat) : digitsValue (Nat.toDigits 10 n) = n := by
  -- Both fold the digits from the left, with the factors in another order.
  have hfold : digitsValue (Nat.toDigits 10 n) = Nat.ofDigitChars 10 (Nat.toDigits 10 n) 0 := by
    rw [digitsValue, Nat.ofDigitChars_eq_foldl]
    congr 1
    funext m c
    rw [Nat.mul_comm]
    rfl
  rw [hfold, Nat.ofDigitChars_ten_toDigits]

/-- The first digit of a number. -/
theorem exists_toDigits_eq_cons (n : Nat) :
    ∃ d ds, Nat.toDigits 10 n = d :: ds ∧ Decimal.isDigit d = true := by
  obtain ⟨d, ds, hds⟩ := List.exists_cons_of_ne_nil (Nat.toDigits_ne_nil (n := n) (b := 10))
  exact ⟨d, ds, hds, isDigit_of_mem_toDigits (hds ▸ List.mem_cons_self)⟩

/-- Only zero is written with a zero in front. -/
theorem head?_toDigits {n : Nat} (h : n ≠ 0) : (Nat.toDigits 10 n).head? ≠ some '0' := by
  induction n using Nat.strongRecOn with
  | ind n ih =>
    rw [Nat.toDigits_eq_if (by omega)]
    split
    · rename_i hlt
      intro hzero
      have hchar : Nat.digitChar n = '0' := by simpa using hzero
      have hcode : (Nat.digitChar n).toNat = 48 := by rw [hchar]; rfl
      rw [Nat.toNat_digitChar_of_lt_ten hlt] at hcode
      omega
    · obtain ⟨d, ds, hds, -⟩ := exists_toDigits_eq_cons (n / 10)
      have hhead := ih (n / 10) (by omega) (by omega)
      rw [hds] at hhead ⊢
      exact hhead

/-! ## What follows a number -/

/-- The text does not go on with a number that ends before it. -/
def EndsNumber : List Char → Prop
  | [] => True
  | c :: _ => Decimal.isDigit c = false ∧ c ≠ '.' ∧ c ≠ 'e' ∧ c ≠ 'E'

variable {ds rest : List Char}

/-- The digits of a number are all that is taken from it and what follows. -/
theorem takeWhile_digits (hds : ∀ c ∈ ds, Decimal.isDigit c = true) (hrest : EndsNumber rest) :
    (ds ++ rest).takeWhile Decimal.isDigit = ds := by
  rw [List.takeWhile_append_of_pos hds]
  cases rest with
  | nil => simp
  | cons c rest => simp [hrest.1]

/-- The digits of a number are its whole part. -/
theorem wholePart_toDigits (n : Nat) (hrest : EndsNumber rest) :
    wholePart (Nat.toDigits 10 n ++ rest) = Nat.toDigits 10 n := by
  have htake := takeWhile_digits (fun c => isDigit_of_mem_toDigits (n := n)) hrest
  unfold wholePart
  split
  · -- The digits begin with a zero, and so there is no other one.
    rename_i cs heq
    by_cases hzero : n = 0
    · rw [hzero, Nat.toDigits_zero]
    · obtain ⟨d, ds, hds, -⟩ := exists_toDigits_eq_cons n
      have hhead := head?_toDigits hzero
      rw [hds] at heq hhead
      cases heq
      exact absurd rfl hhead
  · exact htake

/-- No fraction follows. -/
theorem fractionPart_eq_nil (hrest : EndsNumber rest) : fractionPart rest = [] := by
  cases rest with
  | nil => rfl
  | cons c rest =>
    unfold fractionPart
    split
    · rename_i heq
      cases heq
      exact absurd rfl hrest.2.1
    · rfl

/-- No exponent follows. -/
theorem exponentPart?_eq_none (hrest : EndsNumber rest) : exponentPart? rest = none := by
  cases rest with
  | nil => rfl
  | cons c rest =>
    obtain ⟨-, -, he, hE⟩ := hrest
    simp [exponentPart?, he, hE]

/-! ## Numbers -/

/-- Digits after a sign, or after none, are read as a whole number. -/
theorem readNumber_of_takeMinus {s : List Char} {negative : Bool} {n : Nat}
    (hs : takeMinus s = (negative, Nat.toDigits 10 n ++ rest)) (hn : digitCount n ≤ digitLimit)
    (hrest : EndsNumber rest) :
    readNumber s = .ok (.int (if negative then -n else n), rest) := by
  have hlimit : ¬digitLimit < (Nat.toDigits 10 n).length := Nat.not_lt.mpr hn
  unfold readNumber
  simp only [hs, wholePart_toDigits n hrest, List.isEmpty_iff, Nat.toDigits_ne_nil, if_false,
    List.drop_left, fractionPart_eq_nil hrest, if_true, exponentPart?_eq_none hrest, hlimit,
    digitsValue_toDigits, List.isEmpty_nil, Option.isNone_none, Bool.and_self]

/-- A whole number is written by its digits, after a minus if it is negative. -/
theorem toList_toString_int (z : Int) :
    (toString z).toList =
      if z < 0 then '-' :: Nat.toDigits 10 z.natAbs else Nat.toDigits 10 z.natAbs := by
  rw [Int.toString_eq_repr, Int.repr_eq_if]
  by_cases hneg : z < 0
  · have habs : (-z).toNat = z.natAbs := by omega
    rw [if_neg (by omega), if_pos hneg, String.toList_append, Nat.toList_repr, habs]
    rfl
  · have habs : z.toNat = z.natAbs := by omega
    rw [if_pos (by omega), if_neg hneg, Nat.toList_repr, habs]

/-- No word that is a value begins with a digit, or with a minus and a digit. -/
theorem literals_of_isDigit {d : Char} (hd : Decimal.isDigit d = true) (cs : List Char) :
    (literals.findSome? fun l => (after? l.1 (d :: cs)).map fun rest => (l.2, rest)) = none ∧
      (literals.findSome? fun l => (after? l.1 ('-' :: d :: cs)).map fun rest => (l.2, rest)) =
        none := by
  -- The first letters of the words that are values.
  have hn : 'n' ≠ d := ne_of_isDigit hd rfl
  have ht : 't' ≠ d := ne_of_isDigit hd rfl
  have hf : 'f' ≠ d := ne_of_isDigit hd rfl
  have hN : 'N' ≠ d := ne_of_isDigit hd rfl
  have hI : 'I' ≠ d := ne_of_isDigit hd rfl
  have hminus : '-' ≠ d := ne_of_isDigit hd rfl
  simp [literals, after?, hn, ht, hf, hN, hI, hminus]

/-- A whole number is read back, with what follows it. -/
theorem readScalar_int {z : Int} (hz : digitCount z.natAbs ≤ digitLimit) (hrest : EndsNumber rest) :
    readScalar ((toString z).toList ++ rest) = .ok (.int z, rest) := by
  obtain ⟨d, ds, hds, hd⟩ := exists_toDigits_eq_cons z.natAbs
  obtain ⟨hplain, hsigned⟩ := literals_of_isDigit hd (ds ++ rest)
  rw [toList_toString_int]
  by_cases hneg : z < 0
  · have hs : takeMinus ('-' :: Nat.toDigits 10 z.natAbs ++ rest) =
        (true, Nat.toDigits 10 z.natAbs ++ rest) := rfl
    have hread := readNumber_of_takeMinus hs hz hrest
    have hvalue : -(z.natAbs : Int) = z := by omega
    rw [if_pos rfl, hvalue, hds] at hread
    rw [if_pos hneg, hds]
    unfold readScalar
    simp only [List.cons_append] at hread ⊢
    rw [hsigned]
    exact hread
  · have hs : takeMinus (Nat.toDigits 10 z.natAbs ++ rest) =
        (false, Nat.toDigits 10 z.natAbs ++ rest) := by
      rw [hds]
      unfold takeMinus
      split
      · rename_i heq
        cases heq
        cases hd
      · rfl
    have hread := readNumber_of_takeMinus hs hz hrest
    have hvalue : (z.natAbs : Int) = z := by omega
    rw [if_neg Bool.false_ne_true, hvalue, hds] at hread
    rw [if_neg hneg, hds]
    unfold readScalar
    simp only [List.cons_append] at hread ⊢
    rw [hplain]
    exact hread

end RepoGraph.Json
