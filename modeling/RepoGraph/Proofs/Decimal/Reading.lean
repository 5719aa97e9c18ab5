import RepoGraph.Proofs.Json.Number
import RepoGraph.Proofs.Text.Blank

/-!
# Whole numbers are read from their digits

Digits have nothing about them that reading takes off: no white space, no sign, no underscores, and
no other form (`plainDigits_of_isDigit`). So a whole number is read from its digits, as long as it
has no more of them than are read (`readInt?_toDigits`).
-/

namespace RepoGraph.Decimal

open RepoGraph.Text

variable {c : Char} {ds : List Char}

/-- A digit is no white space around a number. -/
theorem isNumberBlank_of_isDigit (h : isDigit c = true) : isNumberBlank c = false := by
  simp only [isDigit, Bool.and_eq_true, decide_eq_true_eq] at h
  simp [isNumberBlank, isBlank]
  omega

/-- There is no white space around digits. -/
theorem trimNumber_of_isDigit (h : ∀ c ∈ ds, isDigit c = true) : trimNumber ds = ds := by
  have hends : ∀ c ∈ ds, ¬isNumberBlank c = true := fun c hc =>
    Bool.eq_false_iff.mp (isNumberBlank_of_isDigit (h c hc))
  have hleft : ds.dropWhile isNumberBlank = ds :=
    List.dropWhile_eq_self_iff.mpr fun hl => hends _ (List.getElem_mem hl)
  have hright : ds.rdropWhile isNumberBlank = ds :=
    List.rdropWhile_eq_self_iff.mpr fun hne => hends _ (List.getLast_mem hne)
  rw [trimNumber, hleft, dropRightWhile_eq_rdropWhile, hright]

/-- The value of an ordinary digit: these are the digits of the first script. -/
theorem decimalValue?_of_isDigit (h : isDigit c = true) :
    decimalValue? c = some (c.toNat - 0x30) := by
  simp only [isDigit, Bool.and_eq_true, decide_eq_true_eq] at h
  obtain ⟨zeros, hzeros⟩ : ∃ zeros, scriptZeros = 0x30 :: zeros := ⟨_, rfl⟩
  rw [decimalValue?, hzeros, List.find?_cons_of_pos]
  · rfl
  · simp only [Bool.and_eq_true, decide_eq_true_eq]
    omega

/-- Digits have their ordinary form. -/
theorem plainDigits_of_isDigit (h : ∀ c ∈ ds, isDigit c = true) : plainDigits ds = ds := by
  induction ds with
  | nil => rfl
  | cons c ds ih =>
    obtain ⟨hc, hds⟩ := List.forall_mem_cons.mp h
    have hplain : Char.ofNat (0x30 + (c.toNat - 0x30)) = c := by
      simp only [isDigit, Bool.and_eq_true, decide_eq_true_eq] at hc
      rw [Nat.add_sub_cancel' hc.1, c.ofNat_toNat]
    rw [plainDigits, List.map_cons, decimalValue?_of_isDigit hc]
    show Char.ofNat _ :: plainDigits ds = _
    rw [hplain, ih hds]

/-- There are no underscores between digits. -/
theorem dropUnderscores_of_isDigit (h : ∀ c ∈ ds, isDigit c = true) (afterDigit : Bool) :
    dropUnderscores afterDigit ds = some ds := by
  induction ds generalizing afterDigit with
  | nil => rfl
  | cons c ds ih =>
    obtain ⟨hc, hds⟩ := List.forall_mem_cons.mp h
    have hscore : c ≠ '_' := (Json.ne_of_isDigit hc rfl).symm
    rw [dropUnderscores, if_neg hscore, ih hds]
    · rfl
    · rintro d cs rfl
      exact absurd rfl hscore

/-- A whole number is read from its digits, unless there are too many. -/
theorem readInt?_toDigits {n : Nat} (h : digitCount n ≤ digitLimit) :
    readInt? (Nat.toDigits 10 n) = some (n : Int) := by
  have hdigits : ∀ c ∈ Nat.toDigits 10 n, isDigit c = true :=
    fun c => Json.isDigit_of_mem_toDigits
  have hsign : takeSign (Nat.toDigits 10 n) = (false, Nat.toDigits 10 n) := by
    obtain ⟨d, ds, hds, hd⟩ := Json.exists_toDigits_eq_cons n
    have hminus : d ≠ '-' := (Json.ne_of_isDigit hd rfl).symm
    have hplus : d ≠ '+' := (Json.ne_of_isDigit hd rfl).symm
    rw [hds]
    simp [takeSign, hminus, hplus]
  have hnonempty : (Nat.toDigits 10 n).isEmpty = false :=
    List.isEmpty_eq_false_iff.mpr Nat.toDigits_ne_nil
  have hlimit : ¬digitLimit < (Nat.toDigits 10 n).length := Nat.not_lt.mpr h
  unfold readInt?
  simp only [trimNumber_of_isDigit hdigits, plainDigits_of_isDigit hdigits, hsign,
    dropUnderscores_of_isDigit hdigits, hnonempty, List.all_eq_true.mpr hdigits, hlimit,
    Json.digitsValue_toDigits]
  rfl

end RepoGraph.Decimal
