import Mathlib.Tactic.Common
import RepoGraph.Text.Blank

/-!
# Characters of ASCII

Letters and digits are known by their numbers (`isAlpha_iff`, `isAlphanum_iff`), and so is what
becomes of a character in lower case (`toLower_eq_or`).
-/

namespace RepoGraph.Text

variable {c : Char}

/-- Letters are those of ASCII. -/
theorem isAlpha_iff :
    c.isAlpha = true ↔ (65 ≤ c.toNat ∧ c.toNat ≤ 90) ∨ (97 ≤ c.toNat ∧ c.toNat ≤ 122) := by
  unfold Char.isAlpha Char.isUpper Char.isLower
  simp only [Bool.or_eq_true, Bool.and_eq_true, decide_eq_true_eq, UInt32.le_iff_toNat_le,
    ge_iff_le]
  exact Iff.rfl

/-- Letters and digits are those of ASCII. -/
theorem isAlphanum_iff :
    c.isAlphanum = true ↔ (48 ≤ c.toNat ∧ c.toNat ≤ 57) ∨ (65 ≤ c.toNat ∧ c.toNat ≤ 90) ∨
      (97 ≤ c.toNat ∧ c.toNat ≤ 122) := by
  have hdigit : c.isDigit = true ↔ 48 ≤ c.toNat ∧ c.toNat ≤ 57 := by
    unfold Char.isDigit
    simp only [Bool.and_eq_true, decide_eq_true_eq, UInt32.le_iff_toNat_le, ge_iff_le]
    exact Iff.rfl
  rw [Char.isAlphanum, Bool.or_eq_true, isAlpha_iff, hdigit, or_comm]

/-- A visible character is no white space. -/
theorem isBlank_of_visible (hlow : 0x20 < c.toNat) (hhigh : c.toNat < 0x7F) :
    isBlank c = false := by
  simp only [isBlank, Bool.or_eq_false_iff, Bool.and_eq_false_iff, decide_eq_false_iff_not,
    beq_eq_false_iff_ne]
  omega

/-- A character is its own lower-case form, unless it is a capital letter. -/
theorem toLower_eq_or (c : Char) :
    c.toLower = c ∨ (65 ≤ c.toNat ∧ c.toNat ≤ 90) ∧ c.toLower.toNat = c.toNat + 32 := by
  by_cases hc : c.val ≥ 'A'.val ∧ c.val ≤ 'Z'.val
  · have hlow : 65 ≤ c.toNat := UInt32.le_iff_toNat_le.mp hc.1
    have hhigh : c.toNat ≤ 90 := UInt32.le_iff_toNat_le.mp hc.2
    have hlower : c.toLower.toNat = c.toNat + 32 :=
      calc c.toLower.toNat = (c.val + ('a'.val - 'A'.val)).toNat :=
            congrArg Char.toNat (dif_pos hc)
        _ = (c.toNat + 32) % 2 ^ 32 := UInt32.toNat_add _ _
        _ = c.toNat + 32 := by omega
    exact .inr ⟨⟨hlow, hhigh⟩, hlower⟩
  · exact .inl (dif_neg hc)

/-- A character before the letters is the lower-case form of itself alone. -/
theorem toLower_eq_iff {d : Char} (h : d.toNat < 65) : c.toLower = d ↔ c = d := by
  rcases toLower_eq_or c with hsame | ⟨⟨hlow, hhigh⟩, hlower⟩
  · rw [hsame]
  · refine iff_of_false ?_ ?_
    · rintro rfl
      omega
    · rintro rfl
      omega

/-- What is a letter in lower case is a letter. -/
theorem isAlpha_of_toLower (h : c.toLower.isAlpha = true) : c.isAlpha = true := by
  rcases toLower_eq_or c with hsame | ⟨hupper, -⟩
  · rwa [hsame] at h
  · exact isAlpha_iff.mpr (.inl hupper)

end RepoGraph.Text
