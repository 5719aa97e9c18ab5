import Mathlib.Tactic.IntervalCases
import RepoGraph.Proofs.Text.Split
import RepoGraph.Text.Percent

/-!
# Percent encoding is reversible

`Percent.decode` reads an encoded text back as octets: the two digits behind a `%` are an octet, and
any other character stands for its own octets. It finds the octets of the text in UTF-8 whichever
characters are kept (`decode_encode`), as long as `%` is not one of them, so that different texts
are encoded differently (`encode_injective`). Where slashes are kept, a path is encoded segment by
segment (`splitOn_encode`).
-/

namespace RepoGraph.Text

/-- Different texts have different octets. -/
theorem Utf8.encode_injective : Function.Injective Utf8.encode := by
  intro s t h
  have hoctets : (String.ofList s).toByteArray = (String.ofList t).toByteArray :=
    congrArg List.toByteArray h
  exact String.ofList_inj.mp (String.toByteArray_inj.mp hoctets)

namespace Percent

/-- The number of an upper-case digit. -/
def digitValue (c : Char) : Nat := if c.toNat < 0x40 then c.toNat - 0x30 else c.toNat - 0x37

/-- The octets that an encoded text stands for. -/
def decode : List Char → List UInt8
  | '%' :: high :: low :: rest =>
    UInt8.ofNat (digitValue high * 16 + digitValue low) :: decode rest
  | c :: rest => String.utf8EncodeChar c ++ decode rest
  | [] => []

/-- The digit of a number is read as that number. -/
theorem digitValue_upperHexDigit {n : Nat} (h : n < 16) : digitValue (upperHexDigit n) = n := by
  interval_cases n <;> rfl

/-- The digits of an octet are read as that octet. -/
theorem decode_octet (b : UInt8) (rest : List Char) :
    decode (octet b ++ rest) = b :: decode rest := by
  have hlt : b.toNat < 256 := b.toNat_lt
  have hhigh : digitValue (upperHexDigit (b.toNat / 16)) = b.toNat / 16 :=
    digitValue_upperHexDigit (by omega)
  have hlow : digitValue (upperHexDigit (b.toNat % 16)) = b.toNat % 16 :=
    digitValue_upperHexDigit (by omega)
  have hvalue : b.toNat / 16 * 16 + b.toNat % 16 = b.toNat := by omega
  show UInt8.ofNat (_ * 16 + _) :: decode rest = _
  rw [hhigh, hlow, hvalue, UInt8.ofNat_toNat]

/-- The digits of octets are read as those octets. -/
theorem decode_flatMap_octet (bs : List UInt8) (rest : List Char) :
    decode (bs.flatMap octet ++ rest) = bs ++ decode rest := by
  induction bs with
  | nil => rfl
  | cons b bs ih => rw [List.flatMap_cons, List.append_assoc, decode_octet, ih, List.cons_append]

/-- A character other than `%` stands for its octets. -/
theorem decode_cons {c : Char} (h : c ≠ '%') (rest : List Char) :
    decode (c :: rest) = String.utf8EncodeChar c ++ decode rest := by
  rw [decode]
  rintro _ _ _ rfl
  exact absurd rfl h

variable {keep : Char → Bool}

/-- One character after another is encoded. -/
theorem encode_cons (c : Char) (s : List Char) :
    encode keep (c :: s) =
      (if keep c then [c] else (String.utf8EncodeChar c).flatMap octet) ++ encode keep s :=
  List.flatMap_cons

/-- Two texts in a row are encoded in a row. -/
theorem encode_append (s t : List Char) :
    encode keep (s ++ t) = encode keep s ++ encode keep t := List.flatMap_append

/-- Kept characters stand for themselves. -/
theorem encode_eq_self {s : List Char} (h : ∀ c ∈ s, keep c = true) : encode keep s = s := by
  induction s with
  | nil => rfl
  | cons c s ih =>
    rw [encode_cons, if_pos (h c List.mem_cons_self),
      ih fun d hd => h d (List.mem_cons_of_mem c hd), List.singleton_append]

/-- The characters for an octet are `%` and digits. -/
theorem mem_octet {c : Char} {b : UInt8} (h : c ∈ octet b) :
    c = '%' ∨ ∃ n < 16, c = upperHexDigit n := by
  have hlt : b.toNat < 256 := b.toNat_lt
  simp only [octet, List.mem_cons, List.not_mem_nil, or_false] at h
  rcases h with rfl | rfl | rfl
  · exact .inl rfl
  · exact .inr ⟨b.toNat / 16, by omega, rfl⟩
  · exact .inr ⟨b.toNat % 16, by omega, rfl⟩

/-- The characters of an encoded text are kept ones, `%` and digits. -/
theorem mem_encode {c : Char} {s : List Char} (h : c ∈ encode keep s) :
    (c ∈ s ∧ keep c = true) ∨ c = '%' ∨ ∃ n < 16, c = upperHexDigit n := by
  obtain ⟨d, hd, hc⟩ := List.mem_flatMap.mp h
  split at hc
  · rename_i hkeep
    rw [List.mem_singleton] at hc
    exact .inl (hc ▸ ⟨hd, hkeep⟩)
  · obtain ⟨b, _, hb⟩ := List.mem_flatMap.mp hc
    exact .inr (mem_octet hb)

/-- An encoded text stands for the octets of the text. -/
theorem decode_encode (hpercent : keep '%' = false) (s : List Char) :
    decode (encode keep s) = Utf8.encode s := by
  induction s with
  | nil => rfl
  | cons c s ih =>
    rw [encode_cons, Utf8.encode, List.flatMap_cons]
    split
    · rename_i hkeep
      have hc : c ≠ '%' := by
        rintro rfl
        rw [hpercent] at hkeep
        cases hkeep
      rw [List.singleton_append, decode_cons hc, ih]
      rfl
    · rw [decode_flatMap_octet, ih]
      rfl

/-- Different texts are encoded differently. -/
theorem encode_injective (hpercent : keep '%' = false) : Function.Injective (encode keep) := by
  intro s t h
  have hoctets : Utf8.encode s = Utf8.encode t := by
    rw [← decode_encode hpercent, h, decode_encode hpercent]
  exact Utf8.encode_injective hoctets

/-- The separator of segments is not among the characters for an octet. -/
theorem slash_notMem_octet (b : UInt8) : '/' ∉ octet b := by
  intro h
  obtain heq | ⟨n, hn, heq⟩ := mem_octet h
  · cases heq
  · interval_cases n <;> revert heq <;> decide

/-- The segments of an encoded text are those of the text, encoded. -/
theorem splitOn_encode (hslash : keep '/' = true) (s : List Char) :
    splitOn '/' (encode keep s) = (splitOn '/' s).map (encode keep) := by
  induction s with
  | nil => rfl
  | cons c s ih =>
    rw [encode_cons]
    by_cases hc : c = '/'
    · rw [hc, if_pos hslash, List.singleton_append, splitOn_cons_self, splitOn_cons_self, ih,
        List.map_cons]
      rfl
    · have hfree : '/' ∉ if keep c then [c] else (String.utf8EncodeChar c).flatMap octet := by
        split
        · exact fun h => hc (List.mem_singleton.mp h).symm
        · intro h
          obtain ⟨b, _, hb⟩ := List.mem_flatMap.mp h
          exact slash_notMem_octet b hb
      rw [splitOn_append_of_notMem hfree, splitOn_cons_of_ne hc, ih]
      cases splitOn '/' s with
      | nil => rfl
      | cons piece pieces =>
        rw [List.map_cons, List.modifyHead_cons, List.modifyHead_cons, List.map_cons, encode_cons]

end Percent

end RepoGraph.Text
