import Mathlib.Tactic.IntervalCases
import RepoGraph.Text.Utf8

/-!
# UTF-8 is read as it is written

The first octet of a character says how many follow and which bits of its number it has itself; each
of those that follow has six bits more (`tailOctet`). The bounds on the second octet leave out the
numbers that fewer octets write, the halves of characters and what is beyond the last character, and
nothing else (`step_three_eq_char_iff`, `step_four_eq_char_iff`). So a character stands at the front
of octets exactly where they begin with its own octets (`step_eq_char_iff`), and octets are read as
a text exactly where they are that text in UTF-8 (`decode_eq_ok_iff`).
-/

namespace RepoGraph.Text.Utf8

variable {acc seen need : Nat} {lo hi b : UInt8} {bs rest : List UInt8} {c : Char}

/-- An octet after the first one of a character, with six bits of its number. -/
def tailOctet (t : Nat) : UInt8 := UInt8.ofNat (t + 0x80)

/-- The octet of a number below 256 has that number. -/
theorem toNat_octet {n : Nat} (h : n < 256) : (UInt8.ofNat n).toNat = n := by
  rw [UInt8.toNat_ofNat']
  omega

/-- An octet is the one of its number. -/
theorem eq_octet_of_toNat {n : Nat} (h : b.toNat = n) : b = UInt8.ofNat n := by
  rw [← h, UInt8.ofNat_toNat]

/-- The character of a number has that number. -/
theorem toNat_char {n : Nat} (h : n.isValidChar) : (Char.ofNat n).toNat = n := by
  rw [Char.ofNat, dif_pos h]
  rfl

/-! ## The octets of a character -/

/-- A character of seven bits is one octet. -/
theorem encodeChar_one {n : Nat} (h : n < 0x80) :
    String.utf8EncodeChar (Char.ofNat n) = [UInt8.ofNat n] := by
  have hn : (Char.ofNat n).val.toNat = n := toNat_char (.inl (by omega))
  rw [String.utf8EncodeChar, hn, if_pos (by omega)]

/-- A character of up to eleven bits is two octets. -/
theorem encodeChar_two {a t : Nat} (ha : 2 ≤ a) (ha' : a < 32) (ht : t < 64) :
    String.utf8EncodeChar (Char.ofNat (a * 64 + t)) = [UInt8.ofNat (a + 0xC0), tailOctet t] := by
  have hn : (Char.ofNat (a * 64 + t)).val.toNat = a * 64 + t := toNat_char (.inl (by omega))
  have hlead : (a * 64 + t) / 64 % 32 = a := by omega
  have hlast : (a * 64 + t) % 64 = t := by omega
  rw [String.utf8EncodeChar, hn, if_neg (by omega), if_pos (by omega), hlead, hlast]
  rfl

/-- A character of up to sixteen bits is three octets. -/
theorem encodeChar_three {a t u : Nat} (hvalid : ((a * 64 + t) * 64 + u).isValidChar)
    (hlow : 0x800 ≤ (a * 64 + t) * 64 + u) (ha : a < 16) (ht : t < 64) (hu : u < 64) :
    String.utf8EncodeChar (Char.ofNat ((a * 64 + t) * 64 + u)) =
      [UInt8.ofNat (a + 0xE0), tailOctet t, tailOctet u] := by
  have hn : (Char.ofNat ((a * 64 + t) * 64 + u)).val.toNat = (a * 64 + t) * 64 + u :=
    toNat_char hvalid
  have hlead : ((a * 64 + t) * 64 + u) / 4096 % 16 = a := by omega
  have hsecond : ((a * 64 + t) * 64 + u) / 64 % 64 = t := by omega
  have hlast : ((a * 64 + t) * 64 + u) % 64 = u := by omega
  rw [String.utf8EncodeChar, hn, if_neg (by omega), if_neg (by omega), if_pos (by omega), hlead,
    hsecond, hlast]
  rfl

/-- A character of more bits is four octets. -/
theorem encodeChar_four {a t u w : Nat} (hvalid : (((a * 64 + t) * 64 + u) * 64 + w).isValidChar)
    (hlow : 0x10000 ≤ ((a * 64 + t) * 64 + u) * 64 + w) (ha : a < 5) (ht : t < 64) (hu : u < 64)
    (hw : w < 64) :
    String.utf8EncodeChar (Char.ofNat (((a * 64 + t) * 64 + u) * 64 + w)) =
      [UInt8.ofNat (a + 0xF0), tailOctet t, tailOctet u, tailOctet w] := by
  have hn : (Char.ofNat (((a * 64 + t) * 64 + u) * 64 + w)).val.toNat =
      ((a * 64 + t) * 64 + u) * 64 + w := toNat_char hvalid
  have hlead : (((a * 64 + t) * 64 + u) * 64 + w) / 262144 % 8 = a := by omega
  have hsecond : (((a * 64 + t) * 64 + u) * 64 + w) / 4096 % 64 = t := by omega
  have hthird : (((a * 64 + t) * 64 + u) * 64 + w) / 64 % 64 = u := by omega
  have hlast : (((a * 64 + t) * 64 + u) * 64 + w) % 64 = w := by omega
  rw [String.utf8EncodeChar, hn, if_neg (by omega), if_neg (by omega), if_neg (by omega), hlead,
    hsecond, hthird, hlast]
  rfl

/-! ## The octets that are read -/

/-- A character is completed by octets of which the first lies in its bounds. -/
theorem continuation_eq_char_iff (hlo : 0x80 ≤ lo.toNat) (hhi : hi.toNat ≤ 0xBF) :
    continuation acc seen (need + 1) lo hi bs = .char c rest ↔
      ∃ t bs', lo.toNat ≤ t + 0x80 ∧ t + 0x80 ≤ hi.toNat ∧ bs = tailOctet t :: bs' ∧
        continuation (acc * 64 + t) (seen + 1) need 0x80 0xBF bs' = .char c rest := by
  cases bs with
  | nil => simp [continuation]
  | cons b bs =>
    rw [continuation]
    constructor
    · intro h
      split at h
      · rename_i hb
        simp only [Bool.and_eq_true, decide_eq_true_eq, UInt8.le_iff_toNat_le] at hb
        have hadd : b.toNat - 0x80 + 0x80 = b.toNat := by omega
        refine ⟨b.toNat - 0x80, bs, by omega, by omega, ?_, h⟩
        rw [tailOctet, hadd, UInt8.ofNat_toNat]
      · cases h
    · rintro ⟨t, bs', hlow, hhigh, heq, h⟩
      obtain ⟨rfl, rfl⟩ := List.cons.inj heq
      have ht : (tailOctet t).toNat = t + 0x80 := toNat_octet (by omega)
      have hb : (decide (lo ≤ tailOctet t) && decide (tailOctet t ≤ hi)) = true := by
        simp only [Bool.and_eq_true, decide_eq_true_eq, UInt8.le_iff_toNat_le]
        omega
      have hsub : (tailOctet t).toNat - 0x80 = t := by omega
      rw [if_pos hb, hsub]
      exact h

/-- A character is completed by one octet. -/
theorem continuation_one_iff :
    continuation acc seen 1 0x80 0xBF bs = .char c rest ↔
      ∃ t < 64, bs = tailOctet t :: rest ∧ Char.ofNat (acc * 64 + t) = c := by
  rw [continuation_eq_char_iff (by decide) (by decide)]
  constructor
  · rintro ⟨t, bs', -, ht, rfl, h⟩
    obtain ⟨rfl, rfl⟩ := Front.char.inj h
    have ht : t + 0x80 ≤ 0xBF := ht
    exact ⟨t, by omega, rfl, rfl⟩
  · rintro ⟨t, ht, rfl, rfl⟩
    have hlow : 0x80 ≤ t + 0x80 := by omega
    have hhigh : t + 0x80 ≤ 0xBF := by omega
    exact ⟨t, rest, hlow, hhigh, rfl, rfl⟩

/-- A character is completed by two octets. -/
theorem continuation_two_iff (hlo : 0x80 ≤ lo.toNat) (hhi : hi.toNat ≤ 0xBF) :
    continuation acc seen 2 lo hi bs = .char c rest ↔
      ∃ t u, lo.toNat ≤ t + 0x80 ∧ t + 0x80 ≤ hi.toNat ∧ u < 64 ∧
        bs = tailOctet t :: tailOctet u :: rest ∧ Char.ofNat ((acc * 64 + t) * 64 + u) = c := by
  rw [continuation_eq_char_iff hlo hhi]
  constructor
  · rintro ⟨t, bs', ht, ht', rfl, h⟩
    obtain ⟨u, hu, rfl, hc⟩ := continuation_one_iff.mp h
    exact ⟨t, u, ht, ht', hu, rfl, hc⟩
  · rintro ⟨t, u, ht, ht', hu, rfl, hc⟩
    exact ⟨t, tailOctet u :: rest, ht, ht', rfl, continuation_one_iff.mpr ⟨u, hu, rfl, hc⟩⟩

/-- A character is completed by three octets. -/
theorem continuation_three_iff (hlo : 0x80 ≤ lo.toNat) (hhi : hi.toNat ≤ 0xBF) :
    continuation acc seen 3 lo hi bs = .char c rest ↔
      ∃ t u w, lo.toNat ≤ t + 0x80 ∧ t + 0x80 ≤ hi.toNat ∧ u < 64 ∧ w < 64 ∧
        bs = tailOctet t :: tailOctet u :: tailOctet w :: rest ∧
        Char.ofNat (((acc * 64 + t) * 64 + u) * 64 + w) = c := by
  rw [continuation_eq_char_iff hlo hhi]
  constructor
  · rintro ⟨t, bs', ht, ht', rfl, h⟩
    obtain ⟨u, w, -, hu, hw, rfl, hc⟩ := (continuation_two_iff (by decide) (by decide)).mp h
    have hu : u + 0x80 ≤ 0xBF := hu
    exact ⟨t, u, w, ht, ht', by omega, hw, rfl, hc⟩
  · rintro ⟨t, u, w, ht, ht', hu, hw, rfl, hc⟩
    have hlow : 0x80 ≤ u + 0x80 := by omega
    have hhigh : u + 0x80 ≤ 0xBF := by omega
    exact ⟨t, tailOctet u :: tailOctet w :: rest, ht, ht', rfl,
      (continuation_two_iff (by decide) (by decide)).mpr ⟨u, w, hlow, hhigh, hw, rfl, hc⟩⟩

/-- One octet is read as it is. -/
theorem step_one {n : Nat} (h : n < 0x80) : step (UInt8.ofNat n) bs = .char (Char.ofNat n) bs := by
  have hn : (UInt8.ofNat n).toNat = n := toNat_octet (by omega)
  simp only [step, hn]
  rw [if_pos h]

/-- The first of two octets. -/
theorem step_two {a : Nat} (h : 2 ≤ a) (h' : a < 32) :
    step (UInt8.ofNat (a + 0xC0)) bs = continuation a 1 1 0x80 0xBF bs := by
  interval_cases a <;> rfl

/-- The first of three octets. -/
theorem step_three {a : Nat} (h : a < 16) :
    step (UInt8.ofNat (a + 0xE0)) bs =
      continuation a 1 2 (if a = 0 then 0xA0 else 0x80) (if a = 13 then 0x9F else 0xBF) bs := by
  interval_cases a <;> rfl

/-- The first of four octets. -/
theorem step_four {a : Nat} (h : a < 5) :
    step (UInt8.ofNat (a + 0xF0)) bs =
      continuation a 1 3 (if a = 0 then 0x90 else 0x80) (if a = 4 then 0x8F else 0xBF) bs := by
  interval_cases a <;> rfl

/-- No character begins with any other octet. -/
theorem lead_cases (h : step b bs = .char c rest) :
    (∃ n < 0x80, b = UInt8.ofNat n) ∨ (∃ a, 2 ≤ a ∧ a < 32 ∧ b = UInt8.ofNat (a + 0xC0)) ∨
      (∃ a < 16, b = UInt8.ofNat (a + 0xE0)) ∨ ∃ a < 5, b = UInt8.ofNat (a + 0xF0) := by
  have hb := b.toNat_lt
  by_cases hone : b.toNat < 0x80
  · exact .inl ⟨b.toNat, hone, eq_octet_of_toNat rfl⟩
  by_cases hlow : b.toNat < 0xC2
  · simp [step, hone, hlow] at h
  by_cases htwo : b.toNat < 0xE0
  · exact .inr (.inl ⟨b.toNat - 0xC0, by omega, by omega, eq_octet_of_toNat (by omega)⟩)
  by_cases hthree : b.toNat < 0xF0
  · exact .inr (.inr (.inl ⟨b.toNat - 0xE0, by omega, eq_octet_of_toNat (by omega)⟩))
  by_cases hfour : b.toNat ≤ 0xF4
  · exact .inr (.inr (.inr ⟨b.toNat - 0xF0, by omega, eq_octet_of_toNat (by omega)⟩))
  · have hless : ¬b.toNat < 0xF4 := by omega
    have hE0 : b.toNat ≠ 0xE0 := by omega
    have hED : b.toNat ≠ 0xED := by omega
    have hF0 : b.toNat ≠ 0xF0 := by omega
    have hF4 : b.toNat ≠ 0xF4 := by omega
    simp [step, hone, hlow, htwo, hthree, hless, hE0, hED, hF0, hF4] at h

/-- Three octets are a character if its number needs three, and is no half of a character. -/
theorem step_three_eq_char_iff {a : Nat} (ha : a < 16) :
    step (UInt8.ofNat (a + 0xE0)) bs = .char c rest ↔
      ∃ t u, t < 64 ∧ u < 64 ∧ 0x800 ≤ (a * 64 + t) * 64 + u ∧
        ((a * 64 + t) * 64 + u).isValidChar ∧ bs = tailOctet t :: tailOctet u :: rest ∧
        Char.ofNat ((a * 64 + t) * 64 + u) = c := by
  have hlo : (if a = 0 then 0xA0 else 0x80 : UInt8).toNat = if a = 0 then 0xA0 else 0x80 := by
    split <;> rfl
  have hhi : (if a = 13 then 0x9F else 0xBF : UInt8).toNat = if a = 13 then 0x9F else 0xBF := by
    split <;> rfl
  rw [step_three ha, continuation_two_iff (by grind) (by grind), hlo, hhi]
  -- Only `E0` raises the lower bound, for the numbers below `0x800`, and only `ED` lowers the upper
  -- one, for the halves of characters.
  refine exists_congr fun t => exists_congr fun u => ?_
  unfold Nat.isValidChar
  constructor
  · rintro ⟨ht, ht', hu, hbs, hc⟩
    refine ⟨?_, hu, ?_, ?_, hbs, hc⟩ <;> split_ifs at ht ht' <;> omega
  · rintro ⟨ht, hu, hlow, hvalid, hbs, hc⟩
    refine ⟨?_, ?_, hu, hbs, hc⟩ <;> split_ifs <;> omega

/-- Four octets are a character if its number needs four, and is not beyond the last one. -/
theorem step_four_eq_char_iff {a : Nat} (ha : a < 5) :
    step (UInt8.ofNat (a + 0xF0)) bs = .char c rest ↔
      ∃ t u w, t < 64 ∧ u < 64 ∧ w < 64 ∧ 0x10000 ≤ ((a * 64 + t) * 64 + u) * 64 + w ∧
        (((a * 64 + t) * 64 + u) * 64 + w).isValidChar ∧
        bs = tailOctet t :: tailOctet u :: tailOctet w :: rest ∧
        Char.ofNat (((a * 64 + t) * 64 + u) * 64 + w) = c := by
  have hlo : (if a = 0 then 0x90 else 0x80 : UInt8).toNat = if a = 0 then 0x90 else 0x80 := by
    split <;> rfl
  have hhi : (if a = 4 then 0x8F else 0xBF : UInt8).toNat = if a = 4 then 0x8F else 0xBF := by
    split <;> rfl
  rw [step_four ha, continuation_three_iff (by grind) (by grind), hlo, hhi]
  -- Likewise `F0` for the numbers below `0x10000`, and `F4` for those beyond the last character.
  refine exists_congr fun t => exists_congr fun u => exists_congr fun w => ?_
  unfold Nat.isValidChar
  constructor
  · rintro ⟨ht, ht', hu, hw, hbs, hc⟩
    refine ⟨?_, hu, hw, ?_, ?_, hbs, hc⟩ <;> split_ifs at ht ht' <;> omega
  · rintro ⟨ht, hu, hw, hlow, hvalid, hbs, hc⟩
    refine ⟨?_, ?_, hu, hw, hbs, hc⟩ <;> split_ifs <;> omega

/-- The octets of a character are read as that character. -/
theorem step_of_eq_append (h : b :: bs = String.utf8EncodeChar c ++ rest) :
    step b bs = .char c rest := by
  -- The number of the character is written with as many groups of six bits as it has octets after
  -- the first one.
  obtain ⟨n, hn, rfl⟩ : ∃ n, n.isValidChar ∧ Char.ofNat n = c :=
    ⟨c.toNat, c.valid, c.ofNat_toNat⟩
  have hbound : n < 0x110000 := by
    unfold Nat.isValidChar at hn
    omega
  by_cases hone : n < 0x80
  · rw [encodeChar_one hone] at h
    obtain ⟨rfl, rfl⟩ := List.cons.inj h
    exact step_one hone
  by_cases htwo : n < 0x800
  · obtain ⟨a, t, ha, ha', ht, rfl⟩ : ∃ a t, 2 ≤ a ∧ a < 32 ∧ t < 64 ∧ n = a * 64 + t :=
      ⟨n / 64, n % 64, by omega, by omega, by omega, by omega⟩
    rw [encodeChar_two ha ha' ht] at h
    obtain ⟨rfl, rfl⟩ := List.cons.inj h
    rw [step_two ha ha']
    exact continuation_one_iff.mpr ⟨t, ht, rfl, rfl⟩
  by_cases hthree : n < 0x10000
  · obtain ⟨a, t, u, ha, ht, hu, rfl⟩ :
        ∃ a t u, a < 16 ∧ t < 64 ∧ u < 64 ∧ n = (a * 64 + t) * 64 + u :=
      ⟨n / 4096, n / 64 % 64, n % 64, by omega, by omega, by omega, by omega⟩
    have hlow : 0x800 ≤ (a * 64 + t) * 64 + u := by omega
    rw [encodeChar_three hn hlow ha ht hu] at h
    obtain ⟨rfl, rfl⟩ := List.cons.inj h
    exact (step_three_eq_char_iff ha).mpr ⟨t, u, ht, hu, hlow, hn, rfl, rfl⟩
  · obtain ⟨a, t, u, w, ha, ht, hu, hw, rfl⟩ : ∃ a t u w, a < 5 ∧ t < 64 ∧ u < 64 ∧ w < 64 ∧
        n = ((a * 64 + t) * 64 + u) * 64 + w :=
      ⟨n / 262144, n / 4096 % 64, n / 64 % 64, n % 64, by omega, by omega, by omega, by omega,
        by omega⟩
    have hlow : 0x10000 ≤ ((a * 64 + t) * 64 + u) * 64 + w := by omega
    rw [encodeChar_four hn hlow ha ht hu hw] at h
    obtain ⟨rfl, rfl⟩ := List.cons.inj h
    exact (step_four_eq_char_iff ha).mpr ⟨t, u, w, ht, hu, hw, hlow, hn, rfl, rfl⟩

/-- A character stands at the front of octets exactly where they begin with its own octets. -/
theorem step_eq_char_iff :
    step b bs = .char c rest ↔ b :: bs = String.utf8EncodeChar c ++ rest := by
  refine ⟨fun h => ?_, step_of_eq_append⟩
  rcases lead_cases h with ⟨n, hn, rfl⟩ | ⟨a, ha, ha', rfl⟩ | ⟨a, ha, rfl⟩ | ⟨a, ha, rfl⟩
  · rw [step_one hn] at h
    obtain ⟨rfl, rfl⟩ := Front.char.inj h
    rw [encodeChar_one hn]
    rfl
  · rw [step_two ha ha'] at h
    obtain ⟨t, ht, rfl, rfl⟩ := continuation_one_iff.mp h
    rw [encodeChar_two ha ha' ht]
    rfl
  · obtain ⟨t, u, ht, hu, hlow, hvalid, rfl, rfl⟩ := (step_three_eq_char_iff ha).mp h
    rw [encodeChar_three hvalid hlow ha ht hu]
    rfl
  · obtain ⟨t, u, w, ht, hu, hw, hlow, hvalid, rfl, rfl⟩ := (step_four_eq_char_iff ha).mp h
    rw [encodeChar_four hvalid hlow ha ht hu hw]
    rfl

/-! ## Texts -/

/-- After a character, the octets that follow are read. -/
theorem decodeFrom_cons_of_step {position : Nat} (h : step b bs = .char c rest) :
    decodeFrom position (b :: bs) =
      (decodeFrom (position + (bs.length + 1 - rest.length)) rest).map (c :: ·) := by
  rw [decodeFrom]
  split
  · rename_i hread
    obtain ⟨rfl, rfl⟩ := Front.char.inj (h.symm.trans hread)
    rfl
  · rename_i hread
    cases h.symm.trans hread

/-- The octets of a text begin with those of its first character. -/
theorem exists_encode_cons (c : Char) (s : List Char) :
    ∃ b bs, encode (c :: s) = b :: bs ∧ step b bs = .char c (encode s) := by
  obtain ⟨b, bs, hb⟩ : ∃ b bs, String.utf8EncodeChar c = b :: bs := by
    unfold String.utf8EncodeChar
    dsimp only
    split_ifs <;> exact ⟨_, _, rfl⟩
  refine ⟨b, bs ++ encode s, ?_, ?_⟩
  · rw [encode, List.flatMap_cons, hb]
    rfl
  · rw [step_eq_char_iff, hb]
    rfl

/-- The octets of a text are read as that text. -/
theorem decodeFrom_encode (position : Nat) (s : List Char) :
    decodeFrom position (encode s) = .ok s := by
  induction s generalizing position with
  | nil => exact decodeFrom.eq_1 position
  | cons c s ih =>
    obtain ⟨b, bs, hoctets, hstep⟩ := exists_encode_cons c s
    rw [hoctets, decodeFrom_cons_of_step hstep, ih]
    rfl

/-- A character at the front of octets is no half of one. -/
theorem afterSurrogate?_of_step (h : step b bs = .char c rest) :
    afterSurrogate? (b :: bs) = none := by
  unfold afterSurrogate?
  split
  · rename_i d e after heq
    obtain ⟨rfl, rfl⟩ := List.cons.inj heq
    have hlow : 0x80 ≤ (0x80 : UInt8).toNat := by decide
    have hhigh : (0x9F : UInt8).toNat ≤ 0xBF := by decide
    obtain ⟨t, u, -, ht, -, hbs, -⟩ := (continuation_two_iff hlow hhigh).mp h
    obtain ⟨rfl, -⟩ := List.cons.inj hbs
    have hd : (tailOctet t).toNat = t + 0x80 := toNat_octet (lt_of_le_of_lt ht (by decide))
    have ht : t + 0x80 ≤ 0x9F := ht
    have hA0 : ¬(0xA0 : UInt8) ≤ tailOctet t := by
      rw [UInt8.le_iff_toNat_le, hd]
      show ¬0xA0 ≤ t + 0x80
      omega
    rw [decide_eq_false hA0]
    rfl
  · rfl

/-- After a character, the octets that follow are read, also where halves of characters may be. -/
theorem decodeLooseFrom_cons_of_step {position : Nat} (h : step b bs = .char c rest) :
    decodeLooseFrom position (b :: bs) =
      (decodeLooseFrom (position + (bs.length + 1 - rest.length)) rest).map (c :: ·) := by
  rw [decodeLooseFrom]
  split
  · rename_i hhalf
    rw [afterSurrogate?_of_step h] at hhalf
    cases hhalf
  · split
    · rename_i heq _
      cases heq
    · rename_i heq _
      obtain ⟨rfl, rfl⟩ := List.cons.inj heq
      split
      · rename_i hread
        obtain ⟨rfl, rfl⟩ := Front.char.inj (h.symm.trans hread)
        rfl
      · rename_i hread
        cases h.symm.trans hread

/-- The octets of a text are read as that text, also where halves of characters may be. -/
theorem decodeLooseFrom_encode (position : Nat) (s : List Char) :
    decodeLooseFrom position (encode s) = .ok s := by
  induction s generalizing position with
  | nil => exact decodeLooseFrom.eq_def position []
  | cons c s ih =>
    obtain ⟨b, bs, hoctets, hstep⟩ := exists_encode_cons c s
    rw [hoctets, decodeLooseFrom_cons_of_step hstep, ih]
    rfl

/-- The octets of a text are read as that text, with nothing to replace. -/
theorem decodeLossy_encode (s : List Char) : decodeLossy (encode s) = s := by
  induction s with
  | nil => exact decodeLossy.eq_1
  | cons c s ih =>
    obtain ⟨b, bs, hoctets, hstep⟩ := exists_encode_cons c s
    rw [hoctets, decodeLossy]
    split
    · rename_i hread
      obtain ⟨rfl, rfl⟩ := Front.char.inj (hstep.symm.trans hread)
      rw [ih]
    · rename_i hread
      cases hstep.symm.trans hread

/-- Octets that are read as a text are those of the text. -/
theorem encode_of_decodeFrom {position : Nat} {s : List Char}
    (h : decodeFrom position bs = .ok s) : encode s = bs := by
  fun_induction decodeFrom position bs generalizing s with
  | case1 =>
    obtain rfl := Except.ok.inj h
    rfl
  | case2 position b bs c rest hstep hle ih =>
    cases hrest : decodeFrom (position + (bs.length + 1 - rest.length)) rest with
    | error e =>
      rw [hrest] at h
      cases h
    | ok t =>
      rw [hrest] at h
      obtain rfl := Except.ok.inj h
      rw [step_eq_char_iff.mp hstep, encode, List.flatMap_cons, ← ih hrest]
      rfl
  | case3 => cases h

/-- Octets are read as a text exactly where they are that text in UTF-8. -/
theorem decode_eq_ok_iff {s : List Char} : decode bs = .ok s ↔ encode s = bs := by
  constructor
  · exact encode_of_decodeFrom
  · rintro rfl
    exact decodeFrom_encode 0 s

end RepoGraph.Text.Utf8
