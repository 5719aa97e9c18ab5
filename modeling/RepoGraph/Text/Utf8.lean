import RepoGraph.Text.Octets

/-!
# UTF-8

`encode` writes characters as octets and `step` reads one character back, or says how many octets at
the front can belong to no character, and why. `decode` stops at the first such run and reports
it, and so does `decodeLoose`, unless the run is of a surrogate; `decodeLossy` puts one replacement
character for each.
-/

namespace RepoGraph.Text.Utf8

/-- The octets of a text. -/
def encode (s : List Char) : List UInt8 := s.flatMap String.utf8EncodeChar

/-- What stands at the front of some octets. -/
inductive Front
  /-- A character, and the octets after it. -/
  | char (c : Char) (rest : List UInt8)
  /-- A number of octets that belong to no character, and the octets after them. -/
  | bad (count : Nat) (reason : OctetReason) (rest : List UInt8)

/-- Reads the `need` octets that complete a character of which `seen` octets with the value `acc`
were read; the first of them lies between `lo` and `hi`, the others between `0x80` and `0xBF`. -/
def continuation (acc seen : Nat) : (need : Nat) → (lo hi : UInt8) → List UInt8 → Front
  | 0, _, _, rest => .char (Char.ofNat acc) rest
  | _ + 1, _, _, [] => .bad seen .unexpectedEnd []
  | need + 1, lo, hi, b :: rest =>
    if lo ≤ b && b ≤ hi then
      continuation (acc * 64 + (b.toNat - 0x80)) (seen + 1) need 0x80 0xBF rest
    else .bad seen .invalidContinuation (b :: rest)

/-- What stands at the front of the octet `b` and those after it. -/
def step (b : UInt8) (rest : List UInt8) : Front :=
  let n := b.toNat
  if n < 0x80 then .char (Char.ofNat n) rest
  else if n < 0xC2 then .bad 1 .invalidStart rest
  else if n < 0xE0 then continuation (n - 0xC0) 1 1 0x80 0xBF rest
  else if n == 0xE0 then continuation 0 1 2 0xA0 0xBF rest
  else if n == 0xED then continuation 0xD 1 2 0x80 0x9F rest
  else if n < 0xF0 then continuation (n - 0xE0) 1 2 0x80 0xBF rest
  else if n == 0xF0 then continuation 0 1 3 0x90 0xBF rest
  else if n < 0xF4 then continuation (n - 0xF0) 1 3 0x80 0xBF rest
  else if n == 0xF4 then continuation 4 1 3 0x80 0x8F rest
  else .bad 1 .invalidStart rest

/-- The octets after the front. -/
def Front.rest : Front → List UInt8
  | char _ rest => rest
  | bad _ _ rest => rest

/-- Completing a character consumes octets only. -/
theorem length_continuation_le (acc seen need : Nat) (lo hi : UInt8) (bs : List UInt8) :
    (continuation acc seen need lo hi bs).rest.length ≤ bs.length := by
  induction need generalizing acc seen lo hi bs with
  | zero => simp [continuation, Front.rest]
  | succ need ih =>
    cases bs with
    | nil => simp [continuation, Front.rest]
    | cons b bs =>
      simp only [continuation]
      split
      · exact Nat.le_trans (ih ..) (by simp)
      · simp [Front.rest]

/-- Reading takes at least one octet. -/
theorem length_step_le (b : UInt8) (bs : List UInt8) : (step b bs).rest.length ≤ bs.length := by
  simp only [step]
  repeat' split
  all_goals first
    | exact length_continuation_le ..
    | simp [Front.rest]

/-- The name of the encoding in messages. -/
def name : String := "utf-8"

/-- Decodes octets of which `position` were read before. -/
def decodeFrom (position : Nat) : List UInt8 → Except OctetFault (List Char)
  | [] => .ok []
  | b :: bs =>
    match h : step b bs with
    | .char c rest =>
      have : rest.length ≤ bs.length := by simpa [h, Front.rest] using length_step_le b bs
      (decodeFrom (position + (bs.length + 1 - rest.length)) rest).map (c :: ·)
    | .bad count reason _ => .error ⟨name, position, (b :: bs).take count, reason⟩
termination_by bs => bs.length
decreasing_by simp; omega

/-- The text of the octets, or the first run of them that belongs to no character. -/
def decode (bytes : List UInt8) : Except OctetFault (List Char) := decodeFrom 0 bytes

/-- The octets after those of a surrogate, which is half of a character and stands for none. -/
def afterSurrogate? : List UInt8 → Option (List UInt8)
  | 0xED :: b :: c :: rest =>
    if 0xA0 ≤ b && b ≤ 0xBF && 0x80 ≤ c && c ≤ 0xBF then some rest else none
  | _ => none

/-- A surrogate takes octets. -/
theorem length_lt_of_afterSurrogate? {bs rest : List UInt8} (h : afterSurrogate? bs = some rest) :
    rest.length < bs.length := by
  unfold afterSurrogate? at h
  split at h
  · split at h
    · cases h
      simp only [List.length_cons]
      omega
    · simp at h
  · simp at h

/-- Decodes octets of which `position` were read before, with a replacement character for each
surrogate. -/
def decodeLooseFrom (position : Nat) (octets : List UInt8) : Except OctetFault (List Char) :=
  match hs : afterSurrogate? octets with
  | some rest =>
    have := length_lt_of_afterSurrogate? hs
    (decodeLooseFrom (position + 3) rest).map ('\uFFFD' :: ·)
  | none =>
    match octets with
    | [] => .ok []
    | b :: bs =>
      match h : step b bs with
      | .char c rest =>
        have : rest.length ≤ bs.length := by simpa [h, Front.rest] using length_step_le b bs
        (decodeLooseFrom (position + (bs.length + 1 - rest.length)) rest).map (c :: ·)
      | .bad count reason _ => .error ⟨name, position, (b :: bs).take count, reason⟩
termination_by octets.length
decreasing_by
  · assumption
  · simp; omega

/-- The text of the octets, with a replacement character for each surrogate, or the first run of
them that belongs to no character. -/
def decodeLoose (bytes : List UInt8) : Except OctetFault (List Char) := decodeLooseFrom 0 bytes

/-- The text of the octets, with one replacement character for each run that belongs to none. -/
def decodeLossy : List UInt8 → List Char
  | [] => []
  | b :: bs =>
    match h : step b bs with
    | .char c rest =>
      have : rest.length ≤ bs.length := by simpa [h, Front.rest] using length_step_le b bs
      c :: decodeLossy rest
    | .bad _ _ rest =>
      have : rest.length ≤ bs.length := by simpa [h, Front.rest] using length_step_le b bs
      '\uFFFD' :: decodeLossy rest
termination_by bs => bs.length
decreasing_by all_goals simp; omega

end RepoGraph.Text.Utf8
