import RepoGraph.Proofs.Json.RoundTrip

/-!
# Orderly values

A value is orderly if there is no floating-point number in it, its objects name each member once,
and its whole numbers are as they may be (`Json.IsOrderly`). The text of an orderly value is in
printable ASCII, and therefore on one line (`IsOrderly.isPrintable_compact`), and it is read back as
the value unless a whole number in it has more digits than are read (`IsOrderly.read_compact`).
-/

namespace RepoGraph.Json

open RepoGraph.Decimal RepoGraph.Text

variable {may : Int → Prop} {v : Json}

/-- The value has no floating-point number, its objects name each member once, and its whole numbers
are as they may be. -/
inductive IsOrderly (may : Int → Prop) : Json → Prop
  /-- No value. -/
  | null : IsOrderly may null
  /-- A truth value. -/
  | bool (b : Bool) : IsOrderly may (bool b)
  /-- A whole number as it may be. -/
  | int (z : Int) (h : may z) : IsOrderly may (int z)
  /-- A text. -/
  | str (s : String) : IsOrderly may (str s)
  /-- A list of orderly values. -/
  | arr (items : List Json) (h : ∀ v ∈ items, IsOrderly may v) : IsOrderly may (arr items)
  /-- Orderly values, each under a name of its own. -/
  | obj (members : List (String × Json)) (hnodup : (members.map Prod.fst).Nodup)
      (h : ∀ m ∈ members, IsOrderly may m.2) : IsOrderly may (obj members)

mutual

/-- The whole numbers in a value. -/
def ints : Json → List Int
  | int z => [z]
  | arr items => itemInts items
  | obj members => memberInts members
  | _ => []

/-- The whole numbers in the values of a list. -/
def itemInts : List Json → List Int
  | [] => []
  | v :: vs => ints v ++ itemInts vs

/-- The whole numbers in the values of an object. -/
def memberInts : List (String × Json) → List Int
  | [] => []
  | (_, v) :: rest => ints v ++ memberInts rest

end

/-- The whole numbers in a list are those in its values. -/
theorem itemInts_eq_flatMap (items : List Json) : itemInts items = items.flatMap ints := by
  induction items with
  | nil => rfl
  | cons v vs ih => rw [itemInts, ih, List.flatMap_cons]

/-- The whole numbers in an object are those in its values. -/
theorem memberInts_eq_flatMap (members : List (String × Json)) :
    memberInts members = members.flatMap fun m => ints m.2 := by
  induction members with
  | nil => rfl
  | cons m rest ih => rw [memberInts, ih, List.flatMap_cons]

/-- A text or no value is orderly. -/
theorem IsOrderly.ofOption (text? : Option String) : IsOrderly may (ofOption text?) := by
  cases text? with
  | none => exact .null
  | some s => exact .str s

/-- An orderly value is exact if its whole numbers have few enough digits. -/
theorem IsOrderly.isExact (h : IsOrderly may v)
    (hints : ∀ z ∈ v.ints, digitCount z.natAbs ≤ digitLimit) : IsExact v := by
  induction h with
  | null => exact .null
  | bool b => exact .bool b
  | int z => exact .int z (hints z (List.mem_singleton.mpr rfl))
  | str s => exact .str s
  | arr items h ih =>
    rw [ints, itemInts_eq_flatMap] at hints
    exact .arr items fun v hv => ih v hv fun z hz => hints z (List.mem_flatMap.mpr ⟨v, hv, hz⟩)
  | obj members hnodup h ih =>
    rw [ints, memberInts_eq_flatMap] at hints
    exact .obj members hnodup fun m hm =>
      ih m hm fun z hz => hints z (List.mem_flatMap.mpr ⟨m, hm, hz⟩)

/-- The whole numbers in an orderly value are as they may be. -/
theorem IsOrderly.of_mem_ints (h : IsOrderly may v) : ∀ z ∈ v.ints, may z := by
  induction h with
  | null | bool | str => exact nofun
  | int z h => exact fun y hy => List.mem_singleton.mp hy ▸ h
  | arr items h ih =>
    rw [ints, itemInts_eq_flatMap]
    intro z hz
    obtain ⟨v, hv, hz⟩ := List.mem_flatMap.mp hz
    exact ih v hv z hz
  | obj members hnodup h ih =>
    rw [ints, memberInts_eq_flatMap]
    intro z hz
    obtain ⟨m, hm, hz⟩ := List.mem_flatMap.mp hz
    exact ih m hm z hz

/-- The text of an orderly value whose whole numbers have few enough digits is read as the value. -/
theorem IsOrderly.read_compact (h : IsOrderly may v)
    (hints : ∀ z ∈ v.ints, digitCount z.natAbs ≤ digitLimit) : read v.compact = .ok v :=
  (h.isExact hints).read_compact

/-! ## Printable ASCII -/

/-- The character is in printable ASCII. -/
def IsPrintable (c : Char) : Prop := 0x20 ≤ c.toNat ∧ c.toNat ≤ 0x7E

instance : DecidablePred IsPrintable := fun c =>
  inferInstanceAs (Decidable (0x20 ≤ c.toNat ∧ c.toNat ≤ 0x7E))

/-- The characters are in printable ASCII if a look at each of them says so. -/
theorem isPrintable_of_all {cs : List Char} (h : cs.all (decide <| IsPrintable ·) = true) :
    ∀ c ∈ cs, IsPrintable c :=
  fun c hc => of_decide_eq_true (List.all_eq_true.mp h c hc)

/-- A hexadecimal digit is in printable ASCII. -/
theorem isPrintable_hexDigit {n : Nat} (h : n < 16) : IsPrintable (hexDigit n) := by
  interval_cases n <;> decide

/-- Hexadecimal digits are in printable ASCII. -/
theorem isPrintable_of_mem_hexText {width n : Nat} : ∀ c ∈ hexText width n, IsPrintable c := by
  induction width generalizing n with
  | zero => exact nofun
  | succ width ih =>
    rw [hexText]
    refine List.forall_mem_append.mpr ⟨ih, List.forall_mem_singleton.mpr ?_⟩
    exact isPrintable_hexDigit (Nat.mod_lt n (by omega))

/-- An escape by code is in printable ASCII. -/
theorem isPrintable_of_mem_codeEscape {n : Nat} : ∀ c ∈ codeEscape n, IsPrintable c :=
  List.forall_mem_cons.mpr ⟨by decide,
    List.forall_mem_cons.mpr ⟨by decide, isPrintable_of_mem_hexText⟩⟩

/-- A character is written in printable ASCII, whatever it is. -/
theorem isPrintable_of_mem_asciiChar (d : Char) : ∀ c ∈ asciiChar d, IsPrintable c := by
  unfold asciiChar
  split
  · rename_i e hshort
    unfold shortEscape? at hshort
    split at hshort
    all_goals cases hshort
    all_goals exact isPrintable_of_all (by decide)
  · dsimp only
    split
    · rename_i hrange
      refine List.forall_mem_singleton.mpr ?_
      simpa [IsPrintable] using hrange
    · split
      · exact isPrintable_of_mem_codeEscape
      · exact List.forall_mem_append.mpr
          ⟨isPrintable_of_mem_codeEscape, isPrintable_of_mem_codeEscape⟩

/-- A text is written in printable ASCII between its marks. -/
theorem isPrintable_of_mem_writeText (s : String) :
    ∀ c ∈ writeText .compact s, IsPrintable c := by
  unfold writeText
  refine List.forall_mem_append.mpr ⟨List.forall_mem_cons.mpr ⟨by decide, fun c hc => ?_⟩,
    List.forall_mem_singleton.mpr (by decide)⟩
  obtain ⟨d, -, hd⟩ := List.mem_flatMap.mp hc
  exact isPrintable_of_mem_asciiChar d c hd

/-- A whole number is written in printable ASCII. -/
theorem isPrintable_of_mem_toString_int (z : Int) : ∀ c ∈ (toString z).toList, IsPrintable c := by
  have hdigits : ∀ c ∈ Nat.toDigits 10 z.natAbs, IsPrintable c := by
    intro c hc
    have hdigit := isDigit_of_mem_toDigits hc
    simp only [Decimal.isDigit, Bool.and_eq_true, decide_eq_true_eq] at hdigit
    unfold IsPrintable
    omega
  rw [toList_toString_int]
  split
  · exact List.forall_mem_cons.mpr ⟨by decide, hdigits⟩
  · exact hdigits

/-- Parts in printable ASCII are so when they are separated by commas. -/
theorem isPrintable_of_mem_commaSeparated {parts : List (List Char)}
    (h : ∀ part ∈ parts, ∀ c ∈ part, IsPrintable c) :
    ∀ c ∈ commaSeparated parts, IsPrintable c := by
  induction parts with
  | nil => exact nofun
  | cons part rest ih =>
    obtain ⟨hpart, hrest⟩ := List.forall_mem_cons.mp h
    cases rest with
    | nil => exact hpart
    | cons next rest =>
      rw [commaSeparated_cons_cons]
      exact List.forall_mem_append.mpr
        ⟨hpart, List.forall_mem_cons.mpr ⟨by decide, ih hrest⟩⟩

/-- An orderly value is written in printable ASCII. -/
theorem IsOrderly.isPrintable_write (h : IsOrderly may v) :
    ∀ c ∈ write .compact v, IsPrintable c := by
  -- What stands between brackets in printable ASCII is so with the brackets.
  have hbrackets {left right : Char} {cs : List Char} (hleft : IsPrintable left)
      (hcs : ∀ c ∈ cs, IsPrintable c) (hright : IsPrintable right) :
      ∀ c ∈ left :: cs ++ [right], IsPrintable c :=
    List.forall_mem_append.mpr
      ⟨List.forall_mem_cons.mpr ⟨hleft, hcs⟩, List.forall_mem_singleton.mpr hright⟩
  induction h with
  | null => exact isPrintable_of_all (by decide)
  | bool b => cases b <;> exact isPrintable_of_all (by decide)
  | int z => exact isPrintable_of_mem_toString_int z
  | str s => exact isPrintable_of_mem_writeText s
  | arr items h ih =>
    rw [write, writeItems_eq_map]
    refine hbrackets (by decide) (isPrintable_of_mem_commaSeparated fun part hpart => ?_)
      (by decide)
    obtain ⟨v, hv, rfl⟩ := List.mem_map.mp hpart
    exact ih v hv
  | obj members hnodup h ih =>
    rw [write_obj]
    refine hbrackets (by decide) (isPrintable_of_mem_commaSeparated fun part hpart => ?_)
      (by decide)
    obtain ⟨m, hm, rfl⟩ := List.mem_map.mp hpart
    exact List.forall_mem_append.mpr
      ⟨isPrintable_of_mem_writeText m.1, List.forall_mem_cons.mpr ⟨by decide, ih m hm⟩⟩

/-- The text of an orderly value is in printable ASCII, so that there is no end of a line in it. -/
theorem IsOrderly.isPrintable_compact (h : IsOrderly may v) :
    ∀ c ∈ v.compact.toList, IsPrintable c := by
  rw [compact, String.toList_ofList]
  exact h.isPrintable_write

end RepoGraph.Json
