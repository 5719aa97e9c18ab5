import RepoGraph.Proofs.Json.Number
import RepoGraph.Proofs.Json.Text
import RepoGraph.Proofs.Table

/-!
# Values in JSON are read back

A value without floating-point numbers, whose objects name each member once and whose whole numbers
have no more digits than are read, is exact (`Json.IsExact`). In a legible style an exact value is
read back from its text with the members of its objects in the order in which the style writes them
(`Json.arranged`). The reader takes a value off the front of a document, and so what is proved by
induction says so for whatever follows the value (`IsReadBack`). `read_stable` and `read_compact`
state it for whole documents.
-/

namespace RepoGraph.Json

open RepoGraph.Decimal RepoGraph.Text

/-- The value can be read back from its text. -/
inductive IsExact : Json → Prop
  /-- No value. -/
  | null : IsExact null
  /-- A truth value. -/
  | bool (b : Bool) : IsExact (bool b)
  /-- A whole number with few enough digits. -/
  | int (z : Int) (h : digitCount z.natAbs ≤ digitLimit) : IsExact (int z)
  /-- A text. -/
  | str (s : String) : IsExact (str s)
  /-- A list of values that can be read back. -/
  | arr (items : List Json) (h : ∀ v ∈ items, IsExact v) : IsExact (arr items)
  /-- Values that can be read back, each under a name of its own. -/
  | obj (members : List (String × Json)) (hnodup : (members.map Prod.fst).Nodup)
      (h : ∀ m ∈ members, IsExact m.2) : IsExact (obj members)

mutual

/-- The value with the members of each object in the order in which a style writes them. -/
def arranged (style : Style) : Json → Json
  | null => null
  | bool b => bool b
  | int n => int n
  | float x => float x
  | str s => str s
  | arr items => arr (arrangedItems style items)
  | obj members => obj (style.order (arrangedMembers style members))

/-- The values of a list, arranged. -/
def arrangedItems (style : Style) : List Json → List Json
  | [] => []
  | v :: vs => arranged style v :: arrangedItems style vs

/-- The members of an object with their values arranged. -/
def arrangedMembers (style : Style) : List (String × Json) → List (String × Json)
  | [] => []
  | (name, v) :: rest => (name, arranged style v) :: arrangedMembers style rest

end

variable {style : Style}

/-! ## Lists and members one by one -/

/-- The values of a list are arranged one by one. -/
theorem arrangedItems_eq_map (items : List Json) :
    arrangedItems style items = items.map (arranged style) := by
  induction items with
  | nil => rfl
  | cons v vs ih => rw [arrangedItems, ih, List.map_cons]

/-- The values of an object are arranged one by one. -/
theorem arrangedMembers_eq_map (members : List (String × Json)) :
    arrangedMembers style members = members.map fun m => (m.1, arranged style m.2) := by
  induction members with
  | nil => rfl
  | cons m rest ih => rw [arrangedMembers, ih, List.map_cons]

/-- The values of a list are written one by one. -/
theorem writeItems_eq_map (items : List Json) :
    writeItems style items = items.map (write style) := by
  induction items with
  | nil => rfl
  | cons v vs ih => rw [writeItems, ih, List.map_cons]

/-- The values of an object are written one by one. -/
theorem writeMembers_eq_map (members : List (String × Json)) :
    writeMembers style members = members.map fun m => (m.1, write style m.2) := by
  induction members with
  | nil => rfl
  | cons m rest ih => rw [writeMembers, ih, List.map_cons]

/-- A style leaves no member out and adds none. -/
theorem Style.order_perm {α : Type} (members : List (String × α)) :
    (style.order members).Perm members := by
  unfold order
  split
  · exact List.mergeSort_perm members _
  · exact List.Perm.refl members

/-- The order of members depends on their names only. -/
theorem Style.order_map {α β : Type} (f : α → β) (members : List (String × α)) :
    style.order (members.map fun m => (m.1, f m.2)) =
      (style.order members).map fun m => (m.1, f m.2) := by
  unfold order
  split
  · unfold sortMembers
    rw [List.map_mergeSort]
    intro a _ b _
    rfl
  · rfl

/-- The text of a member with its value. -/
def memberText (style : Style) (m : String × Json) : List Char :=
  writeText style m.1 ++ ':' :: write style m.2

/-- An object is written member by member. -/
theorem write_obj (members : List (String × Json)) :
    write style (obj members) =
      '{' :: commaSeparated ((style.order members).map (memberText style)) ++ ['}'] := by
  rw [write, writeMembers_eq_map, Style.order_map, List.map_map]
  rfl

/-- An object is arranged member by member. -/
theorem arranged_obj (members : List (String × Json)) :
    arranged style (obj members) =
      obj ((style.order members).map fun m => (m.1, arranged style m.2)) := by
  rw [arranged, arrangedMembers_eq_map, Style.order_map]

/-! ## How a value begins -/

/-- A value may begin with the character, which is neither white space nor a closing bracket nor a
byte order mark. -/
def BeginsValue (c : Char) : Prop := isSpace c = false ∧ c ≠ ']' ∧ c ≠ '\uFEFF'

/-- White space is looked for in vain where there is none. -/
theorem skip_cons {c : Char} (h : isSpace c = false) (cs : List Char) :
    skip (c :: cs) = c :: cs := by
  simp [skip, h]

/-- A digit begins a value. -/
theorem beginsValue_of_isDigit {d : Char} (hd : Decimal.isDigit d = true) : BeginsValue d := by
  have hne {c : Char} (hc : Decimal.isDigit c = false) : d ≠ c := (ne_of_isDigit hd hc).symm
  have hspace : d ≠ ' ' := hne rfl
  have htab : d ≠ '\t' := hne rfl
  have hline : d ≠ '\n' := hne rfl
  have hreturn : d ≠ '\r' := hne rfl
  exact ⟨by simp [isSpace, hspace, htab, hline, hreturn], hne rfl, hne rfl⟩

/-- A whole number begins with a digit, or with a minus. -/
theorem exists_toList_toString_int_eq_cons (z : Int) :
    ∃ c cs, (toString z).toList = c :: cs ∧ BeginsValue c ∧ c ≠ '"' ∧ c ≠ '[' ∧ c ≠ '\x7b' := by
  obtain ⟨d, ds, hds, hd⟩ := exists_toDigits_eq_cons z.natAbs
  rw [toList_toString_int, hds]
  split
  · exact ⟨'-', d :: ds, rfl, ⟨rfl, by decide, by decide⟩, by decide, by decide, by decide⟩
  · have hne {c : Char} (hc : Decimal.isDigit c = false) : d ≠ c := (ne_of_isDigit hd hc).symm
    exact ⟨d, ds, rfl, beginsValue_of_isDigit hd, hne rfl, hne rfl, hne rfl⟩

/-- The text of an exact value begins a value. -/
theorem IsExact.exists_write_eq_cons {v : Json} (h : IsExact v) (style : Style) :
    ∃ c cs, write style v = c :: cs ∧ BeginsValue c := by
  cases h with
  | null => exact ⟨'n', _, rfl, rfl, by decide, by decide⟩
  | bool b =>
    cases b
    · exact ⟨'f', _, rfl, rfl, by decide, by decide⟩
    · exact ⟨'t', _, rfl, rfl, by decide, by decide⟩
  | int z hz =>
    obtain ⟨c, cs, hcs, hc, -⟩ := exists_toList_toString_int_eq_cons z
    exact ⟨c, cs, by rw [write, hcs], hc⟩
  | str s => exact ⟨'"', _, rfl, rfl, by decide, by decide⟩
  | arr items hitems => exact ⟨'[', _, by rw [write]; rfl, rfl, by decide, by decide⟩
  | obj members hnodup hmembers =>
    exact ⟨'\x7b', _, write_obj members, rfl, by decide, by decide⟩

/-! ## What the reader does where a value begins -/

/-- Where no text, list or object begins, a word or a number is read. -/
theorem readValue_scalar {bound : Nat} {c : Char} {cs : List Char} (hquote : c ≠ '"')
    (hlist : c ≠ '[') (hobject : c ≠ '\x7b') :
    readValue (bound + 1) (c :: cs) = readScalar (c :: cs) := by
  rw [readValue.eq_def]
  simp [hquote, hlist, hobject]

/-- A list that is not empty is read item by item. -/
theorem readValue_list {bound : Nat} {c : Char} {cs : List Char} (hc : BeginsValue c) :
    readValue (bound + 1) ('[' :: c :: cs) = readItems bound [] (c :: cs) := by
  obtain ⟨hspace, hclose, -⟩ := hc
  rw [readValue, skip_cons hspace]
  simp [hclose]

/-- An object that is not empty is read member by member. -/
theorem readValue_object {bound : Nat} {cs : List Char} :
    readValue (bound + 1) ('\x7b' :: '"' :: cs) = readMembers bound [] ('"' :: cs) := by
  rw [readValue, skip_cons rfl]
  rfl

/-! ## Values and what follows them -/

/-- The value is read back from its text, and what follows the text is left. -/
def IsReadBack (style : Style) (v : Json) : Prop :=
  ∀ (bound : Nat) (rest : List Char), 2 * (write style v).length ≤ bound → EndsNumber rest →
    readValue bound (write style v ++ rest) = .ok (arranged style v, rest)

/-- A number does not go on with a mark between the parts of a document. -/
theorem endsNumber_of_mem {c : Char} (hc : c ∈ [',', ']', '\x7d']) (rest : List Char) :
    EndsNumber (c :: rest) := by
  simp only [List.mem_cons, List.not_mem_nil, or_false] at hc
  rcases hc with rfl | rfl | rfl
  all_goals exact ⟨rfl, by decide, by decide, by decide⟩

/-- One part comes before the others, after a comma. -/
theorem commaSeparated_cons_cons (part next : List Char) (rest : List (List Char)) :
    commaSeparated (part :: next :: rest) = part ++ ',' :: commaSeparated (next :: rest) := rfl

/-- A member begins with the opening mark of its name. -/
theorem exists_memberText_eq_cons (style : Style) (m : String × Json) :
    ∃ cs, memberText style m = '"' :: cs :=
  ⟨_, List.cons_append⟩

/-- Parts begin as the first of them does. -/
theorem exists_commaSeparated_eq_cons {c : Char} {part cs : List Char} (h : part = c :: cs)
    (parts : List (List Char)) : ∃ tail, commaSeparated (part :: parts) = c :: tail := by
  cases parts with
  | nil => exact ⟨cs, h⟩
  | cons next parts =>
    rw [commaSeparated_cons_cons, h]
    exact ⟨_, List.cons_append⟩

/-- Some values of a list are read back up to the closing bracket. The bound falls by one for an
item and by one for its value, and the text becomes shorter by the comma at least. -/
theorem readItems_commaSeparated {items : List Json} (hne : items ≠ [])
    (hexact : ∀ v ∈ items, IsExact v) (hback : ∀ v ∈ items, IsReadBack style v) (bound : Nat)
    (done : List Json) (rest : List Char)
    (hbound : 2 * (commaSeparated (items.map (write style))).length + 1 ≤ bound) :
    readItems bound done (commaSeparated (items.map (write style)) ++ ']' :: rest) =
      .ok (arr (done.reverse ++ items.map (arranged style)), rest) := by
  induction items generalizing bound done with
  | nil => exact absurd rfl hne
  | cons v vs ih =>
    obtain ⟨bound, rfl⟩ : ∃ b, bound = b + 1 := ⟨bound - 1, by omega⟩
    have hv := hback v List.mem_cons_self
    cases vs with
    | nil =>
      -- The last item is followed by the closing bracket.
      rw [List.map_singleton, commaSeparated] at hbound ⊢
      rw [readItems, hv bound _ (by omega) (endsNumber_of_mem (by simp) rest)]
      simp [skip_cons (c := ']') rfl]
    | cons w ws =>
      -- The comma is skipped, and the next item begins at once.
      obtain ⟨-, hexact⟩ := List.forall_mem_cons.mp hexact
      obtain ⟨-, hback⟩ := List.forall_mem_cons.mp hback
      obtain ⟨c, cs, hcs, hspace, -⟩ :=
        (hexact w List.mem_cons_self).exists_write_eq_cons style
      obtain ⟨tail, htail⟩ := exists_commaSeparated_eq_cons hcs (ws.map (write style))
      rw [List.map_cons, List.map_cons, commaSeparated_cons_cons, List.length_append,
        List.length_cons] at hbound
      have hothers := ih (by simp) hexact hback bound (arranged style v :: done) (by
        rw [List.map_cons]
        omega)
      rw [List.map_cons, List.map_cons, commaSeparated_cons_cons, List.append_assoc,
        List.cons_append, readItems, hv bound _ (by omega) (endsNumber_of_mem (by simp) _)]
      simp only [skip_cons (c := ',') rfl]
      rw [htail, List.cons_append, skip_cons hspace, ← List.cons_append, ← htail, ← List.map_cons,
        hothers]
      simp

/-- A member is set, and after a comma the next one is read. -/
theorem readMembers_memberText (hlegible : style.IsLegible) {m : String × Json}
    (hexact : IsExact m.2) (hback : IsReadBack style m.2) {bound : Nat}
    (hbound : 2 * (memberText style m).length ≤ bound + 1) (done : List (String × Json))
    (rest : List Char) :
    readMembers (bound + 1) done (memberText style m ++ '\x7d' :: rest) =
        .ok (obj (setMember m.1 (arranged style m.2) done), rest) ∧
      readMembers (bound + 1) done (memberText style m ++ ',' :: rest) =
        readMembers bound (setMember m.1 (arranged style m.2) done) (skip rest) := by
  obtain ⟨c, cs, hcs, hspace, -⟩ := hexact.exists_write_eq_cons style
  have hlength : 2 * (write style m.2).length ≤ bound := by
    rw [memberText, List.length_append, List.length_cons] at hbound
    have hmarks : 1 ≤ (writeText style m.1).length := by simp [writeText]
    omega
  -- The value is read back whichever mark comes after it, and so is the name before it.
  have hvalue (next : Char) (hnext : next ∈ [',', ']', '\x7d']) :=
    hback bound (next :: rest) hlength (endsNumber_of_mem hnext rest)
  have hskip (next : Char) :
      skip (write style m.2 ++ next :: rest) = write style m.2 ++ next :: rest := by
    rw [hcs, List.cons_append, skip_cons hspace]
  have hname (next : Char) : ∃ ds, memberText style m ++ next :: rest = '"' :: ds ∧
      ∀ whole, readText whole [] ds = .ok (m.1, ':' :: (write style m.2 ++ next :: rest)) := by
    rw [memberText, List.append_assoc, List.cons_append]
    exact readText_writeText hlegible m.1 _
  constructor
  · obtain ⟨ds, hds, hread⟩ := hname '\x7d'
    rw [hds, readMembers]
    simp [hread, skip_cons (c := ':') rfl, skip_cons (c := '\x7d') rfl, hskip,
      hvalue '\x7d' (by simp)]
  · obtain ⟨ds, hds, hread⟩ := hname ','
    rw [hds, readMembers]
    simp [hread, skip_cons (c := ':') rfl, skip_cons (c := ',') rfl, hskip, hvalue ',' (by simp)]

/-- Some members of an object are read back up to the closing bracket; their names are none of those
that were read before. -/
theorem readMembers_commaSeparated (hlegible : style.IsLegible) {members : List (String × Json)}
    (hne : members ≠ []) (hexact : ∀ m ∈ members, IsExact m.2)
    (hback : ∀ m ∈ members, IsReadBack style m.2) (bound : Nat) (done : List (String × Json))
    (rest : List Char) (hnodup : ((done ++ members).map Prod.fst).Nodup)
    (hbound : 2 * (commaSeparated (members.map (memberText style))).length + 1 ≤ bound) :
    readMembers bound done (commaSeparated (members.map (memberText style)) ++ '\x7d' :: rest) =
      .ok (obj (done ++ members.map fun m => (m.1, arranged style m.2)), rest) := by
  induction members generalizing bound done with
  | nil => exact absurd rfl hne
  | cons m ms ih =>
    obtain ⟨bound, rfl⟩ : ∃ b, bound = b + 1 := ⟨bound - 1, by omega⟩
    obtain ⟨hexactm, hexact⟩ := List.forall_mem_cons.mp hexact
    obtain ⟨hbackm, hback⟩ := List.forall_mem_cons.mp hback
    -- The name is new, and so the member is added at the end.
    have hnew : m.1 ∉ done.map Prod.fst := by
      intro hmem
      rw [List.map_append, List.map_cons] at hnodup
      exact (List.nodup_append.mp hnodup).2.2 m.1 hmem m.1 List.mem_cons_self rfl
    have hset : setMember m.1 (arranged style m.2) done = done ++ [(m.1, arranged style m.2)] :=
      Table.put_of_notMem hnew
    cases ms with
    | nil =>
      -- The last member is followed by the closing bracket.
      rw [List.map_singleton, commaSeparated] at hbound ⊢
      rw [(readMembers_memberText hlegible hexactm hbackm (by omega) done rest).1, hset,
        List.map_singleton]
    | cons n ns =>
      obtain ⟨cs, hcs⟩ := exists_memberText_eq_cons style n
      obtain ⟨tail, htail⟩ := exists_commaSeparated_eq_cons hcs (ns.map (memberText style))
      rw [List.map_cons, List.map_cons, commaSeparated_cons_cons, List.length_append,
        List.length_cons] at hbound
      have hothers := ih (by simp) hexact hback bound (done ++ [(m.1, arranged style m.2)])
        (by simpa using hnodup) (by
          rw [List.map_cons]
          omega)
      rw [List.map_cons, List.map_cons, commaSeparated_cons_cons, List.append_assoc,
        List.cons_append, (readMembers_memberText hlegible hexactm hbackm (by omega) done _).2,
        hset, htail, List.cons_append, skip_cons rfl, ← List.cons_append, ← htail, ← List.map_cons,
        hothers]
      simp

/-- A text between two brackets is longer by both. -/
theorem length_bracketed (first last : Char) (cs : List Char) :
    (first :: cs ++ [last]).length = cs.length + 2 := by simp

/-- The text of an exact value is not empty, and so there is a bound to begin with. -/
theorem IsExact.isReadBack_of_succ {v : Json} (h : IsExact v)
    (hread : ∀ (bound : Nat) (rest : List Char), 2 * (write style v).length ≤ bound + 1 →
      EndsNumber rest →
        readValue (bound + 1) (write style v ++ rest) = .ok (arranged style v, rest)) :
    IsReadBack style v := by
  intro bound rest hbound hrest
  obtain ⟨c, cs, hcs, -⟩ := h.exists_write_eq_cons style
  obtain ⟨bound, rfl⟩ : ∃ b, bound = b + 1 := by
    rw [hcs, List.length_cons] at hbound
    exact ⟨bound - 1, by omega⟩
  exact hread bound rest hbound hrest

/-- A whole number is read back. -/
theorem isReadBack_int {z : Int} (hz : digitCount z.natAbs ≤ digitLimit) :
    IsReadBack style (int z) := by
  refine (IsExact.int z hz).isReadBack_of_succ fun bound rest _ hrest => ?_
  obtain ⟨c, cs, hcs, -, hquote, hlist, hobject⟩ := exists_toList_toString_int_eq_cons z
  have hread := readScalar_int hz hrest
  rw [hcs] at hread
  rw [write, hcs, arranged, List.cons_append, readValue_scalar hquote hlist hobject]
  exact hread

/-- A list is read back if its items are. -/
theorem isReadBack_arr {items : List Json} (hexact : ∀ v ∈ items, IsExact v)
    (hback : ∀ v ∈ items, IsReadBack style v) : IsReadBack style (arr items) := by
  refine (IsExact.arr items hexact).isReadBack_of_succ fun bound rest hbound _ => ?_
  rw [write, writeItems_eq_map, length_bracketed] at hbound
  rw [write, arranged, writeItems_eq_map, arrangedItems_eq_map, List.append_assoc,
    List.singleton_append, List.cons_append]
  cases items with
  | nil => rfl
  | cons v vs =>
    obtain ⟨c, cs, hcs, hc⟩ := (hexact v List.mem_cons_self).exists_write_eq_cons style
    obtain ⟨tail, htail⟩ := exists_commaSeparated_eq_cons hcs (vs.map (write style))
    -- The items are read after the opening bracket.
    have hread := readItems_commaSeparated (by simp) hexact hback bound [] rest (by omega)
    rw [List.map_cons, htail, List.cons_append] at hread ⊢
    rw [readValue_list hc, hread]
    rfl

/-- An object is read back if the values of its members are. -/
theorem isReadBack_obj (hlegible : style.IsLegible) {members : List (String × Json)}
    (hnodup : (members.map Prod.fst).Nodup) (hexact : ∀ m ∈ members, IsExact m.2)
    (hback : ∀ m ∈ members, IsReadBack style m.2) : IsReadBack style (obj members) := by
  refine (IsExact.obj members hnodup hexact).isReadBack_of_succ fun bound rest hbound _ => ?_
  -- The members in the order in which they are written are as good as they were.
  have hperm : (style.order members).Perm members := Style.order_perm members
  have hnodup' : ((style.order members).map Prod.fst).Nodup :=
    (hperm.map Prod.fst).nodup_iff.mpr hnodup
  have hexact' (m : String × Json) (hm : m ∈ style.order members) : IsExact m.2 :=
    hexact m (hperm.mem_iff.mp hm)
  have hback' (m : String × Json) (hm : m ∈ style.order members) : IsReadBack style m.2 :=
    hback m (hperm.mem_iff.mp hm)
  rw [write_obj, length_bracketed] at hbound
  rw [write_obj, arranged_obj, List.append_assoc, List.singleton_append, List.cons_append]
  cases hordered : style.order members with
  | nil => rfl
  | cons m ms =>
    rw [hordered] at hnodup' hexact' hback' hbound
    obtain ⟨cs, hcs⟩ := exists_memberText_eq_cons style m
    obtain ⟨tail, htail⟩ := exists_commaSeparated_eq_cons hcs (ms.map (memberText style))
    -- The members are read after the opening bracket.
    have hread := readMembers_commaSeparated hlegible (by simp) hexact' hback' bound [] rest
      hnodup' (by omega)
    rw [List.map_cons, htail, List.cons_append] at hread ⊢
    rw [readValue_object, hread]
    rfl

/-- An exact value is read back in a legible style, whatever follows it. -/
theorem IsExact.isReadBack (hlegible : style.IsLegible) {v : Json} (h : IsExact v) :
    IsReadBack style v := by
  induction h with
  | null =>
    refine null.isReadBack_of_succ fun bound rest _ _ => ?_
    exact readValue_scalar (by decide) (by decide) (by decide)
  | bool b =>
    refine (bool b).isReadBack_of_succ fun bound rest _ _ => ?_
    cases b
    · exact readValue_scalar (by decide) (by decide) (by decide)
    · exact readValue_scalar (by decide) (by decide) (by decide)
  | int z hz => exact isReadBack_int hz
  | str s =>
    refine (str s).isReadBack_of_succ fun bound rest _ _ => ?_
    obtain ⟨cs, hcs, hread⟩ := readText_writeText hlegible s rest
    rw [write, hcs, readValue, hread]
    rfl
  | arr items hitems ih => exact isReadBack_arr hitems ih
  | obj members hnodup hmembers ih => exact isReadBack_obj hlegible hnodup hmembers ih

/-! ## Documents -/

/-- The document of an exact value in a legible style is read as the value, arranged. -/
theorem IsExact.read_write (hlegible : style.IsLegible) {v : Json} (h : IsExact v) :
    read (String.ofList (write style v)) = .ok (arranged style v) := by
  obtain ⟨c, cs, hcs, hspace, -, hmark⟩ := h.exists_write_eq_cons style
  have hskip : skip (write style v) = write style v := by rw [hcs, skip_cons hspace]
  -- Neither white space nor a byte order mark comes before the value, and nothing after it.
  have hhead : (write style v).head? ≠ some '\uFEFF' := by
    rw [hcs, List.head?_cons]
    exact fun heq => hmark (Option.some.inj heq)
  have hread := h.isReadBack hlegible (2 * (write style v).length + 2) [] (by omega) trivial
  rw [List.append_nil] at hread
  rw [read, String.toList_ofList, readChars, if_neg hhead, readDocument, hskip, hread]
  rfl

/-- The text with sorted members is read as the value with its members sorted. -/
theorem IsExact.read_stable {v : Json} (h : IsExact v) :
    read v.stable = .ok (arranged .stable v) :=
  h.read_write isLegible_stable

mutual

/-- A style that keeps the members in their order leaves a value as it is. -/
theorem arranged_compact (v : Json) : arranged .compact v = v := by
  cases v with
  | null | bool | int | float | str => rfl
  | arr items => rw [arranged, arrangedItems_compact items]
  | obj members =>
    rw [arranged, arrangedMembers_compact members]
    rfl

/-- A style that keeps the members in their order leaves the values of a list as they are. -/
theorem arrangedItems_compact (items : List Json) : arrangedItems .compact items = items := by
  cases items with
  | nil => rfl
  | cons v vs => rw [arrangedItems, arranged_compact v, arrangedItems_compact vs]

/-- A style that keeps the members in their order leaves them as they are. -/
theorem arrangedMembers_compact (members : List (String × Json)) :
    arrangedMembers .compact members = members := by
  match members with
  | [] => rfl
  | (name, v) :: rest => rw [arrangedMembers, arranged_compact v, arrangedMembers_compact rest]

end

/-- The text in printable ASCII is read as the value. -/
theorem IsExact.read_compact {v : Json} (h : IsExact v) : read v.compact = .ok v :=
  (h.read_write isLegible_compact).trans (congrArg Except.ok (arranged_compact v))

end RepoGraph.Json
