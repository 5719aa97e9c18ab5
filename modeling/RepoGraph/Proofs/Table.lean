import Mathlib.Data.List.Lookmap
import Mathlib.Data.List.Nodup
import Mathlib.Data.List.Perm.Subperm
import RepoGraph.Table

/-!
# Laws of tables

A table is known by what it has under each name. `lookup?_insert` says what setting a value does to
that, `insert_insert` that setting another one replaces it, `ofList_entries` that a table is the one
of its own entries, and `agrees_iff_perm` that two tables agree exactly when they have the same
entries up to order.
-/

namespace RepoGraph.Table

variable {α : Type}

/-- Where each name stands once, a name has the value that it is listed with. -/
theorem lookup_eq_some_iff_mem {entries : List (String × α)} (h : (entries.map Prod.fst).Nodup)
    {name : String} {value : α} : entries.lookup name = some value ↔ (name, value) ∈ entries := by
  induction entries with
  | nil => simp
  | cons e rest ih =>
    obtain ⟨n, v⟩ := e
    rw [List.map_cons, List.nodup_cons] at h
    rw [List.lookup_cons]
    by_cases hn : name = n
    · subst hn
      have hrest : (name, value) ∉ rest := fun hmem =>
        h.1 (List.mem_map.mpr ⟨(name, value), hmem, rfl⟩)
      simp [hrest, eq_comm]
    · have hbeq : (name == n) = false := beq_eq_false_iff_ne.mpr hn
      simp [hbeq, hn, ih h.2]

/-- What has no value is not listed. -/
theorem lookup_eq_none_iff_notMem {entries : List (String × α)} {name : String} :
    entries.lookup name = none ↔ name ∉ entries.map Prod.fst := by
  rw [List.lookup_eq_none_iff, List.mem_map]
  constructor
  · rintro hall ⟨entry, hentry, rfl⟩
    have hne := hall entry hentry
    simp at hne
  · intro hnot entry hentry
    simpa using fun heq => hnot ⟨entry, hentry, heq.symm⟩

/-- Where each name stands once, the order does not matter for what a name has. -/
theorem lookup_eq_of_perm {entries others : List (String × α)} (hperm : entries.Perm others)
    (h : (entries.map Prod.fst).Nodup) (name : String) :
    entries.lookup name = others.lookup name := by
  have h' : (others.map Prod.fst).Nodup := (hperm.map Prod.fst).nodup_iff.mp h
  refine Option.ext fun value => ?_
  rw [lookup_eq_some_iff_mem h, lookup_eq_some_iff_mem h']
  exact hperm.mem_iff

/-- Setting a value is what a look under its name then finds. -/
theorem lookup_put (name : String) (value : α) (entries : List (String × α)) (other : String) :
    (put name value entries).lookup other =
      if other = name then some value else entries.lookup other := by
  induction entries with
  | nil => by_cases h : other = name <;> simp [put, h]
  | cons e rest ih =>
    obtain ⟨n, v⟩ := e
    by_cases hn : n = name
    · subst hn
      rw [put, if_pos rfl, List.lookup_cons, List.lookup_cons]
      by_cases h : other = n
      · simp [h]
      · simp [h, beq_eq_false_iff_ne.mpr h]
    · rw [put, if_neg hn, List.lookup_cons, List.lookup_cons, ih]
      by_cases h : other = n
      · subst h
        simp [hn]
      · simp [beq_eq_false_iff_ne.mpr h]

/-- Setting a value changes what is under its name and nothing else. -/
theorem lookup?_insert (t : Table α) (name : String) (value : α) (other : String) :
    (t.insert name value).lookup? other = if other = name then some value else t.lookup? other :=
  lookup_put name value t.entries other

/-- What was set is found. -/
@[simp]
theorem lookup?_insert_self (t : Table α) (name : String) (value : α) :
    (t.insert name value).lookup? name = some value := by
  rw [lookup?_insert, if_pos rfl]

/-- Setting a value leaves the other names as they are. -/
theorem lookup?_insert_of_ne (t : Table α) {name other : String} (value : α) (h : other ≠ name) :
    (t.insert name value).lookup? other = t.lookup? other := by
  rw [lookup?_insert, if_neg h]

/-- Of two values that are set under one name the second stays, in the place of the first. -/
theorem put_put (name : String) (value value' : α) (entries : List (String × α)) :
    put name value' (put name value entries) = put name value' entries := by
  induction entries with
  | nil => simp [put]
  | cons e rest ih =>
    obtain ⟨n, v⟩ := e
    by_cases hn : n = name
    · simp [put, hn]
    · simp [put, hn, ih]

/-- Setting a value keeps what holds of all values if it holds of that one. -/
theorem forall_lookup?_insert {t : Table α} {name : String} {value : α}
    {P : String → α → Prop} (hvalue : P name value)
    (h : ∀ other v, other ≠ name → t.lookup? other = some v → P other v) (other : String) (v : α)
    (hv : (t.insert name value).lookup? other = some v) : P other v := by
  rw [lookup?_insert] at hv
  split at hv
  · rename_i heq
    subst heq
    exact Option.some.inj hv ▸ hvalue
  · rename_i hne
    exact h other v hne hv

/-- A name stands in the table exactly when a look finds something. -/
theorem contains_eq_true_iff (t : Table α) (name : String) :
    t.contains name = true ↔ ∃ value, t.lookup? name = some value := by
  rw [contains, Option.isSome_iff_exists]

/-- A name that has a value stands in the table. -/
theorem mem_names {t : Table α} {name : String} {value : α} (h : t.lookup? name = some value) :
    name ∈ t.names :=
  List.mem_map.mpr ⟨(name, value), (lookup_eq_some_iff_mem t.nodup).mp h, rfl⟩

/-- It does so once. -/
theorem count_names {t : Table α} {name : String} {value : α} (h : t.lookup? name = some value) :
    t.names.count name = 1 :=
  List.count_eq_one_of_mem t.nodup (mem_names h)

/-- The names after a value was set. -/
theorem mem_names_insert {t : Table α} {name other : String} {value : α} :
    other ∈ (t.insert name value).names ↔ other = name ∨ other ∈ t.names := by
  rw [names, insert, map_fst_put]
  split
  · rename_i h
    constructor
    · exact Or.inr
    · rintro (rfl | hmem)
      · exact h
      · exact hmem
  · rw [List.mem_append, List.mem_singleton, or_comm]
    rfl

/-- The names after several values were set. -/
theorem mem_names_foldl_insert (entries : List (String × α)) (t : Table α) (name : String) :
    name ∈ (entries.foldl (fun t e => t.insert e.1 e.2) t).names ↔
      name ∈ entries.map Prod.fst ∨ name ∈ t.names := by
  induction entries generalizing t with
  | nil => simp
  | cons e rest ih =>
    rw [List.foldl_cons, ih, mem_names_insert, List.map_cons, List.mem_cons]
    tauto

/-- The names of a table of entries are theirs. -/
theorem mem_names_ofList {entries : List (String × α)} {name : String} :
    name ∈ (ofList entries).names ↔ name ∈ entries.map Prod.fst := by
  rw [ofList, mem_names_foldl_insert]
  simp [names, empty]

/-- A new name comes last. -/
theorem put_of_notMem {name : String} {value : α} {entries : List (String × α)}
    (h : name ∉ entries.map Prod.fst) : put name value entries = entries ++ [(name, value)] := by
  induction entries with
  | nil => rfl
  | cons e rest ih =>
    obtain ⟨n, v⟩ := e
    rw [List.map_cons, List.mem_cons, not_or] at h
    rw [put, if_neg (Ne.symm h.1), ih h.2, List.cons_append]

/-- Setting values under new names adds them at the end. -/
theorem entries_foldl_insert (entries : List (String × α)) (t : Table α)
    (h : ((t.entries ++ entries).map Prod.fst).Nodup) :
    (entries.foldl (fun t e => t.insert e.1 e.2) t).entries = t.entries ++ entries := by
  induction entries generalizing t with
  | nil => simp
  | cons e rest ih =>
    have hnew : e.1 ∉ t.entries.map Prod.fst := by
      intro hmem
      rw [List.map_append, List.map_cons] at h
      exact (List.nodup_append.mp h).2.2 e.1 hmem e.1 List.mem_cons_self rfl
    have hput : (t.insert e.1 e.2).entries = t.entries ++ [e] := put_of_notMem hnew
    rw [List.foldl_cons, ih _ (by rw [hput, List.append_assoc]; exact h), hput, List.append_assoc]
    rfl

/-- Entries whose names are distinct are those of their table. -/
theorem entries_ofList {entries : List (String × α)} (h : (entries.map Prod.fst).Nodup) :
    (ofList entries).entries = entries :=
  entries_foldl_insert entries empty h

/-- Two tables with the same entries in the same order are one. -/
theorem eq_of_entries_eq {s t : Table α} (h : s.entries = t.entries) : s = t := by
  cases s
  cases t
  cases h
  rfl

/-- Setting a value under a name and then another one is setting the other one. -/
theorem insert_insert (t : Table α) (name : String) (value value' : α) :
    (t.insert name value).insert name value' = t.insert name value' :=
  eq_of_entries_eq (put_put name value value' t.entries)

/-- A table is the one of its own entries. -/
theorem ofList_entries (t : Table α) : ofList t.entries = t :=
  eq_of_entries_eq (entries_ofList t.nodup)

/-- The entries are the names with what a look finds under each. -/
theorem entries_eq_filterMap (t : Table α) :
    t.entries = t.names.filterMap fun name => (t.lookup? name).map (name, ·) := by
  have hfound (e : String × α) (he : e ∈ t.entries) :
      (t.lookup? e.1).map (e.1, ·) = some e := by
    rw [lookup?, (lookup_eq_some_iff_mem t.nodup).mpr he]
    rfl
  rw [names, List.filterMap_map]
  exact (List.filterMap_some.symm.trans (List.filterMap_congr fun e he => (hfound e he).symm))

/-- Two tables with the same names in the same order are one if they have the same under each. -/
theorem eq_of_lookup?_eq {s t : Table α} (hnames : s.names = t.names)
    (h : ∀ name, s.lookup? name = t.lookup? name) : s = t :=
  eq_of_entries_eq (by rw [entries_eq_filterMap, entries_eq_filterMap, hnames, funext h])

/-- Setting a value under a name that is there adds none. -/
theorem names_insert_of_mem {t : Table α} {name : String} (h : name ∈ t.names) (value : α) :
    (t.insert name value).names = t.names := by
  rw [names, insert, map_fst_put]
  exact if_pos h

/-- Setting the value that is there changes nothing. -/
theorem insert_eq_self {t : Table α} {name : String} {value : α} (h : t.lookup? name = some value) :
    t.insert name value = t := by
  refine eq_of_lookup?_eq (names_insert_of_mem (mem_names h) value) fun other => ?_
  rw [lookup?_insert]
  split
  · rename_i hother
    rw [hother, h]
  · rfl

/-- Of several values that are set under a name the last one stays. -/
theorem lookup?_foldl_insert (entries : List (String × α)) (t : Table α) (name : String) :
    (entries.foldl (fun t e => t.insert e.1 e.2) t).lookup? name =
      (entries.reverse.lookup name).or (t.lookup? name) := by
  induction entries generalizing t with
  | nil => rfl
  | cons e rest ih =>
    have hstep : (t.insert e.1 e.2).lookup? name = ([e].lookup name).or (t.lookup? name) := by
      rw [lookup?_insert, List.lookup_cons]
      by_cases h : name = e.1
      · simp [h]
      · simp [h, beq_eq_false_iff_ne.mpr h]
    rw [List.foldl_cons, ih, hstep, List.reverse_cons, List.lookup_append, Option.or_assoc]

/-- Two tables agree exactly when they have the same entries, in whichever order. -/
theorem agrees_iff_perm [BEq α] [LawfulBEq α] {s t : Table α} :
    s.agrees t = true ↔ s.entries.Perm t.entries := by
  simp only [agrees, Bool.and_eq_true, beq_iff_eq, List.all_eq_true]
  constructor
  · rintro ⟨hlength, hfound⟩
    -- The entries of the first are among those of the second, and there are as many.
    have hsub : s.entries ⊆ t.entries := fun e he =>
      (lookup_eq_some_iff_mem t.nodup).mp (hfound e he)
    have hnodup : s.entries.Nodup := List.Nodup.of_map _ s.nodup
    exact (hnodup.subperm hsub).perm_of_length_le (Nat.le_of_eq hlength.symm)
  · intro hperm
    refine ⟨hperm.length_eq, fun e he => ?_⟩
    exact (lookup_eq_some_iff_mem t.nodup).mpr (hperm.mem_iff.mp he)

end RepoGraph.Table
