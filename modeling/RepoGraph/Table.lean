/-!
# Tables

A table maps names to values and keeps the order in which the names were first entered. Each name
stands in it once, which the type carries. The view of a table is `entries`; `lookup?` reads it.
-/

namespace RepoGraph

/-- Values by name, in the order of entry. -/
structure Table (α : Type) where
  /-- The names with their values. -/
  entries : List (String × α)
  /-- Each name stands in the table once. -/
  nodup : (entries.map Prod.fst).Nodup

namespace Table

variable {α β : Type}

/-- The entries with a value set: in the place of its name, or last if the name is new. -/
def put (name : String) (value : α) : List (String × α) → List (String × α)
  | [] => [(name, value)]
  | (n, v) :: rest => if n = name then (n, value) :: rest else (n, v) :: put name value rest

/-- Setting a value adds its name only if it is new. -/
theorem map_fst_put (name : String) (value : α) (entries : List (String × α)) :
    (put name value entries).map Prod.fst =
      if name ∈ entries.map Prod.fst then entries.map Prod.fst
      else entries.map Prod.fst ++ [name] := by
  induction entries with
  | nil => simp [put]
  | cons e rest ih =>
    obtain ⟨n, v⟩ := e
    by_cases h : n = name
    · simp [put, h]
    · have h' : ¬ name = n := fun e => h e.symm
      simp only [put, h, if_false, List.map_cons, ih, List.mem_cons, h', false_or]
      split <;> simp

/-- The table without entries. -/
def empty : Table α := ⟨[], by simp⟩

instance : EmptyCollection (Table α) := ⟨empty⟩

instance : Inhabited (Table α) := ⟨empty⟩

/-- The table with a value set. -/
def insert (t : Table α) (name : String) (value : α) : Table α :=
  ⟨put name value t.entries, by
    rw [map_fst_put]
    split
    · exact t.nodup
    · rename_i h
      refine List.nodup_append.2 ⟨t.nodup, by simp, ?_⟩
      intro a ha b hb
      simp only [List.mem_singleton] at hb
      rintro rfl
      exact h (hb ▸ ha)⟩

/-- The table of some entries, the last value of a name being the one that counts. -/
def ofList (entries : List (String × α)) : Table α :=
  entries.foldl (fun t e => t.insert e.1 e.2) empty

/-- The value of a name. -/
def lookup? (t : Table α) (name : String) : Option α := t.entries.lookup name

/-- The name stands in the table. -/
def contains (t : Table α) (name : String) : Bool := (t.lookup? name).isSome

/-- The names, in the order of entry. -/
def names (t : Table α) : List String := t.entries.map Prod.fst

/-- The values, in the order of entry. -/
def values (t : Table α) : List α := t.entries.map Prod.snd

/-- The two tables have the same entries, in whichever order. -/
def agrees [BEq α] (s t : Table α) : Bool :=
  s.entries.length == t.entries.length && s.entries.all fun e => t.lookup? e.1 == some e.2

end Table

end RepoGraph
