import RepoGraph.Command.Run
import RepoGraph.Proofs.Table
import RepoGraph.Proofs.Text.Blank
import RepoGraph.Proofs.Text.Lines
import RepoGraph.Proofs.Text.Utf8

/-!
# Variables after a file of them was loaded

A file of variables without null characters is entered whole (`load_eq_ok`), as nothing is read on a
line that does not stand there (`parseChars_subset`). What a variable has then depends on all pairs
of the file and on what it had before: where nothing is overridden the first of all counts
(`lookup?_foldl_withEntry_false`), and where pairs override the last one
(`Table.lookup?_foldl_insert`). Loading the file once more changes nothing
(`foldl_withEntry_again`). `entered_settles` says so of the octets of a file.
-/

namespace RepoGraph

open RepoGraph.Text

namespace Dotenv

/-! ## What is read on a line -/

/-- What stands up to a closing quote stands in the text. -/
theorem untilQuote_subset (mark : Char) (escapes : Bool) (s : List Char) :
    untilQuote mark escapes s ⊆ s := by
  fun_induction untilQuote mark escapes s with
  | case1 => exact List.Subset.refl _
  | case2 c h => exact List.nil_subset _
  | case3 c h d rest ih =>
    exact List.subset_cons_of_subset _ (List.cons_subset_cons d ih)
  | case4 cs => exact List.nil_subset _
  | case5 c cs hescape hmark ih => exact List.cons_subset_cons c ih

/-- A value stands in what it is read from. -/
theorem parseValue_subset (s : List Char) : parseValue s ⊆ s := by
  refine List.Subset.trans ?_ (trim_subset s)
  unfold parseValue
  split
  · exact List.nil_subset _
  · rename_i c cs hcons
    rw [hcons]
    split
    · exact List.subset_cons_of_subset _ (untilQuote_subset c _ cs)
    · exact List.Subset.trans (trim_subset _) (List.takeWhile_subset _)

/-- What is left without the word `export` stands in the text. -/
theorem dropExport_subset (s : List Char) : dropExport s ⊆ s := by
  unfold dropExport
  split
  · rename_i rest hrest
    rw [eq_append_of_after? hrest]
    exact List.Subset.trans (List.dropWhile_subset _) (List.subset_append_right _ rest)
  · exact List.Subset.refl _

/-- The name and the value on a line stand there. -/
theorem parseChars_subset {line name value : List Char} (h : parseChars line = some (name, value)) :
    name ⊆ line ∧ value ⊆ line := by
  have hline := trim_subset line
  unfold parseChars at h
  split at h
  · cases h
  · cases h
  · split at h
    · cases h
    · rename_i front back hcut
      obtain ⟨heq, -⟩ := cut?_eq_some_iff.mp hcut
      have hdrop : dropExport (trim line) ⊆ line := List.Subset.trans (dropExport_subset _) hline
      dsimp only at h
      split at h
      · cases h
      · obtain ⟨rfl, rfl⟩ := Prod.mk.inj (Option.some.inj h)
        rw [heq] at hdrop
        obtain ⟨hfront, hback⟩ := List.append_subset.mp hdrop
        exact ⟨List.Subset.trans (trim_subset front) hfront,
          List.Subset.trans (parseValue_subset back) (List.cons_subset.mp hback).2⟩

/-- There is no null character in what is part of a text without any. -/
theorem hasNull_ofList_eq_false {s : List Char} {text : String} (h : hasNull text = false)
    (hs : s ⊆ text.toList) : hasNull (String.ofList s) = false := by
  rw [hasNull, List.contains_eq_mem, decide_eq_false_iff_not] at h ⊢
  rw [String.toList_ofList]
  exact fun hmem => h (hs hmem)

/-- Without null characters in a file there are none in the names and values that it sets. -/
theorem hasNull_of_mem_assignments {text : String} (h : hasNull text = false)
    {pair : String × String} (hpair : pair ∈ assignments text) :
    hasNull pair.1 = false ∧ hasNull pair.2 = false := by
  obtain ⟨line, hline, hparse⟩ := List.mem_filterMap.mp hpair
  rw [parseLine, String.toList_ofList] at hparse
  obtain ⟨⟨name, value⟩, hchars, rfl⟩ := Option.map_eq_some_iff.mp hparse
  obtain ⟨hname, hvalue⟩ := parseChars_subset hchars
  have htext : line ⊆ text.toList := fun c hc => (mem_of_mem_lines hline hc).1
  exact ⟨hasNull_ofList_eq_false h (List.Subset.trans hname htext),
    hasNull_ofList_eq_false h (List.Subset.trans hvalue htext)⟩

/-! ## Entering variables -/

/-- The environment with a variable that can be entered, unless it is there already and may not be
overridden. -/
def withEntry (override : Bool) (env : Environment) (pair : String × String) : Environment :=
  if !override && env.contains pair.1 then env else env.insert pair.1 pair.2

/-- A variable without null characters is entered. -/
theorem enter_eq_ok {pair : String × String} (hname : hasNull pair.1 = false)
    (hvalue : hasNull pair.2 = false) (override : Bool) (env : Environment) :
    enter override env pair = .ok (withEntry override env pair) := by
  unfold enter withEntry
  rw [hname, hvalue]
  cases !override && env.contains pair.1 <;> rfl

/-- Variables without null characters are entered one after another. -/
theorem foldlM_enter_eq_ok {pairs : List (String × String)}
    (h : ∀ pair ∈ pairs, hasNull pair.1 = false ∧ hasNull pair.2 = false) (override : Bool)
    (env : Environment) :
    pairs.foldlM (enter override) env = .ok (pairs.foldl (withEntry override) env) := by
  induction pairs generalizing env with
  | nil => rfl
  | cons pair rest ih =>
    obtain ⟨⟨hname, hvalue⟩, hrest⟩ := List.forall_mem_cons.mp h
    rw [List.foldlM_cons, enter_eq_ok hname hvalue, List.foldl_cons]
    exact ih hrest _

/-- A file of variables without null characters is entered whole. -/
theorem load_eq_ok {text : String} (h : hasNull text = false) (override : Bool)
    (env : Environment) :
    load override text env = .ok ((assignments text).foldl (withEntry override) env) :=
  foldlM_enter_eq_ok (fun _ hpair => hasNull_of_mem_assignments h hpair) override env

/-- The value that a variable has once the pairs of a file are entered: where they do not override,
the one that it had, or else the first one that is given to it, and where they do, the last one that
is given to it, or else the one that it had. -/
def settled? (override : Bool) (pairs : List (String × String)) (env : Environment)
    (name : String) : Option String :=
  if override then (pairs.reverse.lookup name).or (env.lookup? name)
  else (env.lookup? name).or (pairs.lookup name)

/-- A variable that is not in the file keeps what it had. -/
theorem settled?_of_notMem {pairs : List (String × String)} {name : String}
    (h : name ∉ pairs.map Prod.fst) (override : Bool) (env : Environment) :
    settled? override pairs env name = env.lookup? name := by
  have hfirst : pairs.lookup name = none := Table.lookup_eq_none_iff_notMem.mpr h
  have hlast : pairs.reverse.lookup name = none := by
    rw [Table.lookup_eq_none_iff_notMem, List.map_reverse, List.mem_reverse]
    exact h
  unfold settled?
  rw [hfirst, hlast, Option.none_or, Option.or_none, ite_self]

/-- The value that a single pair gives. -/
theorem lookup_singleton (pair : String × String) (name : String) :
    [pair].lookup name = if name = pair.1 then some pair.2 else none := by
  rw [List.lookup_cons]
  by_cases h : name = pair.1
  · simp [h]
  · simp [h, beq_eq_false_iff_ne.mpr h]

/-- A variable that is there already keeps its value if it is not overridden. -/
theorem lookup?_withEntry_false (env : Environment) (pair : String × String) (name : String) :
    (withEntry false env pair).lookup? name = (env.lookup? name).or ([pair].lookup name) := by
  rw [lookup_singleton]
  unfold withEntry
  cases hcontains : env.contains pair.1 with
  | true =>
    obtain ⟨value, hvalue⟩ := (Table.contains_eq_true_iff env pair.1).mp hcontains
    rw [if_pos (by decide)]
    split
    · rename_i hname
      rw [hname, hvalue, Option.some_or]
    · rw [Option.or_none]
  | false =>
    have hnew : env.lookup? pair.1 = none :=
      Option.not_isSome_iff_eq_none.mp (Bool.eq_false_iff.mp hcontains)
    rw [if_neg (by decide), Table.lookup?_insert]
    split
    · rename_i hname
      rw [hname, hnew, Option.none_or]
    · rw [Option.or_none]

/-- Of several values for a variable that is not overridden the first one stays. -/
theorem lookup?_foldl_withEntry_false (pairs : List (String × String)) (env : Environment)
    (name : String) :
    (pairs.foldl (withEntry false) env).lookup? name =
      (env.lookup? name).or (pairs.lookup name) := by
  induction pairs generalizing env with
  | nil => exact Option.or_none.symm
  | cons pair rest ih =>
    rw [List.foldl_cons, ih, lookup?_withEntry_false, Option.or_assoc, ← List.lookup_append]
    rfl

/-- Every variable has the value that the pairs leave it with. -/
theorem lookup?_foldl_withEntry (override : Bool) (pairs : List (String × String))
    (env : Environment) (name : String) :
    (pairs.foldl (withEntry override) env).lookup? name = settled? override pairs env name := by
  cases override with
  | false => exact lookup?_foldl_withEntry_false pairs env name
  | true => exact Table.lookup?_foldl_insert pairs env name

/-- Values that the pairs leave variables with are those that they leave them with again. -/
theorem settled?_of_settled {override : Bool} {pairs : List (String × String)}
    {env env' : Environment} {name : String}
    (h : env'.lookup? name = settled? override pairs env name) :
    settled? override pairs env' name = env'.lookup? name := by
  unfold settled? at h ⊢
  cases override with
  | false =>
    rw [if_neg (by decide)] at h ⊢
    rw [h, Option.or_assoc, Option.or_self]
  | true =>
    rw [if_pos rfl] at h ⊢
    rw [h, ← Option.or_assoc, Option.or_self]

/-- A variable of the file has a value once the pairs are entered. -/
theorem mem_names_foldl_withEntry (override : Bool) {pairs : List (String × String)}
    (env : Environment) {pair : String × String} (h : pair ∈ pairs) :
    pair.1 ∈ (pairs.foldl (withEntry override) env).names := by
  by_contra hnot
  have hnone := lookup?_foldl_withEntry override pairs env pair.1
  rw [Table.lookup?, Table.lookup_eq_none_iff_notMem.mpr hnot] at hnone
  have hmem : pair.1 ∈ pairs.map Prod.fst := List.mem_map_of_mem h
  unfold settled? at hnone
  split at hnone
  · have hlast := (Option.or_eq_none_iff.mp hnone.symm).1
    rw [Table.lookup_eq_none_iff_notMem, List.map_reverse, List.mem_reverse] at hlast
    exact hlast hmem
  · have hfirst := (Option.or_eq_none_iff.mp hnone.symm).2
    exact Table.lookup_eq_none_iff_notMem.mp hfirst hmem

/-- Pairs for variables that are there add none. -/
theorem names_foldl_withEntry_of_mem (override : Bool) {pairs : List (String × String)}
    {env : Environment} (h : ∀ pair ∈ pairs, pair.1 ∈ env.names) :
    (pairs.foldl (withEntry override) env).names = env.names := by
  induction pairs generalizing env with
  | nil => rfl
  | cons pair rest ih =>
    obtain ⟨hpair, hrest⟩ := List.forall_mem_cons.mp h
    have hsame : (withEntry override env pair).names = env.names := by
      unfold withEntry
      split
      · rfl
      · exact Table.names_insert_of_mem hpair pair.2
    rw [List.foldl_cons, ih (hsame.symm ▸ hrest), hsame]

/-- Pairs that are entered once more change nothing. -/
theorem foldl_withEntry_again (override : Bool) (pairs : List (String × String))
    (env : Environment) :
    pairs.foldl (withEntry override) (pairs.foldl (withEntry override) env) =
      pairs.foldl (withEntry override) env := by
  refine Table.eq_of_lookup?_eq ?_ fun name => ?_
  · exact names_foldl_withEntry_of_mem override fun _ h => mem_names_foldl_withEntry override env h
  · rw [lookup?_foldl_withEntry]
    exact settled?_of_settled (lookup?_foldl_withEntry override pairs env name)

end Dotenv

namespace Arguments

/-- The variables of a file are those on the lines of its text. -/
theorem entered_encode (override : Bool) (env : Environment) (text : String) :
    entered override env (.ok (Utf8.encode text.toList)) =
      (Dotenv.load override text env).mapError fun _ => .nullInVariable := by
  have htext : Document.fileText (Utf8.encode text.toList) =
      .ok (String.ofList (unifyLineEnds text.toList)) := by
    rw [Document.fileText, Utf8.decode_eq_ok_iff.mpr rfl]
    rfl
  have hload : Dotenv.load override (String.ofList (unifyLineEnds text.toList)) env =
      Dotenv.load override text env := by
    unfold Dotenv.load Dotenv.assignments
    rw [String.toList_ofList, lines_unifyLineEnds]
  rw [entered, htext, ← hload]
  dsimp only [bind, Except.bind]

/-- A file of variables whose text has no null character is entered. Each variable then has the
value that its pairs settle, a variable of which the file says nothing is left as it was, and
entering the file in the same way once more changes nothing. -/
theorem entered_settles {text : String} (h : Dotenv.hasNull text = false) (override : Bool)
    (env : Environment) :
    let file := Except.ok (Utf8.encode text.toList)
    let pairs := Dotenv.assignments text
    ∃ env', entered override env file = .ok env' ∧
      (∀ name, env'.lookup? name =
        if override then (pairs.reverse.lookup name).or (env.lookup? name)
        else (env.lookup? name).or (pairs.lookup name)) ∧
      (∀ name, name ∉ pairs.map Prod.fst → env'.lookup? name = env.lookup? name) ∧
      entered override env' file = .ok env' := by
  intro file pairs
  have hentered (env : Environment) :
      entered override env file = .ok (pairs.foldl (Dotenv.withEntry override) env) := by
    rw [entered_encode, Dotenv.load_eq_ok h]
    rfl
  have hlookup := Dotenv.lookup?_foldl_withEntry override pairs env
  refine ⟨_, hentered env, hlookup, fun name hname => ?_, ?_⟩
  · rw [hlookup, Dotenv.settled?_of_notMem hname]
  · rw [hentered, Dotenv.foldl_withEntry_again]

/-- A file that sets two variables twice, one of which is there before, with a blank line and one
that sets nothing. -/
theorem entered_settles_twice :
    let text := "A=1\n\nB=2\nno pair\nexport A=3\r\nB='4' # last"
    let env : Environment := Table.ofList [("B", "0"), ("C", "9")]
    let file := Except.ok (Utf8.encode text.toList)
    Dotenv.hasNull text = false ∧
      (∃ kept, entered false env file = .ok kept ∧ kept.lookup? "A" = some "1" ∧
        kept.lookup? "B" = some "0" ∧ kept.lookup? "C" = some "9" ∧
        entered false kept file = .ok kept) ∧
      ∃ replaced, entered true env file = .ok replaced ∧ replaced.lookup? "A" = some "3" ∧
        replaced.lookup? "B" = some "4" ∧ replaced.lookup? "C" = some "9" ∧
        entered true replaced file = .ok replaced := by
  intro text env file
  have h : Dotenv.hasNull text = false := by decide
  have hpairs : Dotenv.assignments text = [("A", "1"), ("B", "2"), ("A", "3"), ("B", "4")] := by
    decide +kernel
  obtain ⟨kept, hkept, hkeeps, -, hkept'⟩ := entered_settles h false env
  obtain ⟨replaced, hreplaced, hreplaces, -, hreplaced'⟩ := entered_settles h true env
  rw [hpairs] at hkeeps hreplaces
  exact ⟨h, ⟨kept, hkept, hkeeps "A", hkeeps "B", hkeeps "C", hkept'⟩,
    replaced, hreplaced, hreplaces "A", hreplaces "B", hreplaces "C", hreplaced'⟩

end Arguments

end RepoGraph
