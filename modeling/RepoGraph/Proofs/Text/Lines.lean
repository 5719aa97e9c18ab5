import RepoGraph.Proofs.Text.Split
import RepoGraph.Text.Lines

/-!
# Lines of texts

A text has the same lines once its carriage returns are made line feeds (`lines_unifyLineEnds`), and
the characters of a line are those of the text that end none (`mem_of_mem_lines`). An editor ends
lines at line feeds and carriage returns alone (`editorLines`). Its first lines are those that
`lines` finds as long as nothing else ends one of them (`take_lines_eq_take_editorLines`).
-/

namespace RepoGraph.Text

variable {c : Char} {s : List Char}

/-- A line end ends the first line of a text; a line feed after a carriage return belongs to it. -/
theorem lines_cons_of_isLineEnd (hc : isLineEnd c = true) (h : c = '\r' → s.head? ≠ some '\n') :
    lines (c :: s) = [] :: lines s := by
  rw [lines]
  · rw [if_pos hc]
  · rintro rest rfl rfl
    exact h rfl rfl

/-- A line feed ends the first line of a text. -/
theorem lines_cons_lineFeed (s : List Char) : lines ('\n' :: s) = [] :: lines s :=
  lines_cons_of_isLineEnd (by decide) fun h => absurd h (by decide)

/-- The lines of a text with a character in front that ends none. -/
def consFirst (c : Char) : List (List Char) → List (List Char)
  | [] => [[c]]
  | line :: rest => (c :: line) :: rest

/-- A character that ends no line stands in the first line of the text. -/
theorem lines_cons_of_not_isLineEnd (hc : isLineEnd c = false) (s : List Char) :
    lines (c :: s) = consFirst c (lines s) := by
  rw [lines]
  · rw [if_neg (Bool.eq_false_iff.mp hc)]
    cases lines s <;> rfl
  · rintro rest rfl rfl
    cases hc

/-- The first line with a character in front is the first of the first lines. -/
theorem take_succ_consFirst (n : Nat) (ls : List (List Char)) :
    (consFirst c ls).take (n + 1) = consFirst c (ls.take (n + 1)) := by
  cases ls with
  | nil => rw [List.take_nil, consFirst, List.take_succ_cons, List.take_nil]
  | cons line rest => rfl

/-- What holds of the characters of the lines holds of the character in front and of the others. -/
theorem of_forall_mem_consFirst {p : Char → Prop} {ls : List (List Char)}
    (h : ∀ line ∈ consFirst c ls, ∀ d ∈ line, p d) : p c ∧ ∀ line ∈ ls, ∀ d ∈ line, p d := by
  cases ls with
  | nil => exact ⟨h [c] List.mem_cons_self c List.mem_cons_self, nofun⟩
  | cons line rest =>
    obtain ⟨hfirst, hrest⟩ := List.forall_mem_cons.mp h
    obtain ⟨hc, hline⟩ := List.forall_mem_cons.mp hfirst
    exact ⟨hc, List.forall_mem_cons.mpr ⟨hline, hrest⟩⟩

/-- A text has the same lines once its carriage returns are made line feeds. -/
theorem lines_unifyLineEnds (s : List Char) : lines (unifyLineEnds s) = lines s := by
  fun_induction unifyLineEnds s with
  | case1 => rfl
  | case2 cs ih => rw [lines_cons_lineFeed, ih, lines]
  | case3 c cs hpair ih =>
    have hhead : c = '\r' → cs.head? ≠ some '\n' := by
      rintro rfl hhead
      obtain ⟨rest, rfl⟩ := List.head?_eq_some_iff.mp hhead
      exact hpair rest rfl rfl
    cases hc : isLineEnd c with
    | false =>
      have hreturn : c ≠ '\r' := by
        rintro rfl
        cases hc
      rw [if_neg hreturn, lines_cons_of_not_isLineEnd hc, lines_cons_of_not_isLineEnd hc, ih]
    | true =>
      rw [lines_cons_of_isLineEnd hc hhead, ← ih]
      split
      · exact lines_cons_lineFeed _
      · rename_i hreturn
        exact lines_cons_of_isLineEnd hc fun h => absurd h hreturn

/-- The characters of a line are characters of the text that end no line. -/
theorem mem_of_mem_lines {line : List Char} (hline : line ∈ lines s) (hc : c ∈ line) :
    c ∈ s ∧ isLineEnd c = false := by
  fun_induction lines s generalizing line with
  | case1 => cases hline
  | case2 cs ih =>
    rcases List.mem_cons.mp hline with rfl | hline
    · cases hc
    · exact (ih hline hc).imp_left fun h => List.mem_cons_of_mem _ (List.mem_cons_of_mem _ h)
  | case3 d cs hpair hd ih =>
    rcases List.mem_cons.mp hline with rfl | hline
    · cases hc
    · exact (ih hline hc).imp_left (List.mem_cons_of_mem _)
  | case4 d cs hpair hd hnil ih =>
    obtain rfl := List.mem_singleton.mp hline
    obtain rfl := List.mem_singleton.mp hc
    exact ⟨List.mem_cons_self, Bool.eq_false_iff.mpr hd⟩
  | case5 d cs hpair hd first rest hcons ih =>
    rw [hcons] at ih
    rcases List.mem_cons.mp hline with rfl | hline
    · rcases List.mem_cons.mp hc with rfl | hc
      · exact ⟨List.mem_cons_self, Bool.eq_false_iff.mpr hd⟩
      · exact (ih List.mem_cons_self hc).imp_left (List.mem_cons_of_mem _)
    · exact (ih (List.mem_cons_of_mem _ hline) hc).imp_left (List.mem_cons_of_mem _)

/-- There are no carriage returns left. -/
theorem return_notMem_unifyLineEnds (s : List Char) : '\r' ∉ unifyLineEnds s := by
  fun_induction unifyLineEnds s with
  | case1 => exact List.not_mem_nil
  | case2 cs ih => exact List.not_mem_cons_of_ne_of_not_mem (by decide) ih
  | case3 c cs hpair ih =>
    refine List.not_mem_cons_of_ne_of_not_mem ?_ ih
    split
    · decide
    · rename_i hc
      exact Ne.symm hc

/-! ## Lines of an editor -/

/-- The pieces without an empty one at the end. -/
def dropEmptyLast (pieces : List (List Char)) : List (List Char) :=
  if pieces.getLast? = some [] then pieces.dropLast else pieces

/-- The lines of a text in an editor: what stands between its line feeds, between its carriage
returns, or between the pairs of both. A line end at the end of the text starts no further line. -/
def editorLines (s : List Char) : List (List Char) :=
  dropEmptyLast (splitOn '\n' (unifyLineEnds s))

/-- A piece in front of others stays. -/
theorem dropEmptyLast_cons {pieces : List (List Char)} (h : pieces ≠ []) (piece : List Char) :
    dropEmptyLast (piece :: pieces) = piece :: dropEmptyLast pieces := by
  unfold dropEmptyLast
  rw [List.getLast?_cons_of_ne_nil h, List.dropLast_cons_of_ne_nil h]
  split <;> rfl

/-- The pieces that stay are among all. -/
theorem dropEmptyLast_subset (pieces : List (List Char)) : dropEmptyLast pieces ⊆ pieces := by
  unfold dropEmptyLast
  split
  · exact List.dropLast_subset pieces
  · exact List.Subset.refl pieces

/-- There is no line feed in a line of an editor. -/
theorem lineFeed_notMem_of_mem_editorLines {line : List Char} (h : line ∈ editorLines s) :
    '\n' ∉ line :=
  notMem_of_mem_splitOn (dropEmptyLast_subset _ h)

/-- A line feed ends the first line of a text. -/
theorem dropEmptyLast_splitOn_cons_self (s : List Char) :
    dropEmptyLast (splitOn '\n' ('\n' :: s)) = [] :: dropEmptyLast (splitOn '\n' s) := by
  rw [splitOn_cons_self, dropEmptyLast_cons (splitOn_ne_nil _ _)]

/-- Another character stands in the first line. -/
theorem dropEmptyLast_splitOn_cons_of_ne (hc : c ≠ '\n') (s : List Char) :
    dropEmptyLast (splitOn '\n' (c :: s)) = consFirst c (dropEmptyLast (splitOn '\n' s)) := by
  rw [splitOn_cons_of_ne hc]
  match hpieces : splitOn '\n' s with
  | [] => exact absurd hpieces (splitOn_ne_nil _ s)
  | [[]] => rfl
  | [d :: piece] => rfl
  | piece :: next :: pieces =>
    rw [List.modifyHead_cons, dropEmptyLast_cons (List.cons_ne_nil _ _),
      dropEmptyLast_cons (List.cons_ne_nil _ _)]
    rfl

/-- As long as no other character ends a line, the lines are what stands between line feeds. -/
theorem take_lines_eq_take_splitOn {n : Nat} (hreturn : '\r' ∉ s)
    (h : ∀ line ∈ (dropEmptyLast (splitOn '\n' s)).take n, ∀ c ∈ line, isLineEnd c = false) :
    (lines s).take n = (dropEmptyLast (splitOn '\n' s)).take n := by
  induction s generalizing n with
  | nil => rfl
  | cons c s ih =>
    have hs : '\r' ∉ s := fun hmem => hreturn (List.mem_cons_of_mem c hmem)
    cases n with
    | zero => rfl
    | succ n =>
      by_cases hfeed : c = '\n'
      · subst hfeed
        rw [dropEmptyLast_splitOn_cons_self] at h ⊢
        rw [List.take_succ_cons, List.forall_mem_cons] at h
        rw [lines_cons_lineFeed, List.take_succ_cons, List.take_succ_cons, ih hs h.2]
      · -- The character stands in the first line of the editor, and so it ends none.
        rw [dropEmptyLast_splitOn_cons_of_ne hfeed, take_succ_consFirst] at h ⊢
        obtain ⟨hc, hplain⟩ := of_forall_mem_consFirst h
        rw [lines_cons_of_not_isLineEnd hc, take_succ_consFirst, ih hs hplain]

/-- Among the first lines of an editor, only line feeds and carriage returns end one. -/
def HasPlainEnds (n : Nat) (s : List Char) : Prop :=
  ∀ line ∈ (editorLines s).take n, ∀ c ∈ line, isLineEnd c = false

instance (n : Nat) : Decidable (HasPlainEnds n s) :=
  @List.decidableBAll _ _ (fun line => List.decidableBAll (isLineEnd · = false) line) _

/-- The first lines are those of an editor as long as only line feeds and carriage returns end
one. -/
theorem take_lines_eq_take_editorLines {n : Nat} (h : HasPlainEnds n s) :
    (lines s).take n = (editorLines s).take n := by
  rw [← lines_unifyLineEnds s]
  exact take_lines_eq_take_splitOn (return_notMem_unifyLineEnds s) h

end RepoGraph.Text
