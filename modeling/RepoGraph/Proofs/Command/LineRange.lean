import RepoGraph.Command.LineRange
import RepoGraph.Proofs.Decimal.Reading
import RepoGraph.Proofs.Text.Lines

/-!
# Lines by their numbers

A range of lines is read from its two numbers with a hyphen between them (`parse_pair`), and a
single line from its number (`parse_single`). Nothing is read as a range that is none
(`parse_error_or_ok`).

`LineRange.select` takes the lines whose numbers are in the range (`select_eq`). They are those that
an editor has at these numbers (`LineRange.shown`) as long as only line feeds and carriage returns
end a line up to there. Where another character does, some range goes wrong
(`hasPlainEnds_iff_select_eq_shown`).
-/

namespace RepoGraph.LineRange

open RepoGraph.Text RepoGraph.Decimal

/-! ## Reading ranges -/

/-- What is not read as a range is refused by name, and a range begins with the first line at the
earliest and does not end before it begins. -/
theorem parse_error_or_ok (spec : String) :
    parse spec = .error (.lineRange spec) ∨
      ∃ r, parse spec = .ok r ∧ 1 ≤ r.first ∧ r.first ≤ r.last := by
  unfold parse
  cases parse? spec with
  | none => exact .inl rfl
  | some r => exact .inr ⟨r, rfl, r.one_le_first, r.first_le_last⟩

/-- Two numbers of lines make a range. -/
theorem ofInts?_natCast {m n : Nat} (hm : 1 ≤ m) (hmn : m ≤ n) :
    ofInts? m n = some ⟨m, n, hm, hmn⟩ := by
  unfold ofInts?
  rw [dif_pos (by omega)]
  rfl

/-- There is no hyphen in a number. -/
theorem hyphen_notMem_toDigits (n : Nat) : '-' ∉ Nat.toDigits 10 n := fun h => by
  have hdigit : isDigit '-' = true := Json.isDigit_of_mem_toDigits h
  cases hdigit

/-- A range is read from its first and its last line with a hyphen between them. -/
theorem parse_pair {m n : Nat} (hm : 1 ≤ m) (hmn : m ≤ n) (hfirst : digitCount m ≤ digitLimit)
    (hlast : digitCount n ≤ digitLimit) :
    parse (toString m ++ "-" ++ toString n) = .ok ⟨m, n, hm, hmn⟩ := by
  have hspec : (toString m ++ "-" ++ toString n).toList =
      Nat.toDigits 10 m ++ '-' :: Nat.toDigits 10 n := by
    rw [String.toList_append, String.toList_append, Nat.toString_eq_repr, Nat.toString_eq_repr,
      Nat.toList_repr, Nat.toList_repr, List.append_assoc]
    rfl
  have hparse : parse? (toString m ++ "-" ++ toString n) = some ⟨m, n, hm, hmn⟩ := by
    unfold parse?
    rw [hspec, cut?_append_cons (hyphen_notMem_toDigits m)]
    dsimp only
    rw [readInt?_toDigits hfirst, readInt?_toDigits hlast]
    exact ofInts?_natCast hm hmn
  rw [parse, hparse]

/-- A single line is read from its number. -/
theorem parse_single {n : Nat} (hn : 1 ≤ n) (hcount : digitCount n ≤ digitLimit) :
    parse (toString n) = .ok ⟨n, n, hn, le_rfl⟩ := by
  have hparse : parse? (toString n) = some ⟨n, n, hn, le_rfl⟩ := by
    unfold parse?
    rw [Nat.toString_eq_repr, Nat.toList_repr, cut?_of_notMem (hyphen_notMem_toDigits n)]
    dsimp only
    rw [readInt?_toDigits hcount]
    exact ofInts?_natCast hn le_rfl
  rw [parse, hparse]

/-! ## Lines of a range -/

variable (r : LineRange)

/-- Those of some lines whose numbers are in the range, where the first line has the number one. -/
def numbered (ls : List (List Char)) : List (List Char) :=
  ((ls.zipIdx 1).filter fun line => r.first ≤ line.2 ∧ line.2 ≤ r.last).map Prod.fst

/-- The lines that an editor has in the range, with line feeds between them. -/
def shown (text : String) : String :=
  String.ofList (joinWith '\n' (r.numbered (editorLines text.toList)))

/-- The lines of a range are a part of the text without gaps. -/
theorem numbered_eq (ls : List (List Char)) :
    r.numbered ls = (ls.take r.last).drop (r.first - 1) := by
  obtain ⟨first, last, hone, hle⟩ := r
  -- The same with more lines before the text.
  have hshifted (k : Nat) :
      ((ls.zipIdx (k + 1)).filter fun line => first ≤ line.2 ∧ line.2 ≤ last).map Prod.fst =
        (ls.take (last - k)).drop (first - 1 - k) := by
    induction ls generalizing k with
    | nil => simp
    | cons line ls ih =>
      rw [List.zipIdx_cons, List.filter_cons]
      rcases Nat.lt_or_ge (k + 1) first with hbefore | hfrom
      · have hlast : last - k = last - (k + 1) + 1 := by omega
        have hfirst : first - 1 - k = first - 1 - (k + 1) + 1 := by omega
        rw [if_neg (by simp; omega), ih, hlast, hfirst, List.take_succ_cons, List.drop_succ_cons]
      · have hfirst : first - 1 - k = 0 := by omega
        have hnext : first - 1 - (k + 1) = 0 := by omega
        rcases Nat.lt_or_ge last (k + 1) with hafter | hwithin
        · have hlast : last - k = 0 := by omega
          have hlater : last - (k + 1) = 0 := by omega
          rw [if_neg (by simp; omega), ih, hlast, hlater, List.take_zero, List.take_zero, hfirst,
            hnext]
        · have hlast : last - k = last - (k + 1) + 1 := by omega
          rw [if_pos (by simp; omega), List.map_cons, ih, hlast, hfirst, hnext,
            List.take_succ_cons, List.drop_zero, List.drop_zero]
  exact hshifted 0

/-- The lines whose numbers are in the range are taken. -/
theorem select_eq (text : String) :
    r.select text = String.ofList (joinWith '\n' (r.numbered (lines text.toList))) := by
  rw [numbered_eq]
  rfl

/-- The lines of a range are among the first lines. -/
theorem numbered_take {n : Nat} (h : r.last ≤ n) (ls : List (List Char)) :
    r.numbered (ls.take n) = r.numbered ls := by
  rw [numbered_eq, numbered_eq, List.take_take, Nat.min_eq_left h]

/-- As long as the line ends are plain up to the last line of a range, its lines are taken as an
editor has them. -/
theorem select_eq_shown {text : String} (h : HasPlainEnds r.last text.toList) :
    r.select text = r.shown text := by
  rw [select_eq, ← r.numbered_take le_rfl, take_lines_eq_take_editorLines h,
    r.numbered_take le_rfl]
  rfl

/-- The same lines are taken where each line ends with a line feed. -/
theorem select_unifyLineEnds (text : List Char) :
    r.select (String.ofList (unifyLineEnds text)) = r.select (String.ofList text) := by
  rw [select_eq, select_eq, String.toList_ofList, String.toList_ofList, lines_unifyLineEnds]

/-- A single line stands alone. -/
theorem numbered_single {ls : List (List Char)} {i : Nat} (h : i < ls.length) (hone : 1 ≤ i + 1) :
    (⟨i + 1, i + 1, hone, le_rfl⟩ : LineRange).numbered ls = [ls[i]] := by
  rw [numbered_eq]
  show (ls.take (i + 1)).drop i = _
  rw [List.take_succ_eq_append_getElem h, List.drop_left' (by simp; omega)]

/-- Nothing but line feeds ends a line of what is taken. -/
theorem isLineEnd_of_mem_select {text : String} {c : Char} (h : c ∈ (r.select text).toList)
    (hend : isLineEnd c = true) : c = '\n' := by
  rw [select, String.toList_ofList] at h
  obtain hfeed | ⟨line, hline, hc⟩ := mem_joinWith h
  · exact hfeed
  · have hmem : line ∈ lines text.toList := List.mem_of_mem_take (List.mem_of_mem_drop hline)
    rw [(mem_of_mem_lines hmem hc).2] at hend
    cases hend

/-- Line ends are plain up to a line exactly if the lines of all ranges that go no further are taken
as an editor has them. -/
theorem hasPlainEnds_iff_select_eq_shown (n : Nat) (text : String) :
    HasPlainEnds n text.toList ↔ ∀ r : LineRange, r.last ≤ n → r.select text = r.shown text := by
  constructor
  · intro h r hr
    have hfirst : (editorLines text.toList).take r.last ⊆ (editorLines text.toList).take n :=
      List.take_subset_take_left _ hr
    exact r.select_eq_shown fun line hline => h line (hfirst hline)
  · intro h line hline c hc
    by_contra hend
    rw [Bool.not_eq_false] at hend
    -- A range of this line alone would take the character with it.
    obtain ⟨i, hi, rfl⟩ := List.getElem_of_mem hline
    rw [List.length_take, Nat.lt_min] at hi
    rw [List.getElem_take] at hc
    let single : LineRange := ⟨i + 1, i + 1, Nat.le_add_left 1 i, le_rfl⟩
    have hselected : c ∈ (single.select text).toList := by
      rw [h single hi.1, shown, numbered_single hi.2, String.toList_ofList]
      exact hc
    have hfeed : c = '\n' := single.isLineEnd_of_mem_select hselected hend
    exact lineFeed_notMem_of_mem_editorLines (List.getElem_mem hi.2) (hfeed ▸ hc)

end RepoGraph.LineRange
