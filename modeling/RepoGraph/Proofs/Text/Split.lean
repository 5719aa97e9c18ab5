import Mathlib.Data.List.Infix
import Mathlib.Data.List.TakeWhile
import RepoGraph.Text.Split

/-!
# Pieces of texts

The pieces of a text that is put together are those of its parts: a separator between two parts
keeps their pieces apart (`splitOn_append_cons`), and a part without a separator belongs to the
first piece of what follows (`splitOn_append_of_notMem`). So pieces without separators are found
again in the text that they are joined to (`splitOn_joinWith`), and a word without separators stands
in a text where it stands in one of the pieces (`infix_iff_exists_mem_splitOn`). Cut at its last
separator, a text falls into what `beforeLast?` and `afterLast` give (`beforeLast?_append_cons`,
`afterLast_append_cons`).
-/

namespace RepoGraph.Text

variable {sep : Char}

/-- The pieces of a text that begins with another character than the separator. -/
theorem splitOn_cons_of_ne {c : Char} (h : c ≠ sep) (s : List Char) :
    splitOn sep (c :: s) = (splitOn sep s).modifyHead (c :: ·) := by
  rw [splitOn, if_neg h]
  cases hs : splitOn sep s with
  | nil => exact absurd hs (splitOn_ne_nil sep s)
  | cons piece pieces => rfl

/-- The separator at the front of a text comes after an empty piece. -/
theorem splitOn_cons_self (s : List Char) : splitOn sep (sep :: s) = [] :: splitOn sep s := by
  rw [splitOn, if_pos rfl]

/-- A separator keeps the pieces of two texts apart. -/
theorem splitOn_append_cons (s t : List Char) :
    splitOn sep (s ++ sep :: t) = splitOn sep s ++ splitOn sep t := by
  induction s with
  | nil => exact splitOn_cons_self t
  | cons c s ih =>
    by_cases hc : c = sep
    · subst hc
      rw [List.cons_append, splitOn_cons_self, splitOn_cons_self, ih, List.cons_append]
    · rw [List.cons_append, splitOn_cons_of_ne hc, splitOn_cons_of_ne hc, ih]
      cases hs : splitOn sep s with
      | nil => exact absurd hs (splitOn_ne_nil sep s)
      | cons piece pieces => rfl

/-- What stands before the first separator belongs to the first piece. -/
theorem splitOn_append_of_notMem {w : List Char} (h : sep ∉ w) (s : List Char) :
    splitOn sep (w ++ s) = (splitOn sep s).modifyHead (w ++ ·) := by
  induction w with
  | nil =>
    rw [List.nil_append]
    cases splitOn sep s with
    | nil => rfl
    | cons piece pieces => rfl
  | cons c w ih =>
    have hc : c ≠ sep := fun heq => h (heq ▸ List.mem_cons_self)
    have hw : sep ∉ w := fun hmem => h (List.mem_cons_of_mem c hmem)
    rw [List.cons_append, splitOn_cons_of_ne hc, ih hw, List.modifyHead_modifyHead]
    rfl

/-- Pieces after pieces are joined after them. -/
theorem joinWith_append {xs ys : List (List Char)} (hxs : xs ≠ []) (hys : ys ≠ []) :
    joinWith sep (xs ++ ys) = joinWith sep xs ++ sep :: joinWith sep ys := by
  induction xs with
  | nil => exact absurd rfl hxs
  | cons x xs ih =>
    cases xs with
    | nil =>
      cases ys with
      | nil => exact absurd rfl hys
      | cons y ys => rfl
    | cons x' xs =>
      show x ++ sep :: joinWith sep (x' :: xs ++ ys) = x ++ sep :: joinWith sep (x' :: xs) ++ _
      rw [ih (List.cons_ne_nil _ _), List.append_assoc, List.cons_append]

/-- No piece has a separator in it. -/
theorem notMem_of_mem_splitOn {s piece : List Char} (h : piece ∈ splitOn sep s) : sep ∉ piece := by
  induction s generalizing piece with
  | nil =>
    rw [splitOn, List.mem_singleton] at h
    rw [h]
    exact List.not_mem_nil
  | cons c s ih =>
    by_cases hc : c = sep
    · rw [hc, splitOn_cons_self, List.mem_cons] at h
      rcases h with rfl | h
      · exact List.not_mem_nil
      · exact ih h
    · rw [splitOn_cons_of_ne hc] at h
      cases hs : splitOn sep s with
      | nil => exact absurd hs (splitOn_ne_nil sep s)
      | cons first pieces =>
        rw [hs, List.modifyHead_cons, List.mem_cons] at h
        rcases h with rfl | h
        · have hfirst : sep ∉ first := ih (hs ▸ List.mem_cons_self)
          simpa [Ne.symm hc] using hfirst
        · exact ih (hs ▸ List.mem_cons_of_mem first h)

/-- A text without separators is the only piece of itself. -/
theorem splitOn_of_notMem {w : List Char} (h : sep ∉ w) : splitOn sep w = [w] := by
  have happend := splitOn_append_of_notMem h []
  rw [List.append_nil] at happend
  rw [happend, splitOn, List.modifyHead_cons, List.append_nil]

/-- Pieces without separators are those of the text that they are joined to. -/
theorem splitOn_joinWith {pieces : List (List Char)} (hne : pieces ≠ [])
    (h : ∀ piece ∈ pieces, sep ∉ piece) : splitOn sep (joinWith sep pieces) = pieces := by
  induction pieces with
  | nil => exact absurd rfl hne
  | cons piece pieces ih =>
    rw [List.forall_mem_cons] at h
    cases pieces with
    | nil => exact splitOn_of_notMem h.1
    | cons next pieces =>
      rw [joinWith, splitOn_append_cons, splitOn_of_notMem h.1, ih (List.cons_ne_nil _ _) h.2,
        List.singleton_append]
      exact List.cons_ne_nil _ _

/-- Pieces are joined to no text at all only if there are none but an empty one. -/
theorem joinWith_ne_nil {pieces : List (List Char)} (hne : pieces ≠ [])
    (h : ∀ piece ∈ pieces, piece ≠ []) : joinWith sep pieces ≠ [] := by
  cases pieces with
  | nil => exact absurd rfl hne
  | cons piece pieces =>
    have hpiece := h piece List.mem_cons_self
    cases pieces with
    | nil => exact hpiece
    | cons next pieces => simp [joinWith]

/-- A character of what is joined is the separator, or stands in a piece. -/
theorem mem_joinWith {c : Char} {pieces : List (List Char)} (h : c ∈ joinWith sep pieces) :
    c = sep ∨ ∃ piece ∈ pieces, c ∈ piece := by
  fun_induction joinWith sep pieces with
  | case1 => cases h
  | case2 piece => exact .inr ⟨piece, List.mem_singleton_self piece, h⟩
  | case3 piece pieces hne ih =>
    rcases List.mem_append.mp h with h | h
    · exact .inr ⟨piece, List.mem_cons_self, h⟩
    · rcases List.mem_cons.mp h with rfl | h
      · exact .inl rfl
      · obtain hsep | ⟨later, hlater, hc⟩ := ih h
        · exact .inl hsep
        · exact .inr ⟨later, List.mem_cons_of_mem _ hlater, hc⟩

/-! ## Words without separators -/

section Words

variable {w s t : List Char}

/-- A word without separators at the front of a text ends before the first one. -/
theorem prefix_append_cons_iff (h : sep ∉ w) : w <+: s ++ sep :: t ↔ w <+: s := by
  constructor
  · intro hw
    have hs : s ++ [sep] <+: s ++ sep :: t :=
      (List.prefix_append_right_inj s).mpr (List.cons_prefix_cons.mpr ⟨rfl, List.nil_prefix⟩)
    rcases List.prefix_or_prefix_of_prefix hw hs with hshort | hlong
    · rcases List.prefix_concat_iff.mp hshort with rfl | hbefore
      · exact absurd (by simp) h
      · exact hbefore
    · exact absurd (hlong.subset (by simp)) h
  · intro hw
    exact hw.trans (List.prefix_append s _)

/-- A word without separators at the end of a text begins after the last one. -/
theorem suffix_append_cons_iff (h : sep ∉ w) : w <:+ s ++ sep :: t ↔ w <:+ t := by
  constructor
  · intro hw
    rcases List.suffix_or_suffix_of_suffix hw (List.suffix_append s (sep :: t)) with hshort | hlong
    · rcases List.suffix_cons_iff.mp hshort with rfl | hafter
      · exact absurd List.mem_cons_self h
      · exact hafter
    · exact absurd (hlong.subset List.mem_cons_self) h
  · intro hw
    have ht : t <:+ s ++ sep :: t := (List.suffix_cons sep t).trans (List.suffix_append s _)
    exact hw.trans ht

/-- A word without separators stands before a separator or after it. -/
theorem infix_append_cons_iff (h : sep ∉ w) : w <:+: s ++ sep :: t ↔ w <:+: s ∨ w <:+: t := by
  induction s with
  | nil =>
    rw [List.nil_append, List.infix_cons_iff, List.infix_nil, ← List.nil_append (sep :: t),
      prefix_append_cons_iff h, List.prefix_nil]
  | cons c s ih =>
    rw [List.cons_append, List.infix_cons_iff, ← List.cons_append, prefix_append_cons_iff h, ih,
      List.infix_cons_iff, or_assoc]

/-- A word without separators stands in a piece of what is joined. -/
theorem infix_joinWith_iff {pieces : List (List Char)} (hne : pieces ≠ []) (h : sep ∉ w) :
    w <:+: joinWith sep pieces ↔ ∃ piece ∈ pieces, w <:+: piece := by
  induction pieces with
  | nil => exact absurd rfl hne
  | cons piece pieces ih =>
    rw [List.exists_mem_cons_iff]
    cases pieces with
    | nil => simp [joinWith]
    | cons next pieces =>
      rw [joinWith, infix_append_cons_iff h, ih (List.cons_ne_nil _ _)]
      exact List.cons_ne_nil _ _

/-- A word without separators stands in a text where it stands in one of the pieces. -/
theorem infix_iff_exists_mem_splitOn (h : sep ∉ w) :
    w <:+: s ↔ ∃ piece ∈ splitOn sep s, w <:+: piece := by
  rw [← infix_joinWith_iff (splitOn_ne_nil sep s) h, joinWith_splitOn]

end Words
/-! ## The last separator -/

/-- A text with a separator falls into what comes before the last one and what comes after it. -/
theorem exists_eq_append_cons_of_mem {s : List Char} (h : sep ∈ s) :
    ∃ before after, s = before ++ sep :: after ∧ sep ∉ after := by
  obtain ⟨after, before, heq, hafter⟩ := List.eq_append_cons_of_mem (List.mem_reverse.mpr h)
  refine ⟨before.reverse, after.reverse, ?_, fun hmem => hafter (List.mem_reverse.mp hmem)⟩
  rw [← s.reverse_reverse, heq]
  simp

/-- What is taken up to the first separator ends before it. -/
theorem takeWhile_append_cons {s : List Char} (h : sep ∉ s) (t : List Char) :
    (s ++ sep :: t).takeWhile (· != sep) = s := by
  rw [List.takeWhile_append_of_pos fun c hc => ?_]
  · simp
  · have hne : c ≠ sep := fun heq => h (heq ▸ hc)
    simpa using hne

/-- The first separator cuts a text in two. -/
theorem cut?_append_cons {s : List Char} (h : sep ∉ s) (t : List Char) :
    cut? sep (s ++ sep :: t) = some (s, t) := by
  induction s with
  | nil => rw [List.nil_append, cut?, if_pos rfl]
  | cons c s ih =>
    obtain ⟨hc, hs⟩ := not_or.mp fun hmem => h (List.mem_cons.mpr hmem)
    rw [List.cons_append, cut?, if_neg (Ne.symm hc), ih hs]
    rfl

/-- A text without separators is not cut. -/
theorem cut?_of_notMem {s : List Char} (h : sep ∉ s) : cut? sep s = none := by
  induction s with
  | nil => rfl
  | cons c s ih =>
    obtain ⟨hc, hs⟩ := not_or.mp fun hmem => h (List.mem_cons.mpr hmem)
    rw [cut?, if_neg (Ne.symm hc), ih hs]
    rfl

/-- What comes after the last separator. -/
theorem afterLast_append_cons {t : List Char} (h : sep ∉ t) (s : List Char) :
    afterLast sep (s ++ sep :: t) = t := by
  have hreverse : (s ++ sep :: t).reverse = t.reverse ++ sep :: s.reverse := by simp
  have ht : sep ∉ t.reverse := fun hmem => h (List.mem_reverse.mp hmem)
  rw [afterLast, hreverse, takeWhile_append_cons ht, List.reverse_reverse]

/-- What comes before the last separator. -/
theorem beforeLast?_append_cons {t : List Char} (h : sep ∉ t) (s : List Char) :
    beforeLast? sep (s ++ sep :: t) = some s := by
  have hreverse : (s ++ sep :: t).reverse = t.reverse ++ sep :: s.reverse := by simp
  have ht : sep ∉ t.reverse := fun hmem => h (List.mem_reverse.mp hmem)
  rw [beforeLast?, hreverse, cut?_append_cons ht, Option.map_some, List.reverse_reverse]

/-- All of a text without separators comes after the last one. -/
theorem afterLast_of_notMem {s : List Char} (h : sep ∉ s) : afterLast sep s = s := by
  have hs : ∀ c ∈ s.reverse, (c != sep) = true := by
    intro c hc
    have hne : c ≠ sep := fun heq => h (heq ▸ List.mem_reverse.mp hc)
    simpa using hne
  rw [afterLast, List.takeWhile_eq_self_iff.mpr hs, List.reverse_reverse]

/-- Nothing comes before the last separator of a text without any. -/
theorem beforeLast?_of_notMem {s : List Char} (h : sep ∉ s) : beforeLast? sep s = none := by
  rw [beforeLast?, cut?_of_notMem fun hmem => h (List.mem_reverse.mp hmem)]
  rfl

/-- A text falls into what comes before the first separator, and the rest, which begins with it if
it is not empty. -/
theorem exists_eq_before_append (sep : Char) (s : List Char) :
    ∃ rest, s = before sep s ++ rest ∧ sep ∉ before sep s ∧ ∀ c ∈ rest.head?, c = sep := by
  refine ⟨s.dropWhile (· != sep), List.takeWhile_append_dropWhile.symm, fun hmem => ?_,
    fun c hc => ?_⟩
  · simpa using List.mem_takeWhile_imp hmem
  · have hstop := List.head?_dropWhile_not (· != sep) s
    rw [Option.mem_def.mp hc] at hstop
    simpa using hstop

/-- What comes before the first separator of a text that begins with it, or is empty. -/
theorem before_append {s t : List Char} (h : sep ∉ s) (ht : ∀ c ∈ t.head?, c = sep) :
    before sep (s ++ t) = s := by
  cases t with
  | nil =>
    rw [List.append_nil, before, List.takeWhile_eq_self_iff]
    exact fun c hc => bne_iff_ne.mpr fun heq => h (heq ▸ hc)
  | cons c cs => rw [ht c rfl, before, takeWhile_append_cons h]

/-- A text is cut where it has a separator. -/
theorem cut?_eq_some_iff {s front back : List Char} :
    cut? sep s = some (front, back) ↔ s = front ++ sep :: back ∧ sep ∉ front := by
  constructor
  · intro h
    by_cases hmem : sep ∈ s
    · obtain ⟨a, b, rfl, ha⟩ := List.eq_append_cons_of_mem hmem
      rw [cut?_append_cons ha] at h
      cases h
      exact ⟨rfl, ha⟩
    · rw [cut?_of_notMem hmem] at h
      cases h
  · rintro ⟨rfl, hfront⟩
    exact cut?_append_cons hfront back

/-- What comes after a text that ends with the separator, or is empty. -/
theorem afterLast_append {s t : List Char} (h : sep ∉ t) (hs : ∀ c ∈ s.getLast?, c = sep) :
    afterLast sep (s ++ t) = t := by
  rcases List.eq_nil_or_concat' s with rfl | ⟨s, c, rfl⟩
  · rw [List.nil_append, afterLast_of_notMem h]
  · have hc : c = sep := hs c (by rw [List.getLast?_concat]; rfl)
    rw [hc, List.append_assoc, List.singleton_append, afterLast_append_cons h]

/-- A text falls into what comes up to the last separator, if there is one, and the rest. -/
theorem exists_eq_append_afterLast (sep : Char) (s : List Char) :
    ∃ front, s = front ++ afterLast sep s ∧ sep ∉ afterLast sep s ∧
      ∀ c ∈ front.getLast?, c = sep := by
  by_cases h : sep ∈ s
  · obtain ⟨front, back, rfl, hback⟩ := exists_eq_append_cons_of_mem h
    rw [afterLast_append_cons hback]
    exact ⟨front ++ [sep], by simp, hback, by simp⟩
  · rw [afterLast_of_notMem h]
    exact ⟨[], rfl, h, nofun⟩

/-! ## Endings -/

/-- The word at the end of a text is dropped. -/
theorem dropSuffix_append (word s : List Char) : dropSuffix word (s ++ word) = s := by
  rw [dropSuffix, List.reverse_append, after?_append, Option.map_some, Option.getD_some,
    List.reverse_reverse]

/-- A text that does not end with the word stays as it is. -/
theorem dropSuffix_of_not_suffix {word s : List Char} (h : ¬word <:+ s) :
    dropSuffix word s = s := by
  unfold dropSuffix
  cases hafter : after? word.reverse s.reverse with
  | none => rfl
  | some rest =>
    have hbegins : word.reverse <+: s.reverse := ⟨rest, (eq_append_of_after? hafter).symm⟩
    exact absurd (List.reverse_prefix.mp hbegins) h

/-- What is left of a text stands at its front. -/
theorem dropSuffix_isPrefix (word s : List Char) : dropSuffix word s <+: s := by
  by_cases h : word <:+ s
  · obtain ⟨front, rfl⟩ := h
    rw [dropSuffix_append]
    exact List.prefix_append _ _
  · rw [dropSuffix_of_not_suffix h]

end RepoGraph.Text
