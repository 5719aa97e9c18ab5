import RepoGraph.Proofs.Reference.Pattern

/-!
# Searching a whole text

What `Pattern.findFrom` finds in a text is known from single steps: it goes one character on where
the pattern does not apply (`findFrom_cons_of_none`), and past the statement where it does
(`findFrom_of_recognise`). From these two follows what is found when the pattern does not apply
anywhere in the beginning of a text (`findAll_append_of_none`). All that is found is recognised at
the front of some end of the text (`exists_suffix_of_mem_findFrom`).

A pattern for whole lines waits for the next line feed (`findFrom_false_append`). If all that it
recognises in the first lines of a text lies in these lines, then it finds in the text what it finds
in these lines and what it finds in the rest (`findFrom_append_of_within`).
-/

namespace RepoGraph

/-- The text holds no white space. -/
def IsSolid (s : List Char) : Prop := ∀ c ∈ s, Text.isBlank c = false

instance (s : List Char) : Decidable (IsSolid s) :=
  List.decidableBAll (fun c => Text.isBlank c = false) s

namespace Pattern

variable {p : Pattern} {fresh : Bool} {c : Char} {s pre line tail rest cs specifier : List Char}

/-! ## Single steps -/

/-- Where the pattern does not apply the search goes one character on. -/
theorem findFrom_cons_of_none
    (h : (fresh || !p.atLineStart) = true → p.recognise (c :: cs) = none) :
    p.findFrom fresh (c :: cs) = p.findFrom (c == '\n') cs := by
  have hnone : (if fresh || !p.atLineStart then p.recognise (c :: cs) else none) = none := by
    split
    · rename_i hready
      exact h hready
    · rfl
  rw [findFrom, hnone]

/-- Where the pattern applies the search goes on after the statement. -/
theorem findFrom_of_recognise (hready : (fresh || !p.atLineStart) = true)
    (h : p.recognise s = some (specifier, rest)) (hlt : rest.length < s.length) :
    p.findFrom fresh s = specifier :: p.findFrom false rest := by
  cases s with
  | nil => exact absurd hlt (Nat.not_lt_zero _)
  | cons c cs =>
    rw [findFrom, if_pos hready, h]
    exact congrArg (specifier :: ·) (if_pos (Nat.le_of_lt_succ hlt))

/-- What is found in a text is recognised at the front of one of its ends, if the search goes on
with an end of the text after each statement. -/
theorem exists_suffix_of_mem_findFrom
    (hp : ∀ s found, p.recognise s = some found → found.2 <:+ s)
    (h : specifier ∈ p.findFrom fresh s) :
    ∃ s' rest, s' <:+ s ∧ p.recognise s' = some (specifier, rest) := by
  fun_induction p.findFrom fresh s with
  | case1 => cases h
  | case2 fresh c cs specifier' rest' hmatch ih =>
    have hfound : p.recognise (c :: cs) = some (specifier', rest') := by
      split at hmatch
      · exact hmatch
      · cases hmatch
    rcases List.mem_cons.mp h with rfl | h
    · exact ⟨c :: cs, rest', List.suffix_rfl, hfound⟩
    · split at h
      · rename_i hle
        obtain ⟨s', rest, hsuffix, hfound'⟩ := ih hle h
        exact ⟨s', rest, hsuffix.trans (hp _ _ hfound), hfound'⟩
      · cases h
  | case3 fresh c cs hmatch ih =>
    obtain ⟨s', rest, hsuffix, hfound⟩ := ih h
    exact ⟨s', rest, hsuffix.trans (List.suffix_cons c cs), hfound⟩

/-! ## Patterns that apply anywhere -/

section

variable (hp : p.atLineStart = false)

include hp

/-- It does not matter whether the search begins at the beginning of a line. -/
theorem findFrom_eq_findAll (fresh : Bool) (s : List Char) : p.findFrom fresh s = p.findAll s := by
  cases s with
  | nil => rw [findAll, findFrom, findFrom]
  | cons c cs =>
    rw [findAll, findFrom, findFrom]
    simp only [hp, Bool.not_false, Bool.or_true]

/-- The beginning of a text is passed over if the pattern applies nowhere in it. -/
theorem findAll_append_of_none
    (h : ∀ pre', pre' ≠ [] → pre' <:+ pre → p.recognise (pre' ++ tail) = none) :
    p.findAll (pre ++ tail) = p.findAll tail := by
  induction pre with
  | nil => rfl
  | cons c pre ih =>
    have hnone : p.recognise (c :: (pre ++ tail)) = none :=
      h (c :: pre) (List.cons_ne_nil c pre) List.suffix_rfl
    rw [List.cons_append, findAll, findFrom_cons_of_none fun _ => hnone, findFrom_eq_findAll hp]
    exact ih fun pre' hne hsuffix => h pre' hne (hsuffix.trans (List.suffix_cons c pre))

end

/-! ## Patterns for whole lines -/

section

variable (hp : p.atLineStart = true)

include hp

/-- Within a line the search goes to the end of the line. -/
theorem findFrom_false_append (h : '\n' ∉ pre) :
    p.findFrom false (pre ++ tail) = p.findFrom false tail := by
  have hready : ¬(false || !p.atLineStart) = true := by simp [hp]
  induction pre with
  | nil => rfl
  | cons c pre ih =>
    obtain ⟨hc, hpre⟩ := not_or.mp fun hmem => h (List.mem_cons.mpr hmem)
    have hfeed : (c == '\n') = false := beq_false_of_ne (Ne.symm hc)
    rw [List.cons_append, findFrom_cons_of_none fun habsurd => absurd habsurd hready, hfeed,
      ih hpre]

end

/-- An end of the text which begins a line, if the text itself does where `fresh` is set. -/
def BeginsLine (fresh : Bool) (s line : List Char) : Prop :=
  fresh = true ∧ line = s ∨ ∃ before, s = before ++ '\n' :: line

/-- What begins a line after a character begins one with it. -/
theorem BeginsLine.cons (h : BeginsLine (c == '\n') s line) : BeginsLine fresh (c :: s) line := by
  rcases h with ⟨hc, rfl⟩ | ⟨before, rfl⟩
  · exact .inr ⟨[], by rw [eq_of_beq hc, List.nil_append]⟩
  · exact .inr ⟨c :: before, rfl⟩

/-- What begins a line further on in an end of a text begins one in the text. -/
theorem BeginsLine.of_suffix (h : BeginsLine false rest line) (hsuffix : rest <:+ s) :
    BeginsLine fresh s line := by
  obtain ⟨front, rfl⟩ := hsuffix
  rcases h with ⟨hfalse, -⟩ | ⟨before, rfl⟩
  · cases hfalse
  · exact .inr ⟨front ++ before, (List.append_assoc front before _).symm⟩

/-- What begins a line in whole lines has whole lines before it. -/
theorem BeginsLine.exists_endsLine (h : BeginsLine fresh s line) :
    ∃ before, EndsLine before ∧ s = before ++ line := by
  rcases h with ⟨-, rfl⟩ | ⟨before, rfl⟩
  · exact ⟨[], .inl rfl, rfl⟩
  · exact ⟨before ++ ['\n'], .inr ⟨before, rfl⟩, List.append_cons before '\n' line⟩

/-- The pattern recognises in the first lines of a text what it recognises in these lines alone. -/
def Within (p : Pattern) (tail line : List Char) : Prop :=
  p.recognise (line ++ tail) = (p.recognise line).map fun found => (found.1, found.2 ++ tail)

/-- In whole lines and a text after them a pattern for lines finds what it finds in each of the two,
if it recognises nothing that begins in the lines and does not end there. -/
theorem findFrom_append_of_within (hp : p.atLineStart = true)
    (hends : ∀ line found, EndsLine line → p.recognise line = some found →
      found.2 ≠ [] ∧ found.2 <:+ line ∧ found.2.length < line.length)
    (hpre : EndsLine pre) (hfresh : pre = [] → fresh = true)
    (hwithin : ∀ line, line ≠ [] → BeginsLine fresh pre line → p.Within tail line) :
    p.findFrom fresh (pre ++ tail) = p.findFrom fresh pre ++ p.findFrom true tail := by
  -- The search goes on with ever shorter ends of `pre`, and none but the first is empty.
  induction hlength : pre.length using Nat.strong_induction_on generalizing pre fresh with
  | _ n ih =>
    subst hlength
    cases pre with
    | nil => rw [hfresh rfl, findFrom, List.nil_append, List.nil_append]
    | cons c pre =>
      have hrest : EndsLine pre := hpre.of_suffix (List.suffix_cons c pre)
      have hnext : p.findFrom (c == '\n') (pre ++ tail) =
          p.findFrom (c == '\n') pre ++ p.findFrom true tail := by
        refine ih pre.length (by simp) hrest (fun hnil => ?_)
          (fun line hne hline => hwithin line hne hline.cons) rfl
        obtain ⟨line, hline⟩ := hpre.exists_eq_append (List.cons_ne_nil c pre)
        subst hnil
        have hlast := congrArg List.getLast? hline
        rw [List.getLast?_singleton, List.getLast?_concat] at hlast
        exact beq_iff_eq.mpr (Option.some.inj hlast)
      by_cases hready : (fresh || !p.atLineStart) = true
      · have hbegins : BeginsLine fresh (c :: pre) (c :: pre) :=
          .inl ⟨by simpa [hp] using hready, rfl⟩
        have hhere := hwithin (c :: pre) (List.cons_ne_nil c pre) hbegins
        cases hmatch : p.recognise (c :: pre) with
        | none =>
          rw [Within, hmatch, List.cons_append, Option.map_none] at hhere
          rw [List.cons_append, findFrom_cons_of_none fun _ => hhere,
            findFrom_cons_of_none fun _ => hmatch, hnext]
        | some found =>
          obtain ⟨hne, hsuffix, hlt⟩ := hends (c :: pre) found hpre hmatch
          rw [Within, hmatch, Option.map_some] at hhere
          have hlonger : (found.2 ++ tail).length < (c :: pre ++ tail).length := by
            simp only [List.length_append]
            omega
          rw [findFrom_of_recognise hready hhere hlonger, findFrom_of_recognise hready hmatch hlt,
            ih found.2.length hlt (hpre.of_suffix hsuffix) (fun hnil => absurd hnil hne)
              (fun line hne hline => hwithin line hne (hline.of_suffix hsuffix)) rfl,
            List.cons_append]
      · rw [List.cons_append, findFrom_cons_of_none fun habsurd => absurd habsurd hready,
          findFrom_cons_of_none fun habsurd => absurd habsurd hready, hnext]

end Pattern

end RepoGraph
