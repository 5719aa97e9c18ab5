import Mathlib.Data.List.Find
import Mathlib.Data.String.Basic
import RepoGraph.Path.Role
import RepoGraph.Proofs.Path.Below
import RepoGraph.Proofs.Text.Ascii
import RepoGraph.Proofs.Text.Expression

/-!
# Roles and the ends of paths

A rule for roles applies to a path by the words of its expression (`RoleRule.Applies`): one of them
ends the path, before a line feed at most, or stands anywhere in it. That is what the search for the
expression finds (`RoleRule.fits_iff_applies`). As the words have no slash in them, a rule that
looks at the end applies to a path and to its last segment alike (`RoleRule.applies_base_iff`), and
only the last rule looks at the directories too. So `role_eq_of_rules` gives the role of every path
by the first rule that applies, and then from the role of the last segment.
-/

namespace RepoGraph.Path

open RepoGraph.Text

variable {rule : RoleRule} {path : String} {s t w : List Char}

/-- The text, less one final line feed if it has one. -/
def withoutFinalFeed (s : List Char) : List Char :=
  if s.getLast? = some '\n' then s.dropLast else s

/-- One of the words of the rule ends the path, less one final line feed if it has one, or stands
anywhere in the path if the rule is for any part of it. -/
def RoleRule.Applies (rule : RoleRule) (path : List Char) : Prop :=
  ∃ w ∈ rule.expression.words,
    if rule.atEnd then w.map rule.fold <:+ (withoutFinalFeed path).map rule.fold
    else w.map rule.fold <:+: path.map rule.fold

/-- The name of files of the environment is in the name of a directory of the path. -/
def HasEnvironmentDirectory (path : String) : Prop :=
  ∃ d ∈ (segments path).dropLast, ".env".toList <:+: d.toList

instance (path : String) : Decidable (HasEnvironmentDirectory path) :=
  inferInstanceAs (Decidable (∃ d ∈ (segments path).dropLast, ".env".toList <:+: d.toList))

/-! ## Letter case -/

/-- No rule takes another character for one before the letters. -/
theorem RoleRule.fold_eq_iff (rule : RoleRule) {c d : Char} (h : d.toNat < 65) :
    rule.fold c = d ↔ c = d := by
  unfold RoleRule.fold
  split
  · exact toLower_eq_iff h
  · rfl

/-- A character before the letters is in a text if it is there after case is left out of it. -/
theorem RoleRule.mem_map_fold_iff (rule : RoleRule) {d : Char} (h : d.toNat < 65) :
    d ∈ s.map rule.fold ↔ d ∈ s := by
  simp [rule.fold_eq_iff h]

/-! ## The final line feed -/

/-- A text has a final line feed to lose, or has none and stays as it is. -/
theorem eq_or_withoutFinalFeed_eq (s : List Char) :
    s = withoutFinalFeed s ++ ['\n'] ∨ s.getLast? ≠ some '\n' ∧ withoutFinalFeed s = s := by
  unfold withoutFinalFeed
  by_cases h : s.getLast? = some '\n'
  · rw [if_pos h]
    exact .inl (List.dropLast_append_getLast? '\n' h).symm
  · rw [if_neg h]
    exact .inr ⟨h, rfl⟩

/-- A final line feed is lost. -/
theorem withoutFinalFeed_append_feed (s : List Char) : withoutFinalFeed (s ++ ['\n']) = s := by
  simp [withoutFinalFeed]

/-- Nothing comes in for a final line feed. -/
theorem withoutFinalFeed_subset (s : List Char) : withoutFinalFeed s ⊆ s := by
  unfold withoutFinalFeed
  split
  · exact List.dropLast_subset s
  · exact List.Subset.refl s

/-- A final line feed is lost before case is left out of a text or after. -/
theorem map_withoutFinalFeed (rule : RoleRule) (s : List Char) :
    (withoutFinalFeed s).map rule.fold = withoutFinalFeed (s.map rule.fold) := by
  have hlast : (s.map rule.fold).getLast? = some '\n' ↔ s.getLast? = some '\n' := by
    simp [List.getLast?_map, rule.fold_eq_iff (d := '\n') (by decide)]
  unfold withoutFinalFeed
  by_cases h : s.getLast? = some '\n'
  · rw [if_pos h, if_pos (hlast.mpr h), List.map_dropLast]
  · rw [if_neg h, if_neg (mt hlast.mp h)]

/-- A final line feed comes after the last slash. -/
theorem withoutFinalFeed_append_cons (s t : List Char) :
    withoutFinalFeed (s ++ '/' :: t) = s ++ '/' :: withoutFinalFeed t := by
  rcases eq_or_withoutFinalFeed_eq t with heq | ⟨hlast, heq⟩
  · have hwhole : s ++ '/' :: t = s ++ '/' :: withoutFinalFeed t ++ ['\n'] := by
      rw [List.append_assoc, List.cons_append, ← heq]
    rw [hwhole, withoutFinalFeed_append_feed]
  · have hwhole : (s ++ '/' :: t).getLast? ≠ some '\n' := by
      cases t with
      | nil => simp
      | cons c t => simpa using hlast
    rw [heq, withoutFinalFeed, if_neg hwhole]

/-- A word without line feeds stands where the text may end if it ends the text, less one final line
feed. -/
theorem exists_isEnd_iff (h : '\n' ∉ w) :
    (∃ before rest, s = before ++ (w ++ rest) ∧ isEnd rest = true) ↔
      w <:+ withoutFinalFeed s := by
  constructor
  · rintro ⟨before, rest, rfl, hend⟩
    have hrest : rest = [] ∨ rest = ['\n'] := by simpa [isEnd] using hend
    rcases hrest with rfl | rfl
    · rw [List.append_nil]
      rcases eq_or_withoutFinalFeed_eq (before ++ w) with heq | ⟨-, heq⟩
      · -- A word before a final line feed that is part of it would be empty.
        have hw : w <:+ withoutFinalFeed (before ++ w) ++ '\n' :: [] :=
          heq ▸ List.suffix_append before w
        rw [suffix_append_cons_iff h, List.suffix_nil] at hw
        rw [hw]
        exact List.nil_suffix
      · rw [heq]
        exact List.suffix_append before w
    · rw [← List.append_assoc, withoutFinalFeed_append_feed]
      exact List.suffix_append before w
  · rintro ⟨before, hbefore⟩
    rcases eq_or_withoutFinalFeed_eq s with heq | ⟨-, heq⟩
    · refine ⟨before, ['\n'], ?_, rfl⟩
      rw [heq, ← hbefore, List.append_assoc]
    · refine ⟨before, [], ?_, rfl⟩
      rw [List.append_nil, hbefore, heq]

/-! ## Rules -/

/-- The search for the expression of a rule tells whether the rule applies. -/
theorem RoleRule.fits_iff_applies (h : ∀ w ∈ rule.expression.words, '\n' ∉ w) :
    rule.fits s = true ↔ rule.Applies s := by
  unfold RoleRule.fits RoleRule.Applies
  rw [Expression.isFound_iff]
  refine exists_congr fun w => and_congr_right fun hw => ?_
  cases hend : rule.atEnd
  · simp [List.IsInfix, eq_comm]
  · have hfeed : '\n' ∉ w.map rule.fold := mt (rule.mem_map_fold_iff (by decide)).mp (h w hw)
    rw [if_pos rfl, map_withoutFinalFeed, ← exists_isEnd_iff hfeed]
    simp

/-- A character before the letters is in all that a rule applies to if it is in the rule's words. -/
theorem RoleRule.Applies.mem {d : Char} (h : rule.Applies s) (hd : d.toNat < 65)
    (hwords : ∀ w ∈ rule.expression.words, d ∈ w) : d ∈ s := by
  obtain ⟨w, hw, happlies⟩ := h
  have hword : d ∈ w.map rule.fold := (rule.mem_map_fold_iff hd).mpr (hwords w hw)
  split at happlies
  · have hmem := (rule.mem_map_fold_iff hd).mp (happlies.subset hword)
    exact withoutFinalFeed_subset s hmem
  · exact (rule.mem_map_fold_iff hd).mp (happlies.subset hword)

/-- A rule that looks at the end applies to a path and to what comes after a slash of it alike. -/
theorem RoleRule.applies_append_cons_iff (hend : rule.atEnd = true)
    (h : ∀ w ∈ rule.expression.words, '/' ∉ w) :
    rule.Applies (s ++ '/' :: t) ↔ rule.Applies t := by
  unfold RoleRule.Applies
  refine exists_congr fun w => and_congr_right fun hw => ?_
  have hslash : '/' ∉ w.map rule.fold := mt (rule.mem_map_fold_iff (by decide)).mp (h w hw)
  rw [if_pos hend, if_pos hend, withoutFinalFeed_append_cons, List.map_append, List.map_cons,
    (rule.fold_eq_iff (by decide)).mpr rfl, suffix_append_cons_iff hslash]

/-- A rule that looks at the end applies to a path and to its last segment alike. -/
theorem RoleRule.applies_base_iff (hend : rule.atEnd = true)
    (h : ∀ w ∈ rule.expression.words, '/' ∉ w) :
    rule.Applies (base path).toList ↔ rule.Applies path.toList := by
  rcases toList_parent_base path with heq | heq
  · rw [heq]
  · rw [heq, applies_append_cons_iff hend h]

/-- Every word of the rules has a point in it, and neither a slash nor a line feed. -/
theorem mem_words_of_mem_roleRules (h : rule ∈ roleRules) (hw : w ∈ rule.expression.words) :
    '.' ∈ w ∧ '/' ∉ w ∧ '\n' ∉ w := by
  have hall : ∀ rule ∈ roleRules, ∀ w ∈ rule.expression.words, '.' ∈ w ∧ '/' ∉ w ∧ '\n' ∉ w := by
    decide
  exact hall rule h w hw

/-- The rule for files of the environment comes after those that look at the end. -/
theorem roleRules_eq_concat : roleRules = roleRules.dropLast ++ [environmentRule] := rfl

/-- All rules but the last look at the end of a path. -/
theorem atEnd_of_mem_dropLast (h : rule ∈ roleRules.dropLast) : rule.atEnd = true := by
  have hall : ∀ rule ∈ roleRules.dropLast, rule.atEnd = true := by decide
  exact hall rule h

/-- No rule gives the role of a file that no rule applies to. -/
theorem role_ne_of_mem_roleRules (h : rule ∈ roleRules) :
    rule.role ≠ moduleRole ∧ rule.role ≠ fileRole := by
  have hall : ∀ rule ∈ roleRules, rule.role ≠ moduleRole ∧ rule.role ≠ fileRole := by decide
  exact hall rule h

/-- The search for one of the rules tells whether it applies. -/
theorem fits_iff_applies_of_mem (h : rule ∈ roleRules) : rule.fits s = true ↔ rule.Applies s :=
  RoleRule.fits_iff_applies fun _ hw => (mem_words_of_mem_roleRules h hw).2.2

example : (dotted (plural "hook") (.either typedExtension (.text "ts"))).words.map String.ofList =
    ["hooks.tsx", "hooks.ts", "hooks.ts", "hook.tsx", "hook.ts", "hook.ts"] := by decide

/-- The last rule applies to the paths that have the name of files of the environment in them. -/
theorem environmentRule_applies_iff : environmentRule.Applies s ↔ ".env".toList <:+: s := by
  simp [RoleRule.Applies, environmentRule, Expression.words, RoleRule.fold]

/-! ## Roles -/

/-- The role of a file whose path has no end that a rule looks for. -/
def plainRole (path : String) : String :=
  if ".env".toList <:+: path.toList then environmentRole
  else if extension path ∈ scripts then moduleRole else fileRole

/-- The role of a path is that of the first rule for its end, or else its plain role. -/
theorem role_eq (path : String) :
    role path =
      ((roleRules.dropLast.find? (·.fits path.toList)).map (·.role)).getD (plainRole path) := by
  have hmem : environmentRule ∈ roleRules := by
    rw [roleRules_eq_concat]
    exact List.mem_append_right _ List.mem_cons_self
  have hlast : environmentRule.fits path.toList = true ↔ ".env".toList <:+: path.toList :=
    (fits_iff_applies_of_mem hmem).trans environmentRule_applies_iff
  unfold role plainRole
  rw [roleRules_eq_concat, List.find?_append, List.dropLast_concat]
  cases roleRules.dropLast.find? (·.fits path.toList) with
  | some rule => rfl
  | none =>
    by_cases henv : ".env".toList <:+: path.toList
    · have hfind : [environmentRule].find? (·.fits path.toList) = some environmentRule :=
        List.find?_cons_of_pos (hlast.mpr henv)
      rw [if_pos henv, hfind]
      rfl
    · have hfind : [environmentRule].find? (·.fits path.toList) = none :=
        List.find?_cons_of_neg (mt hlast.mp henv)
      rw [if_neg henv, hfind]
      simp

/-- The rules for the end of a path find the same in its last segment. -/
theorem find?_base (path : String) :
    roleRules.dropLast.find? (·.fits (base path).toList) =
      roleRules.dropLast.find? (·.fits path.toList) := by
  refine List.find?_congr fun rule hrule => ?_
  have hmem : rule ∈ roleRules := List.mem_of_mem_dropLast hrule
  have happlies : rule.Applies (base path).toList ↔ rule.Applies path.toList :=
    rule.applies_base_iff (atEnd_of_mem_dropLast hrule)
      fun w hw => (mem_words_of_mem_roleRules hmem hw).2.1
  rw [Bool.eq_iff_iff, fits_iff_applies_of_mem hmem, fits_iff_applies_of_mem hmem, happlies]

/-- The name of files of the environment is in a path if it is in the name of a directory or in the
last segment. -/
theorem infix_iff_directory_or_base (path : String) :
    ".env".toList <:+: path.toList ↔
      HasEnvironmentDirectory path ∨ ".env".toList <:+: (base path).toList := by
  have hslash : '/' ∉ ".env".toList := by decide
  have hpieces : ".env".toList <:+: path.toList ↔
      ∃ d ∈ segments path, ".env".toList <:+: d.toList := by
    rw [infix_iff_exists_mem_splitOn hslash, segments]
    simp
  unfold HasEnvironmentDirectory
  rw [hpieces, segments_eq_concat_base, List.dropLast_concat]
  simp only [List.mem_append, List.mem_singleton, or_and_right, exists_or, exists_eq_left]

/-- The role of a path whose directories do not make it a file of the environment is that of its
last segment; otherwise the last segment decides if a rule applies to it. -/
theorem role_eq_of_base (path : String) :
    role path =
      if HasEnvironmentDirectory path then
        if role (base path) = moduleRole ∨ role (base path) = fileRole then environmentRole
        else role (base path)
      else role (base path) := by
  have henv := infix_iff_directory_or_base path
  rw [role_eq path, role_eq (base path), find?_base]
  cases hfirst : roleRules.dropLast.find? (·.fits path.toList) with
  | some rule =>
    have hmem : rule ∈ roleRules := List.mem_of_mem_dropLast (List.mem_of_find?_eq_some hfirst)
    have hne := role_ne_of_mem_roleRules hmem
    simp [hne]
  | none =>
    rw [Option.map_none, Option.getD_none, Option.getD_none, plainRole, plainRole, extension_base]
    by_cases hdir : HasEnvironmentDirectory path
    · rw [if_pos hdir, if_pos (henv.mpr (.inl hdir))]
      by_cases hbase : ".env".toList <:+: (base path).toList
      · rw [if_pos hbase, ite_self]
      · -- Without a rule for it, the last segment is that of a module or of a plain file.
        rw [if_neg hbase, if_pos]
        split
        · exact .inl rfl
        · exact .inr rfl
    · rw [if_neg hdir]
      exact if_congr (henv.trans (or_iff_right hdir)) rfl rfl

example : role "deploy/.env/Hero.tsx" = environmentRole ∧ role "Hero.tsx" = moduleRole := by decide

/-- The role of a path is that of the first rule that applies, and that of a module or of a plain
file, by the extension, if no rule does. -/
theorem role_eq_of_first (path : String) :
    (∃ before rule after, roleRules = before ++ rule :: after ∧ rule.Applies path.toList ∧
        (∀ earlier ∈ before, ¬earlier.Applies path.toList) ∧ role path = rule.role) ∨
      (∀ rule ∈ roleRules, ¬rule.Applies path.toList) ∧
        role path = if extension path ∈ scripts then moduleRole else fileRole := by
  unfold role
  cases hfirst : roleRules.find? (·.fits path.toList) with
  | some rule =>
    obtain ⟨hfits, before, after, heq, hbefore⟩ := List.find?_eq_some_iff_append.mp hfirst
    have hmem : rule ∈ roleRules := List.mem_of_find?_eq_some hfirst
    refine .inl ⟨before, rule, after, heq, (fits_iff_applies_of_mem hmem).mp hfits, ?_, rfl⟩
    intro earlier hearlier happlies
    have hmem' : earlier ∈ roleRules := heq ▸ List.mem_append_left _ hearlier
    have hnot := hbefore earlier hearlier
    rw [(fits_iff_applies_of_mem hmem').mpr happlies] at hnot
    exact absurd hnot (by decide)
  | none =>
    refine .inr ⟨fun rule hmem happlies => ?_, by simp⟩
    exact List.find?_eq_none.mp hfirst rule hmem ((fits_iff_applies_of_mem hmem).mpr happlies)

/-- The role of a path is that of the first rule that applies to it, where a rule applies by its
words, and that of a module or of a plain file if no rule does. It is the role of the last segment,
except that a directory with the name of files of the environment in it gives that role to what
would be a module or a plain file. -/
theorem role_eq_of_rules (path : String) :
    ((∃ before rule after, roleRules = before ++ rule :: after ∧ rule.Applies path.toList ∧
        (∀ earlier ∈ before, ¬earlier.Applies path.toList) ∧ role path = rule.role) ∨
      (∀ rule ∈ roleRules, ¬rule.Applies path.toList) ∧
        role path = if extension path ∈ scripts then moduleRole else fileRole) ∧
    role path =
      if HasEnvironmentDirectory path then
        if role (base path) = moduleRole ∨ role (base path) = fileRole then environmentRole
        else role (base path)
      else role (base path) :=
  ⟨role_eq_of_first path, role_eq_of_base path⟩

end RepoGraph.Path
