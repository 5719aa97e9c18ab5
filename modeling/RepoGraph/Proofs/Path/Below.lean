import Mathlib.Data.String.Basic
import RepoGraph.Path.Basic
import RepoGraph.Proofs.Text.Split

/-!
# Paths below directories

A path lies below a directory when it goes on with a slash after the directory's own path
(`Path.IsBelow`). The directories above one path are in a line (`IsBelow.total`): the nearest one is
the parent, and the others are above that (`isBelow_iff_parent`). In increasing order the paths
below a directory stand together (`IsBelow.between`).
-/

namespace RepoGraph.Path

open RepoGraph.Text

variable {above dir path other : String}

/-- The path goes on after the path of the directory and a slash. -/
def IsBelow (dir path : String) : Prop := ∃ rest, path = dir ++ "/" ++ rest

/-- The characters of a path that is put together. -/
theorem toList_append_slash (dir rest : String) :
    (dir ++ "/" ++ rest).toList = dir.toList ++ '/' :: rest.toList := by
  rw [String.toList_append, String.toList_append, List.append_assoc]
  rfl

/-- A path lies below a directory if its characters begin with those of the directory and a
slash. -/
theorem isBelow_iff_begins : IsBelow dir path ↔ dir.toList ++ ['/'] <+: path.toList := by
  constructor
  · rintro ⟨rest, rfl⟩
    refine ⟨rest.toList, ?_⟩
    rw [toList_append_slash, List.append_assoc, List.singleton_append]
  · rintro ⟨rest, hrest⟩
    refine ⟨String.ofList rest, String.toList_inj.mp ?_⟩
    rw [← hrest, toList_append_slash, String.toList_ofList, List.append_assoc,
      List.singleton_append]

/-- A path below a directory is longer than the directory's. -/
theorem IsBelow.length_lt (h : IsBelow dir path) : dir.length < path.length := by
  have hle := (isBelow_iff_begins.mp h).length_le
  rw [List.length_append, String.length_toList, String.length_toList, List.length_singleton] at hle
  omega

/-- The empty path lies below no directory. -/
theorem IsBelow.ne_empty (h : IsBelow dir path) : path ≠ "" := by
  rintro rfl
  exact Nat.not_lt_zero _ h.length_lt

/-- No path lies below itself. -/
theorem not_isBelow_self (path : String) : ¬IsBelow path path :=
  fun h => Nat.lt_irrefl _ h.length_lt

/-- What lies below a directory below another one lies below that one too. -/
theorem IsBelow.trans (h : IsBelow above dir) (h' : IsBelow dir path) : IsBelow above path := by
  obtain ⟨rest, rfl⟩ := h
  obtain ⟨rest', rfl⟩ := h'
  exact ⟨rest ++ "/" ++ rest', by simp [String.append_assoc]⟩

/-- Of two directories above one path, one is above the other, unless they are the same. -/
theorem IsBelow.total (h : IsBelow dir path) (h' : IsBelow other path) :
    dir = other ∨ IsBelow dir other ∨ IsBelow other dir := by
  have hlonger {a b : String} (hbegins : a.toList ++ ['/'] <+: b.toList ++ ['/']) :
      a = b ∨ IsBelow a b := by
    rcases List.prefix_concat_iff.mp hbegins with heq | hbelow
    · exact .inl (String.toList_inj.mp (List.append_cancel_right heq))
    · exact .inr (isBelow_iff_begins.mpr hbelow)
  rcases List.prefix_or_prefix_of_prefix (isBelow_iff_begins.mp h) (isBelow_iff_begins.mp h') with
    hbegins | hbegins
  · rcases hlonger hbegins with heq | hbelow
    · exact .inl heq
    · exact .inr (.inl hbelow)
  · rcases hlonger hbegins with heq | hbelow
    · exact .inl heq.symm
    · exact .inr (.inr hbelow)

/-! ## Parents -/

/-- A path is all there is of itself, or its parent, a slash and its last segment, in which there is
no slash. -/
theorem parent_base (path : String) :
    '/' ∉ (base path).toList ∧
      ('/' ∉ path.toList ∧ parent path = "" ∧ base path = path ∨
        path = parent path ++ "/" ++ base path) := by
  unfold parent base
  by_cases h : '/' ∈ path.toList
  · obtain ⟨before, after, heq, hafter⟩ := exists_eq_append_cons_of_mem h
    rw [heq, afterLast_append_cons hafter, beforeLast?_append_cons hafter, Option.getD_some,
      String.toList_ofList]
    refine ⟨hafter, .inr (String.toList_inj.mp ?_)⟩
    rw [heq, toList_append_slash, String.toList_ofList, String.toList_ofList]
  · rw [afterLast_of_notMem h, beforeLast?_of_notMem h, String.ofList_toList]
    exact ⟨h, .inl ⟨h, rfl, rfl⟩⟩

/-- The parent and the last segment of a path that is put together from them. -/
theorem parent_base_append {segment : String} (h : '/' ∉ segment.toList) :
    parent (dir ++ "/" ++ segment) = dir ∧ base (dir ++ "/" ++ segment) = segment := by
  unfold parent base
  rw [toList_append_slash, afterLast_append_cons h, beforeLast?_append_cons h, Option.getD_some]
  exact ⟨String.ofList_toList, String.ofList_toList⟩

/-- A single segment has no parent but the root. -/
theorem parent_base_of_notMem {segment : String} (h : '/' ∉ segment.toList) :
    parent segment = "" ∧ base segment = segment := by
  unfold parent base
  rw [afterLast_of_notMem h, beforeLast?_of_notMem h]
  exact ⟨rfl, String.ofList_toList⟩

/-- The characters of a path are those of its last segment, after those of its parent and a slash
unless it is a single segment. -/
theorem toList_parent_base (path : String) :
    base path = path ∨ path.toList = (parent path).toList ++ '/' :: (base path).toList := by
  obtain ⟨-, ⟨-, -, heq⟩ | heq⟩ := parent_base path
  · exact .inl heq
  · rw [← toList_append_slash, ← heq]
    exact .inr rfl

/-- The last segment of a path ends the list of its segments. -/
theorem segments_eq_concat_base (path : String) :
    segments path = (segments path).dropLast ++ [base path] := by
  have hbase : splitOn '/' (base path).toList = [(base path).toList] :=
    splitOn_of_notMem (parent_base path).1
  have hlast : ∃ directories, segments path = directories ++ [base path] := by
    rcases toList_parent_base path with heq | heq
    · refine ⟨[], ?_⟩
      rw [heq] at hbase ⊢
      rw [segments, hbase, List.map_singleton, String.ofList_toList, List.nil_append]
    · refine ⟨segments (parent path), ?_⟩
      rw [segments, heq, splitOn_append_cons, hbase, List.map_append, List.map_singleton,
        String.ofList_toList]
      rfl
  obtain ⟨directories, heq⟩ := hlast
  rw [heq, List.dropLast_concat]

/-- A path lies below a directory if the directory is its parent, or its parent lies below it. -/
theorem isBelow_iff_parent :
    IsBelow dir path ↔ '/' ∈ path.toList ∧ (dir = parent path ∨ IsBelow dir (parent path)) := by
  obtain ⟨hbase, hpath | hpath⟩ := parent_base path
  · refine iff_of_false ?_ fun h => hpath.1 h.1
    rintro ⟨rest, rfl⟩
    exact hpath.1 (by simp)
  have hparent : IsBelow (parent path) path := ⟨_, hpath⟩
  constructor
  · intro h
    refine ⟨by rw [hpath]; simp, ?_⟩
    rcases h.total hparent with heq | hbelow | ⟨between, hbetween⟩
    · exact .inl heq
    · exact .inr hbelow
    · -- A directory between the parent and the path would have a slash in the last segment.
      obtain ⟨rest, hrest⟩ := h
      rw [hbetween] at hrest
      have heq : parent path ++ "/" ++ base path =
          parent path ++ "/" ++ (between ++ "/" ++ rest) := by
        calc parent path ++ "/" ++ base path = path := hpath.symm
          _ = parent path ++ "/" ++ between ++ "/" ++ rest := hrest
          _ = parent path ++ "/" ++ (between ++ "/" ++ rest) := by
            simp only [String.append_assoc]
      have hsame : base path = between ++ "/" ++ rest := by
        rw [← String.toList_inj, String.toList_append, String.toList_append (s := _ ++ "/")] at heq
        exact String.toList_inj.mp (List.append_cancel_left heq)
      exact absurd (by rw [hsame]; simp) hbase
  · rintro ⟨-, rfl | hbelow⟩
    · exact hparent
    · exact hbelow.trans hparent

/-- A path lies below its parent, unless that is the root. -/
theorem isBelow_of_parent_eq (hne : dir ≠ "") (h : parent path = dir) : IsBelow dir path := by
  obtain ⟨-, ⟨-, hroot, -⟩ | hpath⟩ := parent_base path
  · exact absurd (h.symm.trans hroot) hne
  · rw [h] at hpath
    exact ⟨_, hpath⟩

/-- A path that is not empty is longer than its parent. -/
theorem length_parent_lt (h : path ≠ "") : (parent path).length < path.length := by
  by_cases hparent : parent path = ""
  · rw [hparent]
    exact Nat.pos_of_ne_zero fun hlength => h (String.length_eq_zero_iff.mp hlength)
  · exact (isBelow_of_parent_eq hparent rfl).length_lt

/-- Of two paths with one parent, neither lies below the other. -/
theorem not_isBelow_of_parent_eq (hne : dir ≠ "") (h : parent dir = parent path) :
    ¬IsBelow dir path := by
  intro hbelow
  have hshorter := length_parent_lt hne
  rw [h] at hshorter
  rcases (isBelow_iff_parent.mp hbelow).2 with heq | habove
  · rw [heq] at hshorter
    exact Nat.lt_irrefl _ hshorter
  · exact Nat.lt_asymm hshorter habove.length_lt

/-- The extension of a path is that of its last segment. -/
theorem extension_base (path : String) : extension (base path) = extension path := by
  have hbase : afterLast '/' (base path).toList = afterLast '/' path.toList := by
    rw [afterLast_of_notMem (parent_base path).1, base, String.toList_ofList]
  unfold extension
  rw [hbase]

/-- The language of a file is known from its last segment. -/
theorem language?_base (path : String) : language? (base path) = language? path := by
  unfold language?
  rw [extension_base]

/-! ## Order -/

/-- What stands between two texts that begin in the same way begins in that way too. -/
theorem prefix_of_between {start low middle high : List Char} (hlow : start <+: low)
    (hhigh : start <+: high) (h : low < middle) (h' : middle < high) : start <+: middle := by
  induction start generalizing low middle high with
  | nil => exact List.nil_prefix
  | cons c start ih =>
    obtain ⟨low, rfl⟩ := hlow
    obtain ⟨high, rfl⟩ := hhigh
    cases middle with
    | nil => cases h
    | cons d middle =>
      rw [List.cons_append, List.cons_lt_cons_iff] at h h'
      -- The first characters cannot differ, as that would put the text before or after both.
      rcases h with hlt | ⟨rfl, h⟩
      · rcases h' with hgt | ⟨rfl, -⟩
        · exact absurd hgt (lt_asymm hlt)
        · exact absurd hlt (lt_irrefl d)
      · rcases h' with hgt | ⟨-, h'⟩
        · exact absurd hgt (lt_irrefl c)
        · have hmiddle := ih (List.prefix_append _ _) (List.prefix_append _ _) h h'
          exact List.cons_prefix_cons.mpr ⟨rfl, hmiddle⟩

/-- A path between two paths below a directory lies below it too. -/
theorem IsBelow.between {low middle high : String} (hlow : IsBelow dir low)
    (hhigh : IsBelow dir high) (h : low < middle) (h' : middle < high) : IsBelow dir middle :=
  isBelow_iff_begins.mpr (prefix_of_between (isBelow_iff_begins.mp hlow)
    (isBelow_iff_begins.mp hhigh) (String.lt_iff_toList_lt.mp h) (String.lt_iff_toList_lt.mp h'))

end RepoGraph.Path
