import Mathlib.Algebra.BigOperators.Group.List.Lemmas
import Mathlib.Algebra.GroupWithZero.Nat
import Mathlib.Data.Finset.Card
import Mathlib.Data.Finset.Dedup
import Mathlib.Data.String.Basic
import RepoGraph.Proofs.Explain.Summary
import RepoGraph.Proofs.Table

/-!
# What a summary tells

A ranking holds each name once, with how often it occurs (`mem_ranking_iff`), and is in strict order
(`pairwise_ranking`): no two entries of it tie, since their names differ. So what is left out of the
first entries comes after each of them (`rel_of_notMem_take`), and a main language is the first
entry of a ranking. `IsSummaryOf` puts together what a summary says of the edges, the roles and the
nodes of its artifact.
-/

namespace RepoGraph.Summary

variable {names : List String} {name : String} {n top : Nat}

/-! ## Counting -/

/-- Each name is counted once, with how often it occurs. -/
theorem mem_counts_iff : (name, n) ∈ counts names ↔ name ∈ names ∧ n = names.count name := by
  rw [counts, List.mem_map]
  constructor
  · rintro ⟨name, hname, heq⟩
    obtain ⟨rfl, rfl⟩ := Prod.mk.inj heq
    exact ⟨Names.mem_sorted.mp hname, rfl⟩
  · rintro ⟨hname, rfl⟩
    exact ⟨name, Names.mem_sorted.mpr hname, rfl⟩

/-- The names that are counted are the names in their order. -/
theorem map_fst_counts (names : List String) :
    (counts names).map Prod.fst = Names.sorted names := by
  rw [counts, List.map_map]
  exact List.map_id' _

/-- No name is counted twice. -/
theorem nodup_sorted (names : List String) : (Names.sorted names).Nodup :=
  (List.mergeSort_perm _ _).nodup_iff.mpr (Names.nodup_eraseDups names)

/-- As many names are counted as there are different ones. -/
theorem length_counts (names : List String) : (counts names).length = names.toFinset.card := by
  have hsame : (Names.sorted names).toFinset = names.toFinset := by
    ext name
    rw [List.mem_toFinset, List.mem_toFinset, Names.mem_sorted]
  rw [← hsame, List.toFinset_card_of_nodup (nodup_sorted names), ← map_fst_counts, List.length_map]

/-- All counts together are the number of names. -/
theorem sum_counts (names : List String) : ((counts names).map Prod.snd).sum = names.length := by
  have hperm : (Names.sorted names).Perm names.dedup := by
    rw [List.perm_ext_iff_of_nodup (nodup_sorted names) names.nodup_dedup]
    intro name
    rw [Names.mem_sorted, List.mem_dedup]
  calc ((counts names).map Prod.snd).sum
      = ((Names.sorted names).map fun name => names.count name).sum := by
        rw [counts, List.map_map]
        rfl
    _ = (names.dedup.map fun name => names.count name).sum := (hperm.map _).sum_eq
    _ = names.length := List.sum_map_count_dedup_eq_length names

/-! ## Ranking -/

/-- A name comes before another one in a ranking: it occurs more often, or as often and is less. -/
def Precedes (a b : String × Nat) : Prop := b.2 < a.2 ∨ (a.2 = b.2 ∧ a.1 < b.1)

/-- A name outranks another one if it occurs more often, or as often and is not greater. -/
theorem outranks_iff {a b : String × Nat} :
    outranks a b = true ↔ b.2 < a.2 ∨ (a.2 = b.2 ∧ a.1 ≤ b.1) := by
  simp only [outranks, Bool.or_eq_true, Bool.and_eq_true, decide_eq_true_eq, beq_iff_eq]

/-- What outranks a name outranks all that this name does. -/
theorem outranks_trans {a b c : String × Nat} (hab : outranks a b = true)
    (hbc : outranks b c = true) : outranks a c = true := by
  rw [outranks_iff] at hab hbc ⊢
  rcases hab with hab | ⟨hab, hname⟩
  · exact .inl (by omega)
  · rcases hbc with hbc | ⟨hbc, hname'⟩
    · exact .inl (by omega)
    · exact .inr ⟨hab.trans hbc, hname.trans hname'⟩

/-- Of two names one outranks the other. -/
theorem outranks_total (a b : String × Nat) : (outranks a b || outranks b a) = true := by
  rw [Bool.or_eq_true, outranks_iff, outranks_iff]
  rcases lt_trichotomy a.2 b.2 with hless | heq | hmore
  · exact .inr (.inl hless)
  · exact (le_total a.1 b.1).imp (fun h => .inr ⟨heq, h⟩) fun h => .inr ⟨heq.symm, h⟩
  · exact .inl (.inl hmore)

/-- Of two different names that one comes before the other which outranks it. -/
theorem precedes_of_outranks {a b : String × Nat} (h : outranks a b = true) (hne : a.1 ≠ b.1) :
    Precedes a b :=
  (outranks_iff.mp h).imp_right fun h => h.imp_right fun hle => lt_of_le_of_ne hle hne

/-- A ranking has what is counted in it. -/
theorem mem_ranking_iff : (name, n) ∈ ranking names ↔ name ∈ names ∧ n = names.count name := by
  rw [ranking, List.mem_mergeSort, mem_counts_iff]

/-- A ranking has as many entries as there are different names. -/
theorem length_ranking (names : List String) : (ranking names).length = names.toFinset.card := by
  rw [ranking, List.length_mergeSort, length_counts]

/-- A ranking is in strict order. -/
theorem pairwise_ranking (names : List String) : (ranking names).Pairwise Precedes := by
  have hordered : (ranking names).Pairwise fun a b => outranks a b = true := by
    refine List.pairwise_mergeSort (fun a b c hab hbc => ?_) outranks_total _
    exact outranks_trans hab hbc
  have hdistinct : (ranking names).Pairwise fun a b => a.1 ≠ b.1 := by
    have hperm : ((ranking names).map Prod.fst).Perm (Names.sorted names) := by
      rw [← map_fst_counts]
      exact (List.mergeSort_perm _ _).map Prod.fst
    exact List.pairwise_map.mp (hperm.nodup_iff.mpr (nodup_sorted names))
  exact (hordered.and hdistinct).imp fun h => precedes_of_outranks h.1 h.2

/-- What is not among the first elements of an ordered list comes after each of them. -/
theorem rel_of_notMem_take {α : Type} {r : α → α → Prop} {xs : List α} (h : xs.Pairwise r)
    {x y : α} (hx : x ∈ xs) (hnot : x ∉ xs.take n) (hy : y ∈ xs.take n) : r y x := by
  rw [← List.take_append_drop n xs] at h hx
  exact (List.pairwise_append.mp h).2.2 y hy x ((List.mem_append.mp hx).resolve_left hnot)

/-- The first items, where their number is not negative. -/
theorem first_natCast {α : Type} (top : Nat) (items : List α) :
    first top items = items.take top := by
  rw [first, if_pos (Int.natCast_nonneg top), Int.toNat_natCast]

/-- The first name of a ranking is one that comes before all others. -/
theorem head?_ranking_eq_some (h : (ranking names).head?.map Prod.fst = some name) :
    name ∈ names ∧ ∀ other ∈ names, other ≠ name →
      Precedes (name, names.count name) (other, names.count other) := by
  obtain ⟨⟨name, n⟩, hhead, rfl⟩ := Option.map_eq_some_iff.mp h
  obtain ⟨rest, hrest⟩ := List.head?_eq_some_iff.mp hhead
  have hfirst : (name, n) ∈ ranking names := List.mem_of_mem_head? hhead
  have hordered := pairwise_ranking names
  obtain ⟨hname, rfl⟩ := mem_ranking_iff.mp hfirst
  refine ⟨hname, fun other hother hne => ?_⟩
  have hmem : (other, names.count other) ∈ ranking names := mem_ranking_iff.mpr ⟨hother, rfl⟩
  rw [hrest] at hordered hmem
  refine (List.pairwise_cons.mp hordered).1 _ ((List.mem_cons.mp hmem).resolve_left fun heq => ?_)
  exact hne (congrArg Prod.fst heq)

/-- There is no first name exactly if there are no names. -/
theorem head?_ranking_eq_none_iff :
    (ranking names).head?.map Prod.fst = none ↔ names = [] := by
  rw [Option.map_eq_none_iff, List.head?_eq_none_iff, ← List.length_eq_zero_iff, length_ranking,
    Finset.card_eq_zero, List.toFinset_eq_empty_iff]

/-! ## Where requests enter -/

/-- The role begins with one of the words for where requests enter. -/
theorem isEntryRole_iff {role : String} :
    isEntryRole role = true ↔ ∃ word ∈ entryRoles, word.toList <+: role.toList := by
  simp only [isEntryRole, List.any_eq_true, List.isPrefixOf_iff_prefix]

/-- The paths where requests enter are those whose role says so. -/
theorem mem_entryPaths_iff {roles : Table String} {path : String} :
    path ∈ entryPaths roles ↔ ∃ role, roles.lookup? path = some role ∧ isEntryRole role = true := by
  rw [entryPaths, List.mem_mergeSort, List.mem_map]
  constructor
  · rintro ⟨⟨path, role⟩, hmem, rfl⟩
    obtain ⟨hmem, hrole⟩ := List.mem_filter.mp hmem
    exact ⟨role, (Table.lookup_eq_some_iff_mem roles.nodup).mpr hmem, hrole⟩
  · rintro ⟨role, hlookup, hrole⟩
    have hmem := (Table.lookup_eq_some_iff_mem roles.nodup).mp hlookup
    exact ⟨(path, role), List.mem_filter.mpr ⟨hmem, hrole⟩, rfl⟩

/-- There are as many of them as there are such roles. -/
theorem length_entryPaths (roles : Table String) :
    (entryPaths roles).length = roles.values.countP isEntryRole := by
  rw [entryPaths, List.length_mergeSort, List.length_map, ← List.countP_eq_length_filter,
    Table.values, List.countP_map]
  rfl

/-- The paths where requests enter are in strict order. -/
theorem pairwise_entryPaths (roles : Table String) : (entryPaths roles).Pairwise (· < ·) := by
  have hdistinct : (entryPaths roles).Nodup := by
    have hsub := (List.filter_sublist (p := fun e => isEntryRole e.2)
      (l := roles.entries)).map Prod.fst
    exact (List.mergeSort_perm _ _).nodup_iff.mpr (hsub.nodup roles.nodup)
  refine ((Names.pairwise_mergeSort _).and hdistinct).imp fun h => ?_
  exact lt_of_le_of_ne (of_decide_eq_true h.1) h.2

/-! ## Summaries -/

/-- How many edges lead to a file. -/
def indegree (a : Artifact) (path : String) : Nat := a.edges.countP fun e => e.target == path

/-- How many files are in a language. -/
def filesIn (a : Artifact) (language : String) : Nat :=
  a.nodes.countP fun n => n.language == some language

/-- The path is one of a file where requests enter. -/
def IsEntry (a : Artifact) (path : String) : Prop :=
  ∃ role, a.roles.lookup? path = some role ∧ ∃ word ∈ entryRoles, word.toList <+: role.toList

/-- The hubs, the entries, the roles and the language of the summary are those of the artifact, with
at most `top` hubs and `top` entries. -/
structure IsSummaryOf (a : Artifact) (top : Nat) (s : Summary) : Prop where
  /-- As many hubs are named as there are files with edges to them, and no more than asked for. -/
  length_hubs : s.hubs.length = min top (a.edges.map Edge.target).toFinset.card
  /-- A hub is a file with edges to it, and stands with their exact number. -/
  of_mem_hubs : ∀ path n, (path, n) ∈ s.hubs →
    (∃ e ∈ a.edges, e.target = path) ∧ n = indegree a path
  /-- The hubs are in strict order. -/
  pairwise_hubs : s.hubs.Pairwise Precedes
  /-- A file with edges to it that is no hub comes after each of them. -/
  hubs_precede : ∀ e ∈ a.edges, e.target ∉ s.hubs.map Prod.fst →
    ∀ hub ∈ s.hubs, Precedes hub (e.target, indegree a e.target)
  /-- As many entries are named as there are, and no more than asked for. -/
  length_entries : s.entries.length = min top (a.roles.values.countP isEntryRole)
  /-- Requests enter at each of them. -/
  of_mem_entries : ∀ path ∈ s.entries, IsEntry a path
  /-- The entries are in increasing order. -/
  pairwise_entries : s.entries.Pairwise (· < ·)
  /-- The entries that are not named are greater than each that is. -/
  entries_lt : ∀ path, IsEntry a path → path ∉ s.entries → ∀ entry ∈ s.entries, entry < path
  /-- Each role stands with the exact number of files that play it. -/
  mem_roles_iff : ∀ role n,
    (role, n) ∈ s.roles ↔ role ∈ a.roles.values ∧ n = a.roles.values.count role
  /-- Together they are as many as files have roles. -/
  sum_roles : (s.roles.map Prod.snd).sum = a.roles.entries.length
  /-- There is no main language exactly if no node is in one. -/
  language_eq_none_iff : s.language = none ↔ ∀ n ∈ a.nodes, ∀ l, n.language = some l → l = ""
  /-- The main language is that of a node, and comes before all others. -/
  of_language : ∀ language, s.language = some language →
    language ≠ "" ∧ (∃ n ∈ a.nodes, n.language = some language) ∧
      ∀ n ∈ a.nodes, ∀ other, n.language = some other → other ≠ "" → other ≠ language →
        Precedes (language, filesIn a language) (other, filesIn a other)

variable {a : Artifact}

/-- Edges to a file are counted by their targets. -/
theorem count_targets (a : Artifact) (path : String) :
    (a.edges.map Edge.target).count path = indegree a path := by
  rw [List.count, List.countP_map]
  rfl

/-- The languages of the nodes, without those that are empty. -/
theorem mem_languages_iff {language : String} :
    language ∈ (a.nodes.filterMap Node.language).filter (· != "") ↔
      language ≠ "" ∧ ∃ n ∈ a.nodes, n.language = some language := by
  rw [List.mem_filter, List.mem_filterMap, bne_iff_ne, and_comm]

/-- Files in a language are counted by the languages of the nodes. -/
theorem count_languages {language : String} (h : language ≠ "") :
    ((a.nodes.filterMap Node.language).filter (· != "")).count language = filesIn a language := by
  have hkept : (language != "") = true := bne_iff_ne.mpr h
  rw [List.count_filter (p := (· != "")) hkept, List.count_filterMap]
  rfl

/-- There is no main language exactly if no node is in one. -/
theorem language_ofArtifact_eq_none_iff (a : Artifact) (top : Int) :
    (ofArtifact a top).language = none ↔
      ∀ n ∈ a.nodes, ∀ language, n.language = some language → language = "" := by
  show (ranking _).head?.map Prod.fst = none ↔ _
  rw [head?_ranking_eq_none_iff, List.eq_nil_iff_forall_not_mem]
  constructor
  · intro h n hn language hlanguage
    by_contra hne
    exact h language (mem_languages_iff.mpr ⟨hne, n, hn, hlanguage⟩)
  · intro h language hmem
    obtain ⟨hne, n, hn, hlanguage⟩ := mem_languages_iff.mp hmem
    exact hne (h n hn language hlanguage)

/-- The main language is that of a node, and comes before all others. -/
theorem precedes_of_language_ofArtifact {top : Int} {language : String}
    (h : (ofArtifact a top).language = some language) :
    language ≠ "" ∧ (∃ n ∈ a.nodes, n.language = some language) ∧
      ∀ n ∈ a.nodes, ∀ other, n.language = some other → other ≠ "" → other ≠ language →
        Precedes (language, filesIn a language) (other, filesIn a other) := by
  obtain ⟨hmem, hothers⟩ := head?_ranking_eq_some h
  obtain ⟨hne, hnode⟩ := mem_languages_iff.mp hmem
  refine ⟨hne, hnode, fun n hn other hother hother' hdiffers => ?_⟩
  have hprecedes := hothers other (mem_languages_iff.mpr ⟨hother', n, hn, hother⟩) hdiffers
  rwa [count_languages hne, count_languages hother'] at hprecedes

/-- `ofArtifact` yields a summary that has `IsSummaryOf` for the artifact, and the same one for
every artifact with the same nodes, edges and roles in another order. -/
theorem isSummaryOf_ofArtifact (a : Artifact) (top : Nat) :
    IsSummaryOf a top (ofArtifact a top) ∧
      ∀ b : Artifact, a.nodes.Perm b.nodes → a.edges.Perm b.edges →
        a.roles.entries.Perm b.roles.entries → ofArtifact b top = ofArtifact a top := by
  have hhubs : (ofArtifact a top).hubs = (ranking (a.edges.map Edge.target)).take top :=
    first_natCast top _
  have hentries : (ofArtifact a top).entries = (entryPaths a.roles).take top := first_natCast top _
  have hcounted {path : String} {n : Nat} : (path, n) ∈ ranking (a.edges.map Edge.target) ↔
      (∃ e ∈ a.edges, e.target = path) ∧ n = indegree a path := by
    rw [mem_ranking_iff, List.mem_map, count_targets]
  have hentry {path : String} : path ∈ entryPaths a.roles ↔ IsEntry a path := by
    simp only [mem_entryPaths_iff, isEntryRole_iff, IsEntry]
  refine ⟨?_, fun b hnodes hedges hroles =>
    (ofArtifact_eq_of_perm hnodes hedges hroles top).symm⟩
  exact {
    length_hubs := by rw [hhubs, List.length_take, length_ranking]
    of_mem_hubs := fun path n hhub => hcounted.mp (List.mem_of_mem_take (hhubs ▸ hhub))
    pairwise_hubs := hhubs ▸ (pairwise_ranking _).sublist (List.take_sublist _ _)
    hubs_precede := fun e he hnot hub hhub => by
      rw [hhubs] at hnot hhub
      have htarget := hcounted.mpr ⟨⟨e, he, rfl⟩, rfl⟩
      refine rel_of_notMem_take (pairwise_ranking _) htarget (fun hmem => ?_) hhub
      exact hnot (List.mem_map_of_mem hmem)
    length_entries := by rw [hentries, List.length_take, length_entryPaths]
    of_mem_entries := fun path hpath => hentry.mp (List.mem_of_mem_take (hentries ▸ hpath))
    pairwise_entries := hentries ▸ (pairwise_entryPaths _).sublist (List.take_sublist _ _)
    entries_lt := fun path hpath hnot entry hmem => by
      rw [hentries] at hnot hmem
      exact rel_of_notMem_take (pairwise_entryPaths _) (hentry.mpr hpath) hnot hmem
    mem_roles_iff := fun role n => mem_counts_iff
    sum_roles := by
      show ((counts a.roles.values).map Prod.snd).sum = _
      rw [sum_counts, Table.values, List.length_map]
    language_eq_none_iff := language_ofArtifact_eq_none_iff a top
    of_language := fun _ => precedes_of_language_ofArtifact }

/-- Two files that refer to each other, and a third one, with nodes and edges in the other order. -/
theorem isSummaryOf_ofArtifact_reversed :
    let a := Artifact.ofFiles [{ path := "pages/a.ts", content := some "import x from './b'" },
      { path := "pages/b.ts", content := some "import x from './a'" }, { path := "README" }]
    let b := { a with nodes := a.nodes.reverse, edges := a.edges.reverse }
    (a.nodes.Perm b.nodes ∧ a.edges.Perm b.edges ∧ a.roles.entries.Perm b.roles.entries) ∧
      IsSummaryOf a 1 (ofArtifact a 1) ∧ ofArtifact b 1 = ofArtifact a 1 := by
  intro a b
  have hnodes : a.nodes.Perm b.nodes := (List.reverse_perm _).symm
  have hedges : a.edges.Perm b.edges := (List.reverse_perm _).symm
  have hroles : a.roles.entries.Perm b.roles.entries := .refl _
  obtain ⟨hsummary, hsame⟩ := isSummaryOf_ofArtifact a 1
  exact ⟨⟨hnodes, hedges, hroles⟩, hsummary, hsame b hnodes hedges hroles⟩

end RepoGraph.Summary
