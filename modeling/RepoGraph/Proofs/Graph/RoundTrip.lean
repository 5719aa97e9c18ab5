import RepoGraph.Command.Answer
import RepoGraph.Proofs.Graph.Decoding
import RepoGraph.Proofs.Json.Orderly
import RepoGraph.Proofs.World

/-!
# Artifacts are known by their text

The text of an artifact is read and decoded as an equal artifact, and so is the part of the line
that answers a command with it. Equal artifacts have the same text, and therefore a text stands for
one artifact up to the order of the roles: `read_back_and_stableText_eq_iff` says all of this of the
artifacts that are serialized. The text of an artifact that can be written is read back without
more ado (`Artifact.IsWritable`); but the library may refuse to dump an artifact, and one that
guards the depth of its recursion refuses one that is nested too deep (`run_serialize_nested`).
-/

namespace RepoGraph

open RepoGraph.Decimal RepoGraph.Json

/-! ## The JSON form is orderly -/

section

variable {may : Int → Prop}

/-- A member that may be left out has its value, if any. -/
theorem mem_optional {name : String} {value? : Option Json} {m : String × Json} :
    m ∈ Json.optional name value? ↔ ∃ v, value? = some v ∧ m = (name, v) := by
  cases value? with
  | none => simp [Json.optional]
  | some v => simp [Json.optional]

/-- A text that may be left out is orderly. -/
theorem isOrderly_of_mem_optional_text {name : String} {text? : Option String} {m : String × Json}
    (hm : m ∈ Json.optional name (text?.map .str)) : IsOrderly may m.2 := by
  obtain ⟨v, hv, rfl⟩ := mem_optional.mp hm
  obtain ⟨s, -, rfl⟩ := Option.map_eq_some_iff.mp hv
  exact .str s

/-- A node whose size is as it may be has an orderly form. -/
theorem Node.isOrderly_toJson {n : Node} (h : ∀ z, n.size = some z → may z) :
    n.toJson.IsOrderly may := by
  refine .obj n.members n.nodup_members fun m hm => ?_
  simp only [members, List.mem_append, List.mem_cons, List.not_mem_nil, or_false] at hm
  rcases hm with (((rfl | rfl | rfl | rfl) | hlanguage) | hrole) | hsize
  · exact .str n.id
  · exact .str n.label
  · exact .str n.kind.name
  · exact .str n.path
  · exact isOrderly_of_mem_optional_text hlanguage
  · exact isOrderly_of_mem_optional_text hrole
  · obtain ⟨v, hv, rfl⟩ := mem_optional.mp hsize
    obtain ⟨z, hz, rfl⟩ := Option.map_eq_some_iff.mp hv
    exact .int z (h z hz)

/-- An edge has an orderly form. -/
theorem Edge.isOrderly_toJson (e : Edge) : e.toJson.IsOrderly may := by
  refine .obj e.members e.nodup_members fun m hm => ?_
  simp only [members, List.mem_cons, List.not_mem_nil, or_false] at hm
  rcases hm with rfl | rfl | rfl | rfl
  · exact .str e.id
  · exact .str e.source
  · exact .str e.target
  · exact .str e.kind.name

/-- A node of a tree has an orderly form if its children have. -/
theorem TreeLabel.isOrderly_members {l : TreeLabel} {children : Option (List Json)}
    (h : ∀ vs, children = some vs → ∀ v ∈ vs, IsOrderly may v) :
    IsOrderly may (.obj (l.members children)) := by
  refine .obj _ (l.nodup_members children) fun m hm => ?_
  simp only [members, List.mem_append, List.mem_cons, List.not_mem_nil, or_false] at hm
  rcases hm with ((rfl | rfl | rfl) | hchildren) | hlanguage
  · exact .str l.name
  · exact .str l.path
  · exact .str l.kind.name
  · obtain ⟨v, hv, rfl⟩ := mem_optional.mp hchildren
    obtain ⟨vs, hvs, rfl⟩ := Option.map_eq_some_iff.mp hv
    exact .arr vs (h vs hvs)
  · exact isOrderly_of_mem_optional_text hlanguage

mutual

/-- A tree has an orderly form. -/
theorem Tree.isOrderly_toJson (t : Tree) : t.toJson.IsOrderly may := by
  cases t with
  | bare l =>
    rw [toJson]
    exact TreeLabel.isOrderly_members fun vs hvs => nomatch hvs
  | branch l cs =>
    rw [toJson]
    refine TreeLabel.isOrderly_members fun vs hvs => ?_
    obtain rfl := Option.some.inj hvs
    exact isOrderly_of_mem_allToJson cs

/-- Trees have orderly forms. -/
theorem Tree.isOrderly_of_mem_allToJson (ts : List Tree) : ∀ v ∈ allToJson ts, IsOrderly may v := by
  cases ts with
  | nil =>
    rw [allToJson]
    exact fun v hv => absurd hv List.not_mem_nil
  | cons t ts =>
    rw [allToJson]
    exact List.forall_mem_cons.mpr ⟨isOrderly_toJson t, isOrderly_of_mem_allToJson ts⟩

end

/-- An artifact has an orderly form if the sizes of its nodes are as they may be. -/
theorem Artifact.isOrderly_toJson {a : Artifact}
    (h : ∀ n ∈ a.nodes, ∀ z, n.size = some z → may z) : a.toJson.IsOrderly may := by
  refine .obj a.members a.nodup_members fun m hm => ?_
  simp only [members, List.mem_cons, List.not_mem_nil, or_false] at hm
  rcases hm with rfl | rfl | rfl | rfl
  · refine .arr _ fun v hv => ?_
    obtain ⟨n, hn, rfl⟩ := List.mem_map.mp hv
    exact Node.isOrderly_toJson (h n hn)
  · refine .arr _ fun v hv => ?_
    obtain ⟨e, -, rfl⟩ := List.mem_map.mp hv
    exact e.isOrderly_toJson
  · exact a.tree.isOrderly_toJson
  · refine .obj _ ?_ fun m hm => ?_
    · rw [List.map_map]
      exact a.roles.nodup
    · obtain ⟨e, -, rfl⟩ := List.mem_map.mp hm
      exact .str e.2

end

/-- An artifact that can be written has an exact form. -/
theorem Artifact.IsWritable.isExact_toJson {a : Artifact} (h : a.IsWritable) :
    a.toJson.IsExact :=
  have horderly := Artifact.isOrderly_toJson h
  horderly.isExact horderly.of_mem_ints

/-! ## Equality of artifacts -/

mutual

/-- Two trees are the same exactly when they are equal. -/
theorem Tree.same_iff_eq (t u : Tree) : same t u = true ↔ t = u := by
  cases t with
  | bare l =>
    cases u with
    | bare m => simp [same]
    | branch m ds => simp [same]
  | branch l cs =>
    cases u with
    | bare m => simp [same]
    | branch m ds => simp [same, sameAll_iff_eq cs ds]

/-- Two lists of trees are the same exactly when they are equal. -/
theorem Tree.sameAll_iff_eq (ts us : List Tree) : sameAll ts us = true ↔ ts = us := by
  cases ts with
  | nil => cases us <;> simp [sameAll]
  | cons t ts =>
    cases us with
    | nil => simp [sameAll]
    | cons u us => simp [sameAll, same_iff_eq t u, sameAll_iff_eq ts us]

end

namespace Artifact

variable {a b : Artifact}

/-- Two artifacts are equal exactly when their nodes, edges and trees are the same and their roles
the same up to order. -/
theorem beq_iff : (a == b) = true ↔
    a.nodes = b.nodes ∧ a.edges = b.edges ∧ a.tree = b.tree ∧
      a.roles.entries.Perm b.roles.entries := by
  have htree : (a.tree == b.tree) = true ↔ a.tree = b.tree := Tree.same_iff_eq a.tree b.tree
  show same a b = true ↔ _
  simp only [same, Bool.and_eq_true, beq_iff_eq, htree, Table.agrees_iff_perm, and_assoc]

/-- Ordering the roles leaves an equal artifact. -/
theorem ordered_beq (style : Style) (a : Artifact) : (a.ordered style == a) = true := by
  have hperm : (style.order a.roles.entries).Perm a.roles.entries := Style.order_perm _
  have hnodup : ((style.order a.roles.entries).map Prod.fst).Nodup :=
    (hperm.map Prod.fst).nodup_iff.mpr a.roles.nodup
  refine beq_iff.mpr ⟨rfl, rfl, rfl, ?_⟩
  rw [ordered, Table.entries_ofList hnodup]
  exact hperm

/-! ## Texts -/

/-- Members with distinct names have one sorted order. -/
theorem sortMembers_eq_of_perm {α : Type} {ms ns : List (String × α)} (hperm : ms.Perm ns)
    (hnodup : (ms.map Prod.fst).Nodup) : sortMembers ms = sortMembers ns := by
  -- Sorting by name yields a sorted list of the same members.
  have htrans (x y z : String × α) (hxy : decide (x.1 ≤ y.1) = true)
      (hyz : decide (y.1 ≤ z.1) = true) : decide (x.1 ≤ z.1) = true :=
    decide_eq_true (String.le_trans (of_decide_eq_true hxy) (of_decide_eq_true hyz))
  have htotal (x y : String × α) : (decide (x.1 ≤ y.1) || decide (y.1 ≤ x.1)) = true := by
    simpa using String.le_total x.1 y.1
  have hsorted (xs : List (String × α)) :
      (sortMembers xs).Pairwise fun x y => decide (x.1 ≤ y.1) = true :=
    List.pairwise_mergeSort htrans htotal xs
  have hms : (sortMembers ms).Perm ms := List.mergeSort_perm ms _
  have hns : (sortMembers ns).Perm ns := List.mergeSort_perm ns _
  refine List.Perm.eq_of_pairwise ?_ (hsorted ms) (hsorted ns) ((hms.trans hperm).trans hns.symm)
  -- Members that stand before each other have one name, and so they are one.
  intro x y hx hy hxy hyx
  have hname : x.1 = y.1 :=
    String.le_antisymm (of_decide_eq_true hxy) (of_decide_eq_true hyx)
  have hx' : x ∈ ms := hms.mem_iff.mp hx
  have hy' : y ∈ ms := hperm.mem_iff.mpr (hns.mem_iff.mp hy)
  exact List.inj_on_of_nodup_map hnodup hx' hy' hname

/-- Equal artifacts have the same text. -/
theorem stableText_eq_of_beq (h : (a == b) = true) : a.stableText = b.stableText := by
  obtain ⟨hnodes, hedges, htree, hroles⟩ := beq_iff.mp h
  -- Only the roles may stand in another order, and they are sorted.
  have hsorted : sortMembers (a.roles.entries.map fun e => (e.1, Json.str e.2)) =
      sortMembers (b.roles.entries.map fun e => (e.1, Json.str e.2)) := by
    refine sortMembers_eq_of_perm (hroles.map _) ?_
    rw [List.map_map]
    exact a.roles.nodup
  have hwritten : write .stable (.obj (a.roles.entries.map fun e => (e.1, .str e.2))) =
      write .stable (.obj (b.roles.entries.map fun e => (e.1, .str e.2))) := by
    rw [write_obj, write_obj]
    show '\x7b' :: commaSeparated ((sortMembers _).map _) ++ _ = _
    rw [hsorted]
    rfl
  have hmembers : writeMembers .stable a.members = writeMembers .stable b.members := by
    simp only [members, writeMembers, hnodes, hedges, htree, hwritten]
  have hobjects : write .stable (.obj a.members) = write .stable (.obj b.members) := by
    rw [write, write, hmembers]
  exact congrArg String.ofList hobjects

/-- The text of an artifact is read and decoded as the artifact with its roles sorted. -/
theorem IsWritable.decode_read_stableText (h : a.IsWritable) :
    ∃ v, Json.read a.stableText = .ok v ∧ decode v = .ok (a.ordered .stable) :=
  ⟨arranged .stable a.toJson, h.isExact_toJson.read_stable, decode_arranged a⟩

/-- An artifact that has the text of another is equal to it. -/
theorem beq_of_stableText_eq (ha : a.IsWritable) (hb : b.IsWritable)
    (h : a.stableText = b.stableText) : (a == b) = true := by
  obtain ⟨v, hread, hdecode⟩ := ha.decode_read_stableText
  obtain ⟨w, hread', hdecode'⟩ := hb.decode_read_stableText
  rw [h, hread'] at hread
  obtain rfl := Except.ok.inj hread
  rw [hdecode'] at hdecode
  have heq : b.ordered .stable = a.ordered .stable := Except.ok.inj hdecode
  -- Both are equal to the artifact with its roles sorted.
  obtain ⟨hnodes, hedges, htree, hroles⟩ := beq_iff.mp (ordered_beq .stable a)
  obtain ⟨hnodes', hedges', htree', hroles'⟩ := beq_iff.mp (ordered_beq .stable b)
  rw [heq] at hnodes' hedges' htree' hroles'
  exact beq_iff.mpr ⟨hnodes.symm.trans hnodes', hedges.symm.trans hedges', htree.symm.trans htree',
    hroles.symm.trans hroles'⟩

/-- The line that answers a command with an artifact is read as an object with the JSON form of the
artifact. -/
theorem IsWritable.read_line (h : a.IsWritable) :
    ∃ v, Json.read (Answer.ofArtifact a).line = .ok v ∧ v.get? "artifact" = some a.toJson := by
  -- Besides the artifact the line says only that all is well.
  have hexact : (Json.obj (Answer.ofArtifact a).members).IsExact := by
    refine .obj _ (by simp [Answer.ofArtifact, Answer.members]) fun m hm => ?_
    simp only [Answer.ofArtifact, Answer.members, List.mem_cons, List.mem_filter,
      List.not_mem_nil, or_false] at hm
    rcases hm with rfl | ⟨rfl, -⟩
    · exact .bool true
    · exact h.isExact_toJson
  refine ⟨.obj (Answer.ofArtifact a).members, hexact.read_compact, ?_⟩
  simp [Json.get?, Answer.ofArtifact, Answer.members, List.lookup_cons]

/-- The text as which an artifact is serialized is read and decoded as an equal artifact, and so is
its part of the line that answers a command with it; two artifacts are serialized as the same text
exactly when they are equal. -/
theorem read_back_and_stableText_eq_iff {σ : Type} (W : World σ) {s s' t t' : σ}
    {text text' : String} (ha : W.run (Action.serialize a).run s = (.ok text, s'))
    (hb : W.run (Action.serialize b).run t = (.ok text', t')) :
    (∃ v a', Json.read text = .ok v ∧ decode v = .ok a' ∧ (a' == a) = true) ∧
      (∃ v u a', Json.read (Answer.ofArtifact a).line = .ok v ∧ v.get? "artifact" = some u ∧
        decode u = .ok a' ∧ (a' == a) = true) ∧
      (text = text' ↔ (a == b) = true) := by
  obtain ⟨⟨-, hwritable⟩, rfl, -⟩ := W.run_serialize_ok_iff.mp ha
  obtain ⟨⟨-, hwritable'⟩, rfl, -⟩ := W.run_serialize_ok_iff.mp hb
  refine ⟨?_, ?_, ?_⟩
  · obtain ⟨v, hread, hdecode⟩ := hwritable.decode_read_stableText
    exact ⟨v, a.ordered .stable, hread, hdecode, ordered_beq .stable a⟩
  · obtain ⟨v, hread, hget⟩ := hwritable.read_line
    exact ⟨v, a.toJson, a, hread, hget, decode_toJson a, beq_iff.mpr ⟨rfl, rfl, rfl, .refl _⟩⟩
  · exact ⟨beq_of_stableText_eq hwritable hwritable', stableText_eq_of_beq⟩

/-- An artifact of two files is read back; with its roles sorted it has the same text. -/
theorem read_back_and_stableText_eq_iff_of_two_files :
    let a := Artifact.ofFiles [⟨"src/é.py", some "import os", some 9⟩, ⟨"README", none, none⟩]
    let b := a.ordered .stable
    ∃ text text', World.isolated.run (Action.serialize a).run .empty = (.ok text, .empty) ∧
      World.isolated.run (Action.serialize b).run .empty = (.ok text', .empty) ∧
      (∃ v a', Json.read text = .ok v ∧ decode v = .ok a' ∧ (a' == a) = true) ∧
      (∃ v u a', Json.read (Answer.ofArtifact a).line = .ok v ∧ v.get? "artifact" = some u ∧
        decode u = .ok a' ∧ (a' == a) = true) ∧
      (text = text' ↔ (a == b) = true) := by
  intro a b
  -- The paths are sorted by a recursion that is not structural, so that the tree is not evaluated
  -- as it stands.
  have hdepth : a.tree.depth < depthLimit := by
    simp only [a, ofFiles, List.map_cons, List.map_nil, Tree.ofPaths, Tree.distinctPaths]
    simp [List.eraseDups, List.eraseDupsBy, List.eraseDupsBy.loop, List.mergeSort]
    decide +kernel
  have ha : World.isolated.Serializes a := World.serializes_isolated_iff.mpr ⟨hdepth, by decide⟩
  -- Sorting the roles leaves the tree as it is.
  have hb : World.isolated.Serializes b := World.serializes_isolated_iff.mpr ⟨hdepth, by decide⟩
  have hrun := World.isolated.run_serialize ha .empty
  have hrun' := World.isolated.run_serialize hb .empty
  exact ⟨_, _, hrun, hrun', read_back_and_stableText_eq_iff World.isolated hrun hrun'⟩

end Artifact

/-! ## Artifacts that are nested too deep -/

/-- A file below so many directories. -/
def Tree.nested : Nat → Tree
  | 0 => .bare ⟨"f", "f", .file, none⟩
  | n + 1 => .branch ⟨"d", "d", .dir, none⟩ [nested n]

/-- Each directory adds a level. -/
theorem Tree.depth_nested (n : Nat) : (nested n).depth = n + 1 := by
  induction n with
  | zero => rfl
  | succ n ih => simp only [nested, depth, depthOf, ih, Nat.max_zero]

namespace Artifact

/-- An artifact with a file below so many directories. -/
def nested (n : Nat) : Artifact := ⟨[], [], .nested n, .empty⟩

/-- An artifact without nodes has no size that could not be written. -/
theorem isWritable_nested (n : Nat) : (nested n).IsWritable :=
  fun _ hnode => absurd hnode List.not_mem_nil

end Artifact

namespace World

/-- A library that guards the depth of its recursion refuses what is nested too deep. -/
theorem run_serialize_nested {n : Nat} (h : Artifact.depthLimit ≤ n + 1) (s : Store) :
    isolated.run (Action.serialize (.nested n)).run s =
      (.error (.outside Artifact.depthFault), s) := by
  have hdumped : (Artifact.nested n).dumped = .error Artifact.depthFault :=
    if_neg (Nat.not_lt.mpr ((Tree.depth_nested n).symm ▸ h))
  rw [run_serialize_eq]
  show (Action.serialized _ (Artifact.nested n).dumped, s) = _
  rw [hdumped]
  rfl

/-- A file below 300 directories, in an artifact without any number, is not serialized. -/
theorem serialize_fails_of_nested :
    (Artifact.nested 300).IsWritable ∧
      isolated.run (Action.serialize (.nested 300)).run .empty =
        (.error (.outside Artifact.depthFault), .empty) :=
  ⟨Artifact.isWritable_nested 300, run_serialize_nested (by decide) .empty⟩

end World

end RepoGraph
