import RepoGraph.Graph.Decoding
import RepoGraph.Graph.Encoding
import RepoGraph.Proofs.Json.RoundTrip

/-!
# Artifacts are decoded from their JSON form

Decoding asks an object for its members by name, and so it does not matter in which order they
stand: whatever the style of writing, what is read back is decoded as what was written
(`Artifact.decode_arranged`), up to the order of the roles.
-/

namespace RepoGraph

open RepoGraph.Json

/-! ## Members -/

section Members

variable {α : Type} {name : String} {more : List String} {decode : Json → Decoded α} {v : Json}
  {members : List (String × Json)} {a : α}

/-- A member that must be there is decoded. -/
theorem required_eq_ok (hv : members.lookup name = some v) (ha : decode v = .ok a) :
    required (name :: more) decode members = .ok a := by
  simp [required, findMember, hv, ha, Decoded.under]

/-- A member that may be left out is decoded. -/
theorem optional_eq_ok {absent : α} (hv : members.lookup name = some v) (ha : decode v = .ok a) :
    optional (name :: more) absent decode members = .ok a := by
  simp [optional, findMember, hv, ha, Decoded.under]

/-- A member that is left out when it has no value is decoded. -/
theorem optional_orNull_eq_ok {value? : Option α} {write : α → Json}
    (hv : members.lookup name = value?.map write) (hwrite : ∀ a, decode (write a) = .ok a)
    (hnull : ∀ a, write a ≠ null) :
    optional [name] none (orNull decode) members = .ok value? := by
  cases value? with
  | none =>
    have hnone : members.lookup name = none := hv
    simp [optional, findMember, hnone]
  | some a =>
    refine optional_eq_ok hv ?_
    unfold orNull
    split
    · rename_i heq
      exact absurd heq (hnull a)
    · rw [hwrite a]
      rfl

/-- A text that is left out when there is none is decoded. -/
theorem optional_text_eq_ok {text? : Option String}
    (hv : members.lookup name = text?.map Json.str) :
    optional [name] none (orNull decodeText) members = .ok text? :=
  optional_orNull_eq_ok hv (fun _ => rfl) (fun _ => by simp)

/-- A whole number that is left out when there is none is decoded. -/
theorem optional_int_eq_ok {number? : Option Int}
    (hv : members.lookup name = number?.map Json.int) :
    optional [name] none (orNull WholeNumber.decode) members = .ok number? :=
  optional_orNull_eq_ok hv (fun _ => rfl) (fun _ => by simp)

end Members

/-- The members under each name are those of another object, arranged. -/
def HasArranged (style : Style) (members others : List (String × Json)) : Prop :=
  ∀ name, others.lookup name = (members.lookup name).map (arranged style)

variable {style : Style}

/-- What is under a name does not depend on the order in which members are written. -/
theorem hasArranged_order (style : Style) {members : List (String × Json)}
    (h : (members.map Prod.fst).Nodup) :
    HasArranged style members ((style.order members).map fun m => (m.1, arranged style m.2)) := by
  intro name
  have hperm : (style.order members).Perm members := Style.order_perm members
  have hnodup : ((style.order members).map Prod.fst).Nodup :=
    (hperm.map Prod.fst).nodup_iff.mpr h
  -- The order does not matter, and arranging the values keeps the names.
  rw [← Table.lookup_eq_of_perm hperm hnodup]
  generalize style.order members = ms
  induction ms with
  | nil => rfl
  | cons m ms ih =>
    obtain ⟨n, v⟩ := m
    rw [List.map_cons, List.lookup_cons, List.lookup_cons]
    cases name == n
    · exact ih
    · rfl

namespace HasArranged

variable {members others : List (String × Json)} {name : String}

/-- A text is arranged as it is. -/
theorem lookup_text (h : HasArranged style members others) {s : String}
    (hs : members.lookup name = some (.str s)) : others.lookup name = some (.str s) := by
  rw [h, hs, Option.map_some, arranged]

/-- A text that may be left out is arranged as it is. -/
theorem lookup_text? (h : HasArranged style members others) {text? : Option String}
    (htext : members.lookup name = text?.map .str) : others.lookup name = text?.map .str := by
  rw [h, htext]
  cases text? with
  | none => rfl
  | some s => rw [Option.map_some, Option.map_some, arranged]

/-- A whole number that may be left out is arranged as it is. -/
theorem lookup_int? (h : HasArranged style members others) {number? : Option Int}
    (hnumber : members.lookup name = number?.map .int) : others.lookup name = number?.map .int := by
  rw [h, hnumber]
  cases number? with
  | none => rfl
  | some z => rw [Option.map_some, Option.map_some, arranged]

end HasArranged

/-! ## Nodes and edges -/

/-- A kind of node has a name of its own. -/
theorem NodeKind.ofName?_name (k : NodeKind) : ofName? k.name = some k := by
  cases k <;> decide

/-- A kind of reference has a name of its own. -/
theorem ReferenceKind.ofName?_name (k : ReferenceKind) : ofName? k.name = some k := by
  cases k <;> decide

/-- A kind of tree node has a name of its own. -/
theorem TreeKind.ofName?_name (k : TreeKind) : ofName? k.name = some k := by
  cases k <;> decide

/-- The name of a kind is decoded as the kind. -/
theorem decodeName_eq_ok {α : Type} {ofName? : String → Option α} {name : String} {a : α}
    (h : ofName? name = some a) : decodeName ofName? (.str name) = .ok a := by
  rw [decodeName, h]

/-- A member that may be left out is found under its name. -/
theorem lookup_optional (name other : String) (value? : Option Json) :
    (Json.optional name value?).lookup other = if other = name then value? else none := by
  cases value? with
  | none => simp [Json.optional]
  | some v =>
    by_cases h : other = name
    · simp [Json.optional, h]
    · simp [Json.optional, h, List.lookup_cons, beq_eq_false_iff_ne.mpr h]

/-- The members of a node have distinct names. -/
theorem Node.nodup_members (n : Node) : (n.members.map Prod.fst).Nodup := by
  unfold members
  cases n.language
  all_goals
    cases n.role
    all_goals
      cases n.size
      all_goals simp [Json.optional]

/-- A node is decoded from its members in any order. -/
theorem Node.decode_of_hasArranged {n : Node} {ms : List (String × Json)}
    (h : HasArranged style n.members ms) : decode (.obj ms) = .ok n := by
  have hid : required ["id"] decodeText ms = .ok n.id :=
    required_eq_ok (h.lookup_text (by simp [members])) rfl
  have hlabel : required ["label"] decodeText ms = .ok n.label :=
    required_eq_ok (h.lookup_text (by simp [members, List.lookup_cons])) rfl
  have hkind : optional ["type"] .file (decodeName NodeKind.ofName?) ms = .ok n.kind :=
    optional_eq_ok (h.lookup_text (by simp [members, List.lookup_cons]))
      (decodeName_eq_ok n.kind.ofName?_name)
  have hpath : required ["path"] decodeText ms = .ok n.path :=
    required_eq_ok (h.lookup_text (by simp [members, List.lookup_cons])) rfl
  have hlanguage : optional ["language"] none (orNull decodeText) ms = .ok n.language :=
    optional_text_eq_ok (h.lookup_text? (by
      simp [members, List.lookup_append, List.lookup_cons, lookup_optional]))
  have hrole : optional ["role"] none (orNull decodeText) ms = .ok n.role :=
    optional_text_eq_ok (h.lookup_text? (by
      simp [members, List.lookup_append, List.lookup_cons, lookup_optional]))
  have hsize : optional ["size"] none (orNull WholeNumber.decode) ms = .ok n.size :=
    optional_int_eq_ok (h.lookup_int? (by
      simp [members, List.lookup_append, List.lookup_cons, lookup_optional]))
  simp [decode, hid, hlabel, hkind, hpath, hlanguage, hrole, hsize, Decoded.both]

/-- The members of an edge have distinct names. -/
theorem Edge.nodup_members (e : Edge) : (e.members.map Prod.fst).Nodup := by
  simp [members]

/-- An edge is decoded from its members in any order. -/
theorem Edge.decode_of_hasArranged {e : Edge} {ms : List (String × Json)}
    (h : HasArranged style e.members ms) : decode (.obj ms) = .ok e := by
  have hid : required ["id"] decodeText ms = .ok e.id :=
    required_eq_ok (h.lookup_text (by simp [members])) rfl
  have hsource : required ["source"] decodeText ms = .ok e.source :=
    required_eq_ok (h.lookup_text (by simp [members, List.lookup_cons])) rfl
  have htarget : required ["target"] decodeText ms = .ok e.target :=
    required_eq_ok (h.lookup_text (by simp [members, List.lookup_cons])) rfl
  have hkind : optional ["type"] .imports (decodeName ReferenceKind.ofName?) ms = .ok e.kind :=
    optional_eq_ok (h.lookup_text (by simp [members, List.lookup_cons]))
      (decodeName_eq_ok e.kind.ofName?_name)
  simp [decode, hid, hsource, htarget, hkind, Decoded.both]

/-- A node is decoded from its JSON form, in whichever order its members stand. -/
theorem Node.decode_arranged (n : Node) : decode (arranged style n.toJson) = .ok n := by
  rw [toJson, arranged_obj]
  exact decode_of_hasArranged (hasArranged_order style n.nodup_members)

/-- An edge is decoded from its JSON form, in whichever order its members stand. -/
theorem Edge.decode_arranged (e : Edge) : decode (arranged style e.toJson) = .ok e := by
  rw [toJson, arranged_obj]
  exact decode_of_hasArranged (hasArranged_order style e.nodup_members)

/-- Items that are decoded one by one are decoded as a list. -/
theorem decodeList_map_eq_ok {α : Type} {decode : Json → Decoded α} {form : α → Json}
    (h : ∀ a, decode (form a) = .ok a) (items : List α) :
    decodeList decode (.arr (items.map form)) = .ok items := by
  have hfrom (index : Nat) : decodeItems decode index (items.map form) = .ok items := by
    induction items generalizing index with
    | nil => rfl
    | cons a rest ih => rw [List.map_cons, decodeItems, h, ih, Decoded.under, Decoded.both]
  exact hfrom 0

/-! ## Trees -/

/-- The members of a node of a tree have distinct names. -/
theorem TreeLabel.nodup_members (l : TreeLabel) (children : Option (List Json)) :
    ((l.members children).map Prod.fst).Nodup := by
  unfold members
  cases children
  all_goals
    cases l.language
    all_goals simp [Json.optional]

/-- The children are those under their name. -/
theorem Tree.decodeChildren_eq (ms : List (String × Json)) :
    decodeChildren ms =
      match ms.lookup "children" with
      | some v => (decodeList v).under (.member "children")
      | none => .ok none := by
  induction ms with
  | nil => rw [decodeChildren, List.lookup_nil]
  | cons m ms ih =>
    obtain ⟨name, v⟩ := m
    rw [decodeChildren, List.lookup_cons]
    by_cases h : name = "children"
    · rw [if_pos h, h, beq_self_eq_true]
    · rw [if_neg h, ih, beq_eq_false_iff_ne.mpr (Ne.symm h)]

/-- A node of a tree is decoded from its members in any order, given the result for its children. -/
theorem Tree.decodeNode_of_hasArranged {l : TreeLabel} {forms : Option (List Json)}
    {ms : List (String × Json)} (h : HasArranged style (l.members forms) ms)
    (children : Option (List Tree)) :
    decodeNode ms (.ok children) = .ok (ofParts l children) := by
  have hname : required ["name"] decodeText ms = .ok l.name :=
    required_eq_ok (h.lookup_text (by simp [TreeLabel.members])) rfl
  have hpath : required ["path"] decodeText ms = .ok l.path :=
    required_eq_ok (h.lookup_text (by simp [TreeLabel.members, List.lookup_cons])) rfl
  have hkind : required ["type"] (decodeName TreeKind.ofName?) ms = .ok l.kind :=
    required_eq_ok (h.lookup_text (by simp [TreeLabel.members, List.lookup_cons]))
      (decodeName_eq_ok l.kind.ofName?_name)
  have hlanguage : optional ["language"] none (orNull decodeText) ms = .ok l.language :=
    optional_text_eq_ok (h.lookup_text? (by
      simp [TreeLabel.members, List.lookup_append, List.lookup_cons, lookup_optional]))
  simp [decodeNode, hname, hpath, hkind, hlanguage, Decoded.both]

/-- What is under the name of the children, arranged. -/
theorem HasArranged.lookup_children {l : TreeLabel} {forms : Option (List Json)}
    {ms : List (String × Json)} (h : HasArranged style (l.members forms) ms) :
    ms.lookup "children" = forms.map fun vs => .arr (vs.map (arranged style)) := by
  rw [h]
  cases forms with
  | none => simp [TreeLabel.members, List.lookup_append, List.lookup_cons, lookup_optional]
  | some vs =>
    simp [TreeLabel.members, List.lookup_append, List.lookup_cons, lookup_optional, arranged,
      arrangedItems_eq_map]

/-- The JSON forms of trees are those of each of them. -/
theorem Tree.allToJson_eq_map (ts : List Tree) : allToJson ts = ts.map toJson := by
  induction ts with
  | nil => rfl
  | cons t ts ih => rw [allToJson, ih, List.map_cons]

mutual

/-- A tree is decoded from its JSON form, in whichever order the members of its nodes stand. -/
theorem Tree.decode_arranged (t : Tree) : decode (arranged style t.toJson) = .ok t := by
  cases t with
  | bare l =>
    have h := hasArranged_order style (l.nodup_members none)
    rw [toJson, arranged_obj, decode, decodeChildren_eq, h.lookup_children]
    exact decodeNode_of_hasArranged h none
  | branch l cs =>
    have h := hasArranged_order style (l.nodup_members (some (cs.map toJson)))
    rw [toJson, allToJson_eq_map, arranged_obj, decode, decodeChildren_eq, h.lookup_children]
    simp only [Option.map_some, List.map_map, decodeList, decodeItems_arranged 0 cs]
    exact decodeNode_of_hasArranged h (some cs)

/-- Trees are decoded from their JSON forms. -/
theorem Tree.decodeItems_arranged (index : Nat) (ts : List Tree) :
    decodeItems index (ts.map (arranged style ∘ toJson)) = .ok ts := by
  cases ts with
  | nil => rw [List.map_nil, decodeItems]
  | cons t ts =>
    rw [List.map_cons, decodeItems, Function.comp_apply, decode_arranged t,
      decodeItems_arranged (index + 1) ts, Decoded.under, Decoded.both]

end

/-! ## Artifacts -/

/-- The entries of a table of texts are decoded. -/
theorem decodeEntries_map_eq_ok (entries : List (String × String)) :
    decodeEntries (entries.map fun e => (e.1, .str e.2)) = .ok entries := by
  induction entries with
  | nil => rfl
  | cons e rest ih => rw [List.map_cons, decodeEntries, ih, decodeText, Decoded.under, Decoded.both]

/-- A table of texts is decoded. -/
theorem decodeTable_map_eq_ok (entries : List (String × String)) :
    decodeTable (.obj (entries.map fun e => (e.1, .str e.2))) = .ok (Table.ofList entries) := by
  rw [decodeTable, decodeEntries_map_eq_ok]
  rfl

namespace Artifact

/-- The members of an artifact have distinct names. -/
theorem nodup_members (a : Artifact) : (a.members.map Prod.fst).Nodup := by
  simp [members]

/-- The artifact with its roles in the order of a style. -/
def ordered (style : Style) (a : Artifact) : Artifact :=
  { a with roles := Table.ofList (style.order a.roles.entries) }

/-- The JSON form of an artifact is decoded, in whichever order the members stand, as the artifact
with its roles in that order. -/
theorem decode_arranged (a : Artifact) :
    decode (arranged style a.toJson) = .ok (a.ordered style) := by
  have h := hasArranged_order style a.nodup_members
  rw [toJson, arranged_obj]
  generalize (style.order a.members).map (fun m => (m.1, arranged style m.2)) = ms at h
  -- What is under each of the four names.
  have hnodes : ms.lookup "nodes" = some (.arr (a.nodes.map fun n => arranged style n.toJson)) := by
    rw [h]
    simp [members, arranged, arrangedItems_eq_map]
  have hedges : ms.lookup "edges" = some (.arr (a.edges.map fun e => arranged style e.toJson)) := by
    rw [h]
    simp [members, List.lookup_cons, arranged, arrangedItems_eq_map]
  have htree : ms.lookup "fileTree" = some (arranged style a.tree.toJson) := by
    rw [h]
    simp [members, List.lookup_cons]
  have hroles : ms.lookup "fileRoles" =
      some (.obj ((style.order a.roles.entries).map fun e => (e.1, .str e.2))) := by
    have hlookup : a.members.lookup "fileRoles" =
        some (.obj (a.roles.entries.map fun e => (e.1, .str e.2))) := by
      simp [members, List.lookup_cons]
    rw [h, hlookup, Option.map_some, arranged_obj, Style.order_map]
    simp [arranged]
  simp [decode, optional_eq_ok hnodes (decodeList_map_eq_ok Node.decode_arranged _),
    optional_eq_ok hedges (decodeList_map_eq_ok Edge.decode_arranged _),
    required_eq_ok htree a.tree.decode_arranged,
    optional_eq_ok hroles (decodeTable_map_eq_ok _), Decoded.both, ordered]

/-- The JSON form of an artifact is decoded as the artifact. -/
theorem decode_toJson (a : Artifact) : decode a.toJson = .ok a := by
  have hdecode : decode (arranged .compact a.toJson) = .ok (a.ordered .compact) := decode_arranged a
  rw [arranged_compact] at hdecode
  rw [hdecode, ordered]
  exact congrArg (fun roles => Except.ok { a with roles := roles }) a.roles.ofList_entries

end Artifact

end RepoGraph
