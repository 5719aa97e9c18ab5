import RepoGraph.Decimal.Reading
import RepoGraph.Graph.Artifact
import RepoGraph.Json.Basic

/-!
# Artifacts from JSON

Decoding takes a JSON value apart and reports everything that is wrong with it, each fault with its
place. Members that are not asked for are ignored. A whole number may also come as a truth value, as
a floating-point number without fraction, or as a text.
-/

namespace RepoGraph

/-- What is wrong with a value. -/
inductive Mismatch
  /-- A member that must be there is missing. -/
  | missing
  /-- The value is no object. -/
  | notObject
  /-- The value is no text. -/
  | notText
  /-- The value is no whole number. -/
  | notInteger
  /-- The text writes no whole number. -/
  | notIntegerText
  /-- The number has a fraction. -/
  | fraction
  /-- The number is infinite or not a number. -/
  | notFinite
  /-- The number has too many digits. -/
  | tooLarge
  /-- The value is none of those allowed. -/
  | notAllowed
  /-- The value is no list. -/
  | notList
  /-- The value is no table. -/
  | notTable
  deriving DecidableEq, Repr

/-- A step from a value into a part of it. -/
inductive Place
  /-- Into a member. -/
  | member (name : String)
  /-- Into an item of a list. -/
  | item (index : Nat)
  deriving DecidableEq, Repr

/-- A mismatch with its place. -/
structure DecodingFault where
  /-- The steps to the place. -/
  path : List Place
  /-- What is wrong there. -/
  mismatch : Mismatch
  deriving DecidableEq, Repr

/-- A decoded value, or all that is wrong. -/
abbrev Decoded (α : Type) := Except (List DecodingFault) α

namespace Decoded

variable {α β γ : Type}

/-- Nothing but one mismatch. -/
def mismatch (m : Mismatch) : Decoded α := .error [⟨[], m⟩]

/-- The result of a part, with its faults placed. -/
def under (place : Place) : Decoded α → Decoded α
  | .ok a => .ok a
  | .error faults => .error (faults.map fun f => { f with path := place :: f.path })

/-- The results of two parts, or the faults of both. -/
def both (f : α → β → γ) : Decoded α → Decoded β → Decoded γ
  | .ok a, .ok b => .ok (f a b)
  | .ok _, .error es => .error es
  | .error es, .ok _ => .error es
  | .error es, .error fs => .error (es ++ fs)

end Decoded

/-- The member under the first of some names that the object has. -/
def findMember (names : List String) (members : List (String × Json)) : Option (String × Json) :=
  names.findSome? fun n => (members.lookup n).map fun v => (n, v)

/-- The value of a member that must be there; it is missed under its first name. -/
def required {α : Type} (names : List String) (decode : Json → Decoded α)
    (members : List (String × Json)) : Decoded α :=
  match findMember names members with
  | some (name, v) => (decode v).under (.member name)
  | none => Decoded.under (.member (names.headD "")) (Decoded.mismatch .missing)

/-- The value of a member that may be left out. -/
def optional {α : Type} (names : List String) (absent : α) (decode : Json → Decoded α)
    (members : List (String × Json)) : Decoded α :=
  match findMember names members with
  | some (name, v) => (decode v).under (.member name)
  | none => .ok absent

/-- A text. -/
def decodeText : Json → Decoded String
  | .str s => .ok s
  | _ => Decoded.mismatch .notText

/-- No value, or what `decode` makes of it. -/
def orNull {α : Type} (decode : Json → Decoded α) : Json → Decoded (Option α)
  | .null => .ok none
  | v => (decode v).map some

/-- One of some names. -/
def decodeName {α : Type} (ofName? : String → Option α) : Json → Decoded α
  | .str s =>
    match ofName? s with
    | some a => .ok a
    | none => Decoded.mismatch .notAllowed
  | _ => Decoded.mismatch .notAllowed

/-- The items of a list from an index on. -/
def decodeItems {α : Type} (decode : Json → Decoded α) (index : Nat) :
    List Json → Decoded (List α)
  | [] => .ok []
  | v :: vs =>
    Decoded.both List.cons ((decode v).under (.item index)) (decodeItems decode (index + 1) vs)

/-- A list. -/
def decodeList {α : Type} (decode : Json → Decoded α) : Json → Decoded (List α)
  | .arr items => decodeItems decode 0 items
  | _ => Decoded.mismatch .notList

/-- The entries of a table of texts. -/
def decodeEntries : List (String × Json) → Decoded (List (String × String))
  | [] => .ok []
  | (name, v) :: rest =>
    Decoded.both (fun t entries => (name, t) :: entries) ((decodeText v).under (.member name))
      (decodeEntries rest)

/-- A table of texts. -/
def decodeTable : Json → Decoded (Table String)
  | .obj members => (decodeEntries members).map Table.ofList
  | _ => Decoded.mismatch .notTable

namespace WholeNumber

open RepoGraph.Decimal RepoGraph.Text

/-- A whole number in its plain form: no sign but a minus, no zero in front. -/
def ofPlain (s : List Char) : Decoded Int :=
  let (negative, ds) := match s with
    | '-' :: cs => (true, cs)
    | cs => (false, cs)
  if ds.isEmpty || !ds.all isDigit || (ds.head? = some '0' && ds.length ≠ 1) then
    Decoded.mismatch .notIntegerText
  else if digitLimit < ds.length then Decoded.mismatch .tooLarge
  else
    let n : Int := digitsValue ds
    .ok (if negative then -n else n)

/-- The number without the zeros and underscores in front of its first other digit. -/
def dropZeros : List Char → Option (List Char)
  | '0' :: cs => go '0' cs
  | c :: cs => if isDigit c || c == '-' then some (c :: cs) else none
  | [] => none
where
  /-- The rest after a zero or an underscore, which stands if a point or nothing follows. -/
  go (last : Char) : List Char → Option (List Char)
    | [] => some [last]
    | c :: cs =>
      if c = '0' ∨ c = '_' then go c cs
      else if isDigit c then some (c :: cs)
      else if c = '.' then some (last :: c :: cs)
      else none

/-- The number without a point and only zeros after it. -/
def dropPoint (s : List Char) : List Char :=
  match cut? '.' s with
  | some (whole, fraction) => if fraction.all (· == '0') then whole else s
  | none => s

/-- The number without underscores, if each stands between two other characters. -/
def dropMarks (s : List Char) : List Char :=
  if s.head? = some '_' || s.getLast? = some '_' || occurs ['_', '_'] s then s
  else s.filter (· != '_')

/-- The whole number that a text writes: with white space around it, with a plus, with zeros in
front, with a fraction of zeros, and with underscores. -/
def ofText (text : String) : Decoded Int :=
  let s := trimNumber text.toList
  match ofPlain s with
  | .ok n => .ok n
  | .error [⟨[], .tooLarge⟩] => Decoded.mismatch .tooLarge
  | .error _ =>
    let unsigned := match s with
      | '+' :: '-' :: _ => none
      | '+' :: cs => some cs
      | cs => some cs
    match unsigned.bind dropZeros with
    | some t => ofPlain (dropMarks (dropPoint t))
    | none => Decoded.mismatch .notIntegerText

/-- The whole number that a floating-point number is, if it is one of 64 bits. -/
def ofFloat (x : Float) : Decoded Int :=
  match Magnitude.ofBits x.toBits.toNat with
  | (negative, .finite m q) =>
    let scale := Nat.pow 2 (-q).toNat
    if m % scale ≠ 0 then Decoded.mismatch .fraction
    else
      let n : Nat := if 0 ≤ q then m * Nat.pow 2 q.toNat else m / scale
      if Nat.pow 2 63 ≤ n then Decoded.mismatch .tooLarge
      else .ok (if negative then -n else n)
  | _ => Decoded.mismatch .notFinite

/-- A whole number. -/
def decode : Json → Decoded Int
  | .int n => .ok n
  | .bool b => .ok (if b then 1 else 0)
  | .float x => ofFloat x
  | .str s => ofText s
  | _ => Decoded.mismatch .notInteger

end WholeNumber

/-- A file record. -/
def FileRecord.decode : Json → Decoded FileRecord
  | .obj members =>
    Decoded.both (fun path r => ⟨path, r.1, r.2⟩) (required ["path"] decodeText members)
      (Decoded.both Prod.mk (optional ["content"] none (orNull decodeText) members)
        (optional ["size"] none (orNull WholeNumber.decode) members))
  | _ => Decoded.mismatch .notObject

/-- A node. -/
def Node.decode : Json → Decoded Node
  | .obj members =>
    let size := optional ["size"] none (orNull WholeNumber.decode) members
    let role := optional ["role"] none (orNull decodeText) members
    let language := optional ["language"] none (orNull decodeText) members
    let path := required ["path"] decodeText members
    let kind := optional ["type"] NodeKind.file (decodeName NodeKind.ofName?) members
    let label := required ["label"] decodeText members
    let id := required ["id"] decodeText members
    let known := Decoded.both Prod.mk language (Decoded.both Prod.mk role size)
    Decoded.both (fun (id, label) (kind, path, language, role, size) =>
        ⟨id, label, kind, path, language, role, size⟩)
      (Decoded.both Prod.mk id label)
      (Decoded.both Prod.mk kind (Decoded.both Prod.mk path known))
  | _ => Decoded.mismatch .notObject

/-- An edge. -/
def Edge.decode : Json → Decoded Edge
  | .obj members =>
    let kind := optional ["type"] ReferenceKind.imports (decodeName ReferenceKind.ofName?) members
    let target := required ["target"] decodeText members
    let source := required ["source"] decodeText members
    Decoded.both (fun id (source, target, kind) => ⟨id, source, target, kind⟩)
      (required ["id"] decodeText members)
      (Decoded.both Prod.mk source (Decoded.both Prod.mk target kind))
  | _ => Decoded.mismatch .notObject

/-- The tree of a node with what it lists. -/
def Tree.ofParts (label : TreeLabel) : Option (List Tree) → Tree
  | some children => .branch label children
  | none => .bare label

/-- A node of a tree, given the result for its children. -/
def Tree.decodeNode (members : List (String × Json)) (children : Decoded (Option (List Tree))) :
    Decoded Tree :=
  let name := required ["name"] decodeText members
  let path := required ["path"] decodeText members
  let kind := required ["type"] (decodeName TreeKind.ofName?) members
  let language := optional ["language"] none (orNull decodeText) members
  Decoded.both (fun (name, path, kind) (children, language) =>
      Tree.ofParts ⟨name, path, kind, language⟩ children)
    (Decoded.both Prod.mk name (Decoded.both Prod.mk path kind))
    (Decoded.both Prod.mk children language)

mutual

/-- A tree. -/
def Tree.decode : Json → Decoded Tree
  | .obj members => Tree.decodeNode members (Tree.decodeChildren members)
  | _ => Decoded.mismatch .notObject

/-- The children that the members of a node list. -/
def Tree.decodeChildren : List (String × Json) → Decoded (Option (List Tree))
  | [] => .ok none
  | (name, v) :: rest =>
    if name = "children" then (Tree.decodeList v).under (.member "children")
    else Tree.decodeChildren rest

/-- A list of trees, or none. -/
def Tree.decodeList : Json → Decoded (Option (List Tree))
  | .null => .ok none
  | .arr items => (Tree.decodeItems 0 items).map some
  | _ => Decoded.mismatch .notList

/-- The trees of a list from an index on. -/
def Tree.decodeItems (index : Nat) : List Json → Decoded (List Tree)
  | [] => .ok []
  | v :: vs =>
    Decoded.both List.cons ((Tree.decode v).under (.item index)) (Tree.decodeItems (index + 1) vs)

end

/-- An artifact. -/
def Artifact.decode : Json → Decoded Artifact
  | .obj members =>
    let nodes := optional ["nodes"] [] (decodeList Node.decode) members
    let edges := optional ["edges"] [] (decodeList Edge.decode) members
    let tree := required ["fileTree", "file_tree"] Tree.decode members
    let roles := optional ["fileRoles", "file_roles"] Table.empty decodeTable members
    Decoded.both (fun (nodes, edges) (tree, roles) => ⟨nodes, edges, tree, roles⟩)
      (Decoded.both Prod.mk nodes edges) (Decoded.both Prod.mk tree roles)
  | _ => Decoded.mismatch .notObject

end RepoGraph
