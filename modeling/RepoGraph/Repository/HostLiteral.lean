import RepoGraph.Text.Hex
import RepoGraph.Text.Split

/-!
# Address literals

What may stand between the square brackets of a URL's host: an address of version 6, perhaps with a
zone, or one of a future version.
-/

namespace RepoGraph.HostLiteral

open RepoGraph.Text

/-- The character is one of the ten ordinary digits. -/
def isDigit (c : Char) : Bool := '0' ≤ c && c ≤ '9'

/-- One of the four parts of an address of version 4: at most 255 and without a zero in front. -/
def isOctet (s : List Char) : Bool :=
  !s.isEmpty && s.length ≤ 3 && s.all isDigit && (s.length = 1 || s.head? != some '0') &&
    s.foldl (fun n c => n * 10 + (c.toNat - 0x30)) 0 ≤ 255

/-- An address of version 4. -/
def isVersion4 (s : List Char) : Bool :=
  let parts := splitOn '.' s
  parts.length == 4 && parts.all isOctet

/-- One of the groups of an address of version 6. -/
def isGroup (s : List Char) : Bool :=
  !s.isEmpty && s.length ≤ 4 && s.all fun c => (hexValue? c).isSome

/-- The groups of an address of version 6: one that ends in an address of version 4 has two groups
in its place. -/
def groups? (s : List Char) : Option (List (List Char)) :=
  let parts := splitOn ':' s
  let last := parts.getLast?.getD []
  if parts.length < 3 then none
  else if last.contains '.' then
    if isVersion4 last then some (parts.dropLast ++ [['0'], ['0']]) else none
  else some parts

/-- The groups make an address: eight of them, or fewer with one gap for the missing ones, which may
stand at either end. -/
def areAddress (parts : List (List Char)) : Bool :=
  let inner := (parts.drop 1).dropLast
  match inner.findIdx? (·.isEmpty) with
  | none => parts.length == 8 && parts.all isGroup
  | some i =>
    let front := parts.take (i + 1)
    let back := parts.drop (i + 2)
    let front := if front == [[]] then [] else front
    let back := if back == [[]] then [] else back
    parts.length ≤ 9 && front.length + back.length ≤ 7 && front.all isGroup && back.all isGroup

/-- An address of version 6, with a zone that is not empty if there is a percent sign. -/
def isVersion6 (s : List Char) : Bool :=
  let (address, zoneFits) := match cut? '%' s with
    | some (address, zone) => (address, !zone.isEmpty && !zone.contains '%')
    | none => (s, true)
  zoneFits && !s.contains '/' && match groups? address with
    | some parts => areAddress parts
    | none => false

/-- An address of a future version: its number, a point and some text. -/
def isFuture (s : List Char) : Bool :=
  match s with
  | 'v' :: cs =>
    let number := cs.takeWhile fun c => (hexValue? c).isSome
    !number.isEmpty && match cs.drop number.length with
      | '.' :: _ :: _ => true
      | _ => false
  | _ => false

/-- The text may stand between the brackets of a host. -/
def isValid (s : List Char) : Bool := if s.head? = some 'v' then isFuture s else isVersion6 s

end RepoGraph.HostLiteral
