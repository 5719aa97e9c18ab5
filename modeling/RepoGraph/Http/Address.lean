import RepoGraph.Http.Basic
import RepoGraph.Text.Percent
import RepoGraph.Text.Quoted
import RepoGraph.Text.Split

/-!
# Addresses of requests

`Request.target` is the address that a library sends a request to: what may not stand in a path is
encoded, and dots among the segments are resolved. The program itself only writes requests, so that
nothing but the outer layer rests on this choice; statements about what is sent take the library as
a parameter.
-/

namespace RepoGraph.Http

open RepoGraph.Text

/-- The visible characters that are encoded in a path. -/
def encodedMarks : List Char := ['"', '#', '<', '>', '?', '\x60', '{', '}']

/-- The character may stand in a path as it is. -/
def isPathChar (c : Char) : Bool :=
  0x20 < c.toNat && c.toNat < 0x7F && !encodedMarks.contains c

/-- The place of the first control character. -/
def controlIndex? (s : List Char) : Option (Nat × Char) :=
  match s.findIdx? fun c => c.toNat < 0x20 || c.toNat = 0x7F with
  | some i => (s[i]?).map fun c => (i, c)
  | none => none

/-- The segments of a path without `.`, and with `..` and the segment before it taken out. -/
def resolveDots (done : List (List Char)) : List (List Char) → List (List Char)
  | [] => done.reverse
  | s :: rest =>
    if s = ['.'] then resolveDots done rest
    else if s = ['.', '.'] then
      match done with
      | [] => resolveDots [] rest
      | [[]] => resolveDots [[]] rest
      | _ :: above => resolveDots above rest
    else resolveDots (s :: done) rest

/-- The scheme and host of an address, and its path. -/
def splitBase (base : List Char) : List Char × List Char :=
  match cut? ':' base with
  | some (scheme, '/' :: '/' :: rest) =>
    (scheme ++ [':', '/', '/'] ++ rest.takeWhile (· != '/'), rest.dropWhile (· != '/'))
  | _ => (base, [])

/-- The address that is sent, or why it cannot be sent. -/
def Request.target (r : Request) : Except Fault String :=
  match controlIndex? r.path.toList with
  | some (i, c) =>
    .error (.address ("Invalid non-printable ASCII character in URL, " ++
      quoted (String.singleton c) ++ " at position " ++ toString i ++ "."))
  | none =>
    if 65536 < r.path.length then .error (.address "URL too long")
    else
      let (host, below) := splitBase r.base.toList
      let path := below ++ Percent.encode isPathChar r.path.toList
      let resolved := joinWith '/' (resolveDots [] (splitOn '/' path))
      .ok (String.ofList (host ++ resolved) ++
        match r.query with
        | some q => "?" ++ q
        | none => "")

end RepoGraph.Http
