import RepoGraph.Repository.HostLiteral
import RepoGraph.Text.Blank
import RepoGraph.Text.Quoted

/-!
# Repository URLs

`Repository.ofUrl?` reads the owner and the name of a repository off its URL on github.com. The
rules are those of URLs in general: tabs and line ends are dropped wherever they stand, scheme and
host may be in either case, and what the authority holds beside the host, parameters, query and
fragment do not count. What follows owner and name in the path does not count either, nor does
`.git` at the end of the name.
-/

namespace RepoGraph

open RepoGraph.Text

/-- A repository. -/
structure Repository where
  /-- The owner. -/
  owner : String
  /-- The name. -/
  name : String
  deriving DecidableEq, Repr

/-- The owner and the name, with a slash between them. -/
def Repository.fullName (r : Repository) : String := r.owner ++ "/" ++ r.name

/-- The parts of a URL that tell a repository. -/
structure Url where
  /-- The scheme, in lower case. -/
  scheme : List Char
  /-- What stands between the two slashes and the path: the host and what it is given with. -/
  authority : List Char
  /-- The path, without parameters of its last segment. -/
  path : List Char

namespace Url

/-- The characters that are dropped from a URL wherever they stand. -/
def isDropped (c : Char) : Bool := c == '\t' || c == '\r' || c == '\n'

/-- The character may stand in a scheme. -/
def isSchemeChar (c : Char) : Bool := c.isAlphanum || c == '+' || c == '-' || c == '.'

/-- The scheme at the front of a URL, in lower case, and what follows its colon; the scheme is empty
if there is none. -/
def takeScheme (s : List Char) : List Char × List Char :=
  match s, cut? ':' s with
  | c :: _, some (scheme, rest) =>
    if c.isAlpha && scheme.all isSchemeChar then (scheme.map Char.toLower, rest) else ([], s)
  | _, _ => ([], s)

/-- The character ends the authority. -/
def endsAuthority (c : Char) : Bool := c == '/' || c == '?' || c == '#'

/-- The authority at the front of a URL without scheme, and what follows it; the authority is empty
if there is none. -/
def takeAuthority (s : List Char) : List Char × List Char :=
  match after? ['/', '/'] s with
  | some rest => (rest.takeWhile (!endsAuthority ·), rest.dropWhile (!endsAuthority ·))
  | none => ([], s)

/-- The host of an authority as it is written there: what stands after the last `@` and between
brackets, or without brackets before a colon. -/
def hostOf (authority : List Char) : List Char :=
  let s := afterLast '@' authority
  match cut? '[' s with
  | some (_, rest) => before ']' rest
  | none => before ':' s

/-- Nothing stands between the last `@` of an authority and a bracket, and nothing but a port after
the bracket that closes it. -/
def bracketsSurroundHost (authority : List Char) : Bool :=
  match cut? '[' (afterLast '@' authority) with
  | some (front, rest) =>
    front.isEmpty && match cut? ']' rest with
      | some (_, port) => port.head?.all (· == ':')
      | none => true
  | none => true

/-- An authority has brackets of both kinds or none; where it has some, in whichever part, its host
must be an address. -/
def bracketsFit (authority : List Char) : Bool :=
  let opens := authority.contains '['
  let closes := authority.contains ']'
  opens == closes &&
    (!opens || bracketsSurroundHost authority && HostLiteral.isValid (hostOf authority))

/-- The characters that are equivalent to a text with one of the marks `/`, `?`, `#`, `@`, `:`. -/
def markLookalikes : List Nat :=
  [0x2047, 0x2048, 0x2049, 0x2100, 0x2101, 0x2105, 0x2106, 0x2A74, 0xFE13, 0xFE16, 0xFE55, 0xFE56,
   0xFE5F, 0xFE6B, 0xFF03, 0xFF0F, 0xFF1A, 0xFF1F, 0xFF20]

/-- No character of an authority hides a mark. -/
def marksFit (authority : List Char) : Bool :=
  authority.all fun c => !markLookalikes.contains c.toNat

/-- The path without the parameters of its last segment. -/
def dropParameters (path : List Char) : List Char :=
  let last := afterLast '/' path
  path.take (path.length - last.length) ++ before ';' last

/-- The parts of a text that should be a URL, if it is one. -/
def parse? (text : List Char) : Option Url :=
  let s := (text.dropWhile (·.toNat ≤ 0x20)).filter (!isDropped ·)
  let (scheme, rest) := takeScheme s
  let (authority, rest) := takeAuthority rest
  if bracketsFit authority && marksFit authority then
    some ⟨scheme, authority, dropParameters (before '?' (before '#' rest))⟩
  else none

/-- The host of a URL, in lower case. -/
def host (u : Url) : List Char := (hostOf u.authority).map Char.toLower

end Url

namespace Repository

/-- The host of repositories. -/
def hostName : List Char := ['g', 'i', 't', 'h', 'u', 'b', '.', 'c', 'o', 'm']

/-- The schemes under which repositories are found. -/
def schemes : List (List Char) := [['h', 't', 't', 'p'], ['h', 't', 't', 'p', 's']]

/-- The ending of a name that does not count. -/
def nameEnding : List Char := ['.', 'g', 'i', 't']

/-- The repository at a path: the first two segments, neither of which may be empty. -/
def ofPath? (path : List Char) : Option Repository :=
  match splitOn '/' (path.dropWhile (· == '/')) with
  | owner :: name :: _ =>
    let name := dropSuffix nameEnding name
    if owner.isEmpty || name.isEmpty then none
    else some ⟨String.ofList owner, String.ofList name⟩
  | _ => none

/-- The repository of a URL, if it is one of a repository. -/
def ofUrl? (url : String) : Option Repository :=
  (Url.parse? (trim url.toList)).bind fun u =>
    if schemes.contains u.scheme && u.host == hostName then ofPath? u.path else none

/-- The words for a URL that is not one of a repository. -/
def invalidUrlMessage (url : String) : String := "Invalid GitHub repository URL: " ++ quoted url

end Repository

end RepoGraph
