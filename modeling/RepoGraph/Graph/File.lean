/-!
# Files of a snapshot

A file record is a path with what is known of the file: its text, which is missing when it was never
fetched or could not be, and its size.
-/

namespace RepoGraph

/-- One file of a snapshot. -/
structure FileRecord where
  /-- The path. -/
  path : String
  /-- The text, if it was fetched. -/
  content : Option String := none
  /-- The size in octets, if it is known. -/
  size : Option Int := none
  deriving DecidableEq, Repr

/-- The text of the file, if it has one that is not empty. -/
def FileRecord.text? (f : FileRecord) : Option String := f.content.filter (· != "")

end RepoGraph
