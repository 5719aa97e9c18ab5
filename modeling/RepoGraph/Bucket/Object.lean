import RepoGraph.Graph.Encoding
import RepoGraph.Settings.Basic
import RepoGraph.Text.Split

/-!
# Copies of artifacts in a bucket

Artifacts are copied to a bucket when settings name one. The key of a copy depends on the job alone,
so that a job that is run again replaces its copy.
-/

namespace RepoGraph

open RepoGraph.Text

/-- An object to be put into a bucket. -/
structure BucketObject where
  /-- The name of the bucket. -/
  bucket : String
  /-- The key in the bucket. -/
  key : String
  /-- The region of the bucket, if it is set. -/
  region : Option String
  /-- How the object is encrypted where it is stored. -/
  encryption : String
  /-- The kind of document. -/
  contentType : Option String
  /-- The octets. -/
  body : List UInt8
  deriving DecidableEq, Repr

/-- Where the address of an object is. -/
def BucketObject.uri (o : BucketObject) : String := "s3://" ++ o.bucket ++ "/" ++ o.key

/-- A bucket for copies. -/
structure Bucket where
  /-- The name of the bucket. -/
  name : String
  /-- What stands before every key. -/
  keyStart : String
  /-- The region of the bucket, if it is set. -/
  region : Option String
  deriving DecidableEq, Repr

namespace Bucket

/-- The bucket that settings name. -/
def ofSettings? (s : Settings) : Option Bucket :=
  match s.s3Bucket with
  | some name => if name = "" then none else some ⟨name, s.s3Prefix, s.awsRegion⟩
  | none => none

/-- The key for a name: with one slash after what stands before every key. -/
def key (b : Bucket) (name : String) : String :=
  String.ofList (dropRightWhile (· == '/') b.keyStart.toList ++
    '/' :: name.toList.dropWhile (· == '/'))

/-- The object for some octets. -/
def object (b : Bucket) (name : String) (body : List UInt8) (contentType : Option String) :
    BucketObject :=
  { bucket := b.name
    key := b.key name
    region := b.region
    encryption := "AES256"
    contentType := contentType.filter (· != "")
    body := body }

/-- The object for the artifact of a job. -/
def artifactObject (b : Bucket) (job : String) (a : Artifact) : BucketObject :=
  b.object (job ++ "/artifact.json") (Utf8.encode a.stableText.toList) (some "application/json")

end Bucket

end RepoGraph
