import RepoGraph.Document
import RepoGraph.Path.Selection
import RepoGraph.Snapshot.Basic
import RepoGraph.Text.Base64
import RepoGraph.Text.Percent

/-!
# Snapshots from GitHub

`GitHub.source` gets snapshots through the interface of a GitHub server. The description of a
repository and the list of its files must be had for anything to go on; their faults are failures.
The texts are fetched several at a time, and a text that cannot be had leaves its file in the
snapshot (`readContent`); but where the library cannot make a text of a response with success, the
whole fetch fails, since the text is asked for after the faults of the request are dealt with.
`GitHub.file` gets one text in the way that tells a directory and a file without text apart.
-/

namespace RepoGraph

open RepoGraph.Text

/-- A GitHub server. -/
structure GitHub where
  /-- The address of its interface. -/
  address : String := "https://api.github.com"
  /-- The token that is sent along, if there is one. -/
  token : Option String := none

namespace GitHub

/-- The server that settings name. -/
def ofSettings (s : Settings) : GitHub := ⟨s.githubApiUrl, s.githubToken⟩

/-- The form in which a document is asked for. -/
inductive Form
  /-- As JSON. -/
  | json
  /-- As it is. -/
  | raw

/-- The name of a form. -/
def Form.name : Form → String
  | json => "application/vnd.github.v3+json"
  | raw => "application/vnd.github.v3.raw"

/-- What the token stands behind. -/
def authorization? (g : GitHub) : Option String :=
  (g.token.filter (· != "")).map ("Bearer " ++ ·)

/-- A request for what is at a path below a repository. -/
def request (g : GitHub) (form : Form) (r : Repository) (below : String)
    (query : Option String := none) : Http.Request :=
  { base := String.ofList (dropRightWhile (· == '/') g.address.toList)
    path := "/repos/" ++ r.owner ++ "/" ++ r.name ++ below
    query := query
    accept := form.name
    agent := "graphyy/0.1.0"
    authorization := g.authorization? }

/-- A path with all but slashes and unreserved characters encoded. -/
def pathText (path : String) : String :=
  String.ofList (Percent.encode (fun c => Percent.isUnreserved c || c == '/') path.toList)

/-- The name of a branch with all but unreserved characters encoded. -/
def branchText (branch : String) : String :=
  String.ofList (Percent.encode Percent.isUnreserved branch.toList)

/-- Where the text of a file is, below its repository. -/
def contentsPath (path : String) : String := "/contents/" ++ pathText path

/-- A repository is described by its own address. -/
def describeRequest (g : GitHub) (r : Repository) : Http.Request := g.request .json r ""

/-- The list of the files at a branch is asked for as a whole. -/
def listRequest (g : GitHub) (r : Repository) (branch : String) : Http.Request :=
  g.request .json r ("/git/trees/" ++ branchText branch) (some "recursive=1")

/-- A file is asked for together with what kind of file it is. -/
def fileRequest (g : GitHub) (r : Repository) (path : String) : Http.Request :=
  g.request .json r (contentsPath path)

/-- The text of a file is asked for as it is. -/
def contentRequest (g : GitHub) (r : Repository) (path : String) : Http.Request :=
  g.request .raw r (contentsPath path)

/-- The failure for a request without a response. -/
def transportFailure (describe : String → FetchFault) : Http.Fault → Failure
  | .transport _ text => .fetch (describe text)
  | .address text => .address text

/-- The response to a request. -/
def send (request : Http.Request) (describe : String → FetchFault) : Action Http.Response :=
  Action.demand (.fetch request) fun reply => reply.mapError (transportFailure describe)

/-- The text of a member, if it is there and not empty, or another text. -/
def memberText (value : Json) (name fallback : String) : String :=
  match (value.get? name).filter Json.truthy with
  | some v => v.shown
  | none => fallback

/-- What a description tells about a repository: what it leaves out is as it was asked for. -/
def infoOf (r : Repository) (description : Json) : RepositoryInfo :=
  let owner := (description.get? "owner").getD .null
  { repository := ⟨memberText owner "login" r.owner, memberText description "name" r.name⟩
    fullName := memberText description "full_name" r.fullName
    branch := memberText description "default_branch" "main" }

/-- What a response tells about a repository. -/
def readDescription (r : Repository) (response : Http.Response) : Except Failure RepositoryInfo :=
  if response.status = 404 then .error (.fetch (.noRepository r.owner r.name))
  else if response.status = 403 then .error (.fetch .rateLimit)
  else if !response.isSuccess then .error (.fetch (.status response.status))
  else do
    match ← Document.json response.body with
    | .obj members => return infoOf r (.obj members)
    | _ => throw (.fetch .payload)

/-- Tells about a repository. -/
def describe (g : GitHub) (r : Repository) : Action RepositoryInfo := do
  let response ← send (g.describeRequest r) .request
  Action.ofExcept (readDescription r response)

/-- A size in the list, where a truth value counts as a number. -/
def sizeOf? : Json → Option Int
  | .int n => some n
  | .bool b => some (if b then 1 else 0)
  | _ => none

/-- The file that an item of the list stands for, if it may belong to a snapshot. -/
def entryOf? (item : Json) : Option TreeEntry :=
  match item.get? "type", item.get? "path" with
  | some (.str "blob"), some (.str path) =>
    if Path.isSelectable path then some ⟨path, (item.get? "size").bind sizeOf?⟩ else none
  | _, _ => none

/-- The items in a response, and whether they are all there are. -/
def readList (response : Http.Response) : Except Failure (List Json × Bool) :=
  if !response.isSuccess then .error (.fetch (.listStatus response.status))
  else do
    let value ← Document.json response.body
    match value.get? "tree" with
    | some (.arr items) => return (items, !((value.get? "truncated").getD .null).truthy)
    | _ => throw (.fetch .noTree)

/-- Lists the files of a repository at a branch, in the order of the server. -/
def list (g : GitHub) (r : Repository) (branch : String) : Action (List TreeEntry) := do
  let response ← send (g.listRequest r branch) .listRequest
  let (items, isComplete) ← Action.ofExcept (readList response)
  unless isComplete do
    Action.log .warning .snapshot "github_tree_truncated"
      [("repo", .str r.fullName), ("ref", .str branch), ("entries", .int items.length)]
  return items.filterMap entryOf?

/-- The octets that a text in base 64 stands for, where line feeds do not count. Unless they are in
UTF-8, and not none, the file has no text. -/
def textOfBase64 (path encoded : String) : Except Failure String :=
  let chars := encoded.toList.filter (· != '\n')
  if chars.any fun c => 0x7F < c.toNat then .error .notAscii
  else
    match Base64.decode chars with
    | .error _ => .error (.fetch (.noText path))
    | .ok octets =>
      match Utf8.decode octets with
      | .ok (c :: cs) => .ok (String.ofList (c :: cs))
      | _ => .error (.fetch (.noText path))

/-- The text of a file in a response. -/
def readFile (path : String) (response : Http.Response) : Except Failure String :=
  if !response.isSuccess then .error (.fetch (.fileStatus path response.status))
  else do
    match ← Document.json response.body with
    | .arr _ => throw (.fetch (.directory path))
    | value =>
      match value.get? "encoding", (value.get? "content").filter Json.truthy with
      | some (.str "base64"), some content => textOfBase64 path content.shown
      | _, _ => throw (.fetch (.noText path))

/-- The text of one file. -/
def file (g : GitHub) (r : Repository) (path : String) : Action String := do
  let response ← send (g.fileRequest r path) .request
  Action.ofExcept (readFile path response)

/-- What came of a request for the text of a file. An address that cannot be sent is a failure, and
so is a response with success that the library makes no text of: `response.text` is read where no
fault is caught any more. -/
def readContent (e : TreeEntry) (reply : Except Http.Fault Http.Response) :
    Except Failure FetchOutcome :=
  match reply with
  | .error (.transport name text) => .ok { entry := e, error? := some (name ++ ": " ++ text) }
  | .error (.address text) => .error (.address text)
  | .ok response =>
    if !response.isSuccess then
      .ok { entry := e, error? := some ("HTTP " ++ toString response.status) }
    else
      match response.text with
      | .error f => .error (.outside f)
      | .ok text => .ok { entry := e, content? := if text = "" then none else some text }

/-- The text of the file is asked for. -/
def isAsked (e : TreeEntry) : Bool := Path.isFetched e.path e.size

/-- The outcomes for files, of which those that were asked for take the replies in turn. -/
def outcomes : List TreeEntry → List (Except Http.Fault Http.Response) →
    Except Failure (List FetchOutcome)
  | [], _ => .ok []
  | e :: es, replies =>
    if isAsked e then
      match replies with
      | [] => do return { entry := e } :: (← outcomes es [])
      | reply :: rest => do
        let outcome ← readContent e reply
        return outcome :: (← outcomes es rest)
    else do return { entry := e } :: (← outcomes es replies)

/-- Fetches the texts of files, so many at a time but at least one. -/
def contents (g : GitHub) (r : Repository) (entries : List TreeEntry) (limit : Int) :
    Action (List FetchOutcome) :=
  let requests := (entries.filter isAsked).map fun e => g.contentRequest r e.path
  Action.demand (.fetchAll (max 1 limit).toNat requests) fun replies =>
    outcomes entries replies.toList

/-- Sending a request leaves the store alone. -/
theorem detached_send (request : Http.Request) (describe : String → FetchFault) :
    (send request describe).IsDetached :=
  .demand rfl fun reply => .mapError reply fun f => by cases f <;> rfl

/-- A document is not JSON for reasons of its own. -/
theorem sparesJob_json (octets : List UInt8) : SparesJob (Document.json octets) :=
  .bind (.mapError _ fun _ => rfl) fun _ => .mapError _ fun _ => rfl

/-- A response is no description for reasons of its own. -/
theorem sparesJob_readDescription (r : Repository) (response : Http.Response) :
    SparesJob (readDescription r response) := by
  unfold readDescription
  split
  · exact .error rfl
  split
  · exact .error rfl
  split
  · exact .error rfl
  refine .bind (sparesJob_json _) fun value => ?_
  split
  · exact .ok _
  · exact .error rfl

/-- A response is no list for reasons of its own. -/
theorem sparesJob_readList (response : Http.Response) : SparesJob (readList response) := by
  unfold readList
  split
  · exact .error rfl
  refine .bind (sparesJob_json _) fun value => ?_
  split
  · exact .ok _
  · exact .error rfl

/-- A reply has no text for reasons of its own. -/
theorem sparesJob_readContent (e : TreeEntry) (reply : Except Http.Fault Http.Response) :
    SparesJob (readContent e reply) := by
  unfold readContent
  split
  · exact .ok _
  · exact .error rfl
  split
  · exact .ok _
  split
  · exact .error rfl
  · exact .ok _

/-- Replies have no texts for reasons of their own. -/
theorem sparesJob_outcomes (entries : List TreeEntry)
    (replies : List (Except Http.Fault Http.Response)) : SparesJob (outcomes entries replies) := by
  induction entries generalizing replies with
  | nil => exact .ok []
  | cons e es ih =>
    unfold outcomes
    split
    · cases replies with
      | nil => exact .bind (ih []) fun _ => .ok _
      | cons reply rest =>
        exact .bind (sparesJob_readContent e reply) fun _ => .bind (ih rest) fun _ => .ok _
    · exact .bind (ih replies) fun _ => .ok _

/-- Telling about a repository leaves the store alone. -/
theorem detached_describe (g : GitHub) (r : Repository) : (g.describe r).IsDetached :=
  .bind (detached_send _ _) fun response => .ofExcept (sparesJob_readDescription r response)

/-- Listing files leaves the store alone. -/
theorem detached_list (g : GitHub) (r : Repository) (branch : String) :
    (g.list r branch).IsDetached := by
  refine .bind (detached_send _ _) fun response =>
    .bind (.ofExcept (sparesJob_readList response)) fun listed => ?_
  obtain ⟨items, isComplete⟩ := listed
  cases isComplete with
  | true => exact .pure _
  | false => exact .bind (.log ..) fun _ => .pure _

/-- Fetching texts leaves the store alone. -/
theorem detached_contents (g : GitHub) (r : Repository) (entries : List TreeEntry) (limit : Int) :
    (g.contents r entries limit).IsDetached :=
  .demand rfl fun replies => sparesJob_outcomes entries replies.toList

/-- The server as a source of snapshots. -/
def source (g : GitHub) : Source :=
  { describe := g.describe
    list := g.list
    contents := g.contents
    outside_describe := fun r => (g.detached_describe r).asksOutside
    outside_list := fun r branch => (g.detached_list r branch).asksOutside
    outside_contents := fun r entries limit => (g.detached_contents r entries limit).asksOutside }

/-- A server fails for reasons of its own. -/
theorem sparesJobs_source (g : GitHub) : g.source.SparesJobs :=
  ⟨g.detached_describe, g.detached_list, g.detached_contents⟩

end GitHub

end RepoGraph
