import RepoGraph.Command.Run
import RepoGraph.Proofs.Analysis.Stages
import RepoGraph.Proofs.Graph.RoundTrip
import RepoGraph.Proofs.Naming

/-!
# What commands deliver

Every command delivers an answer that can be written, or fails with a name (`delivers_carryOut`),
and so there is an answer whatever goes wrong (`reaches_answer`). What came of a command can be
written since there is no floating-point number in it. Of a failed analysis there are words in any
case, and of other failures their names, for want of words.
-/

namespace RepoGraph

open RepoGraph.Json

/-- What came of the command can be written, or there are words for what went wrong. -/
def Answer.IsSound : Answer → Prop
  | success members => IsOrderly (fun _ => True) (.obj members)
  | failure _ message => message ≠ ""

/-! ## What the parts of a command deliver -/

/-- A document is JSON, or there is a name for what it is not. -/
theorem Document.conforms_json (octets : List UInt8) : Conforms Anything (Document.json octets) :=
  .bind (.mapError _ fun _ => .of_ne_outside nofun) fun _ _ =>
    .mapError _ fun _ => .of_ne_outside nofun

/-- Octets are a text, or there is a name for what they are not. -/
theorem Document.conforms_fileText (octets : List UInt8) :
    Conforms Anything (Document.fileText octets) :=
  .bind (.mapError _ fun _ => .of_ne_outside nofun) fun _ _ => trivial

/-- A text in base 64 is one of octets that are a text, or there is a name for what it is not. -/
theorem GitHub.conforms_textOfBase64 (path encoded : String) :
    Conforms Anything (textOfBase64 path encoded) := by
  unfold textOfBase64
  dsimp only
  split
  · exact .error (.of_ne_outside nofun)
  split
  · exact .error (.of_ne_outside nofun)
  split
  · trivial
  · exact .error (.of_ne_outside nofun)

/-- A response has the text of a file, or there is a name for what it has not. -/
theorem GitHub.conforms_readFile (path : String) (response : Http.Response) :
    Conforms Anything (readFile path response) := by
  unfold readFile
  split
  · exact .error (.of_ne_outside nofun)
  refine .bind (Document.conforms_json _) fun value _ => ?_
  split
  · exact .error (.of_ne_outside nofun)
  split
  · exact conforms_textOfBase64 ..
  · exact .error (.of_ne_outside nofun)

/-- A file is fetched. -/
theorem GitHub.delivers_file (g : GitHub) (r : Repository) (path : String) :
    Delivers Anything (g.file r path) := by
  refine .next (.demand fun reply _ => .mapError _ fun f => ?_) fun response =>
    .ofExcept (conforms_readFile path response)
  cases f with
  | transport name text => exact .of_ne_outside nofun
  | address text => exact .of_ne_outside nofun

namespace Lifecycle

/-- A job is looked up. -/
theorem delivers_find (id : String) : Delivers Anything (find id) := .transact (.find id)

/-- The artifact of a job is looked up. -/
theorem delivers_artifact (id : String) : Delivers Anything (artifact id) :=
  .transact (.artifact id)

/-- A job is created. -/
theorem delivers_create (url : String) (requestedBy : Option String) :
    Delivers Anything (create url requestedBy) := by
  unfold create
  split
  · exact .throw (.of_ne_outside nofun)
  · refine .next (.always (.any _)) fun _ => ?_
    exact .next (.transact (.insert _ _)) fun _ => .next (.log ..) fun _ => .pure trivial

/-- A job is claimed. -/
theorem delivers_claim (id : String) : Delivers Anything (claim id) := by
  unfold claim
  refine .next (.transact _) fun claimed => ?_
  split
  · exact .next (.log ..) fun _ => .pure trivial
  · exact .pure trivial

/-- The oldest job is claimed. -/
theorem delivers_claimOldestWithin (attempts : Nat) :
    Delivers Anything (claimOldestWithin attempts) := by
  induction attempts with
  | zero => exact .pure trivial
  | succ attempts ih =>
    unfold claimOldestWithin
    refine .next (.transact _) fun id? => ?_
    cases id? with
    | none => exact .pure trivial
    | some id =>
      refine .next (delivers_claim id) fun claimed => ?_
      cases claimed with
      | true => exact delivers_find id
      | false => exact .next (.log ..) fun _ => ih

end Lifecycle

/-- There are words for what went wrong with the job. -/
def Outcome.IsTold (o : Outcome) : Prop :=
  ∀ stage error recorded, o.ending = .failed stage error recorded → error ≠ ""

/-- There are words for what goes wrong with a claimed job. -/
theorem Analyser.reaches_runClaimed (a : Analyser) (id : String) :
    Reaches Outcome.IsTold (a.runClaimed id) := by
  refine Reaches.bind (.any _) fun processed _ => ?_
  cases processed with
  | ok report => exact .bind (.any _) fun _ _ => .pure nofun
  | error halt =>
    have hhalted : Reaches (fun ending => Outcome.IsTold ⟨id, ending⟩) (halted id halt) := by
      unfold halted
      split
      · exact .bind (.any _) fun _ _ => .pure nofun
      · refine .bind (.any _) fun _ _ => .bind (.any _) fun _ _ => .pure ?_
        rintro _ _ _ ⟨⟩
        exact haltMessage_ne_empty halt.cause
    exact hhalted.bind fun _ h => .pure h

/-- There are words for what goes wrong with a job. -/
theorem Analyser.reaches_run (a : Analyser) (id : String) :
    Reaches Outcome.IsTold (a.run id) := by
  refine Reaches.bind (.any _) fun claimed _ => ?_
  cases claimed with
  | error f => exact .bind (.any _) fun _ _ => .pure nofun
  | ok isClaimed =>
    cases isClaimed with
    | false => exact .bind (.any _) fun _ _ => .pure nofun
    | true => exact a.reaches_runClaimed id

/-- A report has an orderly form. -/
theorem Report.isOrderly_toJson (r : Report) : IsOrderly (fun _ => True) r.toJson := by
  have hcounts : IsOrderly (fun _ => True) (.obj [
      ("files", .int r.files), ("files_with_content", .int r.filesWithText),
      ("content_fetch_failures", .int r.failedFetches), ("nodes", .int r.nodes),
      ("edges", .int r.edges)]) := by
    refine .obj _ (by simp) ?_
    simp only [List.forall_mem_cons]
    exact ⟨.int _ trivial, .int _ trivial, .int _ trivial, .int _ trivial, .int _ trivial,
      List.forall_mem_nil _⟩
  refine .obj _ (by simp) ?_
  simp only [List.forall_mem_cons]
  exact ⟨.bool true, .str _, .str _, .str _, .str _, hcounts, .str _, .ofOption _,
    List.forall_mem_nil _⟩

/-- An outcome has an orderly form. -/
theorem Outcome.isOrderly_toJson (o : Outcome) : IsOrderly (fun _ => True) o.toJson := by
  have hreport : IsOrderly (fun _ => True) ((o.report?.map Report.toJson).getD .null) := by
    cases o.report? with
    | none => exact .null
    | some r => exact r.isOrderly_toJson
  refine .obj _ (by simp) ?_
  simp only [List.forall_mem_cons]
  exact ⟨.str _, .ofOption _, .bool _, .ofOption _, .ofOption _, .bool _, hreport,
    List.forall_mem_nil _⟩

/-- What is seen of a job has an orderly form. -/
theorem JobView.isOrderly_members (v : JobView) (more : List (String × Json))
    (hnodup : ((v.members ++ more).map Prod.fst).Nodup)
    (hmore : ∀ m ∈ more, IsOrderly (fun _ => True) m.2) :
    IsOrderly (fun _ => True) (.obj (v.members ++ more)) := by
  have hartifact : IsOrderly (fun _ => True) ((v.artifact.map Artifact.toJson).getD .null) := by
    cases v.artifact with
    | none => exact .null
    | some a => exact a.isOrderly_toJson fun _ _ _ _ => trivial
  have hrepository : IsOrderly (fun _ => True) (.obj [
      ("owner", .str v.job.repository.owner), ("name", .str v.job.repository.name),
      ("fullName", .str v.job.repository.fullName)]) := by
    refine .obj _ (by simp) ?_
    simp only [List.forall_mem_cons]
    exact ⟨.str _, .str _, .str _, List.forall_mem_nil _⟩
  refine .obj _ hnodup (List.forall_mem_append.mpr ⟨?_, hmore⟩)
  simp only [JobView.members, List.forall_mem_cons]
  exact ⟨.str _, .str _, .ofOption _, hartifact, hrepository, .str _, List.forall_mem_nil _⟩

/-- A job is looked at. -/
theorem Service.delivers_poll (id : String) : Delivers Anything (poll id) := by
  refine .next (Lifecycle.delivers_find id) fun job? => ?_
  cases job? with
  | none => exact .throw (.of_ne_outside nofun)
  | some job =>
    dsimp only
    split
    · exact .next (Lifecycle.delivers_artifact id) fun _ => .pure trivial
    · exact .pure trivial

/-- A job is waited for. -/
theorem Service.delivers_await (s : Service) (id : String) (budget : Option Float)
    (interval : Float) (pauses : Nat) : Delivers Anything (s.await id budget interval pauses) := by
  have huntil (deadline : Float) : Delivers Anything
      (Waited.untilDeadline timer (poll id) JobView.isFinal interval deadline pauses) := by
    induction pauses with
    | zero => exact .next (delivers_poll id) fun _ => .pure trivial
    | succ pauses ih =>
      refine .next (delivers_poll id) fun view => ?_
      dsimp only
      split
      · exact .pure trivial
      refine .next (.always (.any _)) fun time => ?_
      split
      · exact .pure trivial
      · exact .next (.always (.any _)) fun _ => ih
  refine .next (.next (.always (.any _)) fun _ => huntil _) fun waited => ?_
  dsimp only
  split
  · exact .next (.log ..) fun _ => .pure trivial
  · exact .pure trivial

/-- A repository is submitted, analysed beside this program and waited for. -/
theorem Service.delivers_analyseInline (s : Service) (url : String) (requestedBy : Option String)
    (budget : Option Float) (interval : Float) (pauses : Nat) :
    Delivers Anything (s.analyseInline url requestedBy budget interval pauses) := by
  refine .next (Lifecycle.delivers_create ..) fun job => .next (.always (.any _)) fun _ => ?_
  exact s.delivers_await ..

namespace Explain

/-- The language model is reached. -/
theorem delivers_openAccess (access : Access) : Delivers Anything (openAccess access) := by
  cases access with
  | given => exact .pure trivial
  | withKey key =>
    unfold openAccess
    dsimp only
    split
    · exact .throw (.of_ne_outside nofun)
    · refine .demand fun reply _ => ?_
      cases reply with
      | ok u => trivial
      | error text => exact .of_ne_outside nofun

/-- The language model answers. -/
theorem delivers_complete (key : Option String) (model prompt : String) :
    Delivers Anything (complete key model prompt) := by
  refine .demand fun reply _ => ?_
  unfold readAnswer
  split
  · exact .of_ne_outside nofun
  · dsimp only
    split
    · exact .of_ne_outside nofun
    · trivial

/-- A repository is explained. -/
theorem delivers_repository (a : Artifact) (fullName model : String) (access : Access) :
    Delivers Anything (repository a fullName model access) :=
  .next (delivers_openAccess access) fun _ => .next (.log ..) fun _ => delivers_complete ..

/-- A file is explained. -/
theorem delivers_file (path code fullName model : String) (access : Access) :
    Delivers Anything (file path code fullName model access) :=
  .next (delivers_openAccess access) fun _ => delivers_complete ..

/-- Some lines of a file are explained. -/
theorem delivers_snippet (path lines fullName model : String) (access : Access) :
    Delivers Anything (snippet path lines fullName model access) :=
  .next (delivers_openAccess access) fun _ => delivers_complete ..

end Explain

/-- A file is read. -/
theorem delivers_readOctets (path : String) : Delivers Anything (readOctets path) :=
  .demand fun _ _ => .mapError _ fun _ => .of_ne_outside nofun

namespace Command

/-! ## What commands deliver -/

/-- The graph of files that are listed in a document is built. -/
theorem delivers_buildSnapshot (path : String) : Delivers Answer.IsSound (buildSnapshot path) := by
  have hfiles (text : String) : Conforms Anything (snapshotOf text) := by
    refine .bind (.mapError _ fun _ => .of_ne_outside nofun) fun value _ => ?_
    cases value with
    | arr items => exact .mapM fun item => .mapError _ fun _ => .of_ne_outside nofun
    | _ => exact .error (.of_ne_outside nofun)
  refine .next (delivers_readOctets path) fun octets => ?_
  refine .next (.ofExcept (Document.conforms_fileText octets)) fun text => ?_
  refine .next (.ofExcept (hfiles text)) fun files => .next (.serialize _) fun _ => .pure ?_
  refine IsOrderly.obj _ (by simp) (List.forall_mem_singleton.mpr ?_)
  exact Artifact.isOrderly_toJson fun _ _ _ _ => trivial

/-- The answer to the analysis of a job can be written. -/
theorem isSound_answerOutcome {o : Outcome} (h : o.IsTold) : (answerOutcome o).IsSound := by
  have hclaim (error : String) : (answerOutcome.notClaimed o error).IsSound := by
    unfold answerOutcome.notClaimed
    show (if error = "" then _ else _) ≠ ""
    split
    · intro hnil
      have hlength := congrArg String.length hnil
      simp at hlength
    · assumption
  obtain ⟨id, ending⟩ := o
  cases ending with
  | completed report => exact report.isOrderly_toJson
  | failed stage error recorded => exact h stage error recorded rfl
  | notClaimed error => exact hclaim _
  | notProcessable error => exact hclaim _

/-- A worker analyses one job. -/
theorem delivers_workOnce (w : Worker) : Delivers Answer.IsSound (workOnce w) := by
  have honce : Delivers Anything w.runOnce := by
    refine .next (Lifecycle.delivers_claimOldestWithin _) fun job? => ?_
    cases job? with
    | none => exact .pure trivial
    | some job => exact .next (.log ..) fun _ => .next (.always (.any _)) fun _ => .pure trivial
  refine .next honce fun outcome? => ?_
  cases outcome? with
  | none =>
    refine .pure (IsOrderly.obj _ (by simp) ?_)
    simp only [List.forall_mem_cons]
    exact ⟨.int _ trivial, .null, List.forall_mem_nil _⟩
  | some outcome =>
    refine .pure (IsOrderly.obj _ (by simp) ?_)
    simp only [List.forall_mem_cons]
    exact ⟨.int _ trivial, outcome.isOrderly_toJson, List.forall_mem_nil _⟩

/-- A worker analyses jobs until it is stopped. -/
theorem delivers_workOn (w : Worker) : Delivers Answer.IsSound (workOn w) := by
  refine .next (.always (.any _)) fun analysed => ?_
  cases analysed with
  | none => exact .pure (IsOrderly.obj _ (by simp) (List.forall_mem_singleton.mpr .null))
  | some n =>
    exact .pure (IsOrderly.obj _ (by simp) (List.forall_mem_singleton.mpr (.int _ trivial)))

/-- A file of a repository is explained, or some lines of it. -/
theorem delivers_explainFile (s : Settings) (job : Job) (path : String)
    (copy lines : Option String) : Delivers Anything (explainFile s job path copy lines) := by
  have hcode : Delivers Anything (sourceText s job path copy) := by
    cases copy with
    | none => exact GitHub.delivers_file ..
    | some copy => exact .next (delivers_readOctets copy) fun _ => .pure trivial
  refine .next hcode fun code => ?_
  cases lines with
  | none => exact Explain.delivers_file ..
  | some spec =>
    refine .next (.ofExcept (.mapError _ fun _ => .of_ne_outside nofun)) fun range => ?_
    exact Explain.delivers_snippet ..

/-- The repository of a job is explained. -/
theorem delivers_explainRepository (s : Settings) (job : Job) :
    Delivers Anything (explainRepository s job) := by
  refine .next (Lifecycle.delivers_artifact job.id) fun artifact? => ?_
  cases artifact? with
  | none => exact .throw (.of_ne_outside nofun)
  | some a => exact Explain.delivers_repository ..

/-- A job is explained, or a file of its repository. -/
theorem delivers_explainJob (s : Settings) (id : String) (file copy lines : Option String) :
    Delivers Answer.IsSound (explainJob s id file copy lines) := by
  refine .next (Lifecycle.delivers_find id) fun job? => ?_
  cases job? with
  | none => exact .throw (.of_ne_outside nofun)
  | some job =>
    have hdone (text : String) : Delivers Answer.IsSound
        (pure (.success [("job_id", .str job.id), ("explanation", .str text)])) := by
      refine .pure (IsOrderly.obj _ (by simp) ?_)
      simp only [List.forall_mem_cons]
      exact ⟨.str _, .str _, List.forall_mem_nil _⟩
    dsimp only
    split
    · exact .next (.throw (.of_ne_outside nofun)) hdone
    · exact .next (delivers_explainRepository s job) hdone
    · exact .next (delivers_explainFile ..) hdone

/-- A command delivers an answer that can be written, or fails with a name. -/
theorem delivers_carryOut (s : Settings) (c : Command) :
    Delivers Answer.IsSound (c.carryOut s) := by
  have hopen : Delivers Anything (Action.demand (.openStore s.databaseUrl) id) :=
    .demand fun _ hreply => hreply
  cases c with
  | build snapshot => exact delivers_buildSnapshot snapshot
  | submit url requestedBy =>
    refine .next hopen fun _ => .next (Lifecycle.delivers_create ..) fun job => .pure ?_
    refine IsOrderly.obj _ (by simp [Service.submitted]) ?_
    simp only [Service.submitted, List.forall_mem_cons]
    exact ⟨.str _, .str _, List.forall_mem_nil _⟩
  | poll id =>
    refine .next hopen fun _ => .next (Service.delivers_poll id) fun view => .pure ?_
    have horderly := view.isOrderly_members [] (by simp [JobView.members]) (List.forall_mem_nil _)
    rwa [List.append_nil] at horderly
  | analyse url budget requestedBy =>
    have hinline := Service.delivers_analyseInline ⟨s⟩ url requestedBy budget
      Service.defaultInterval maxPauses
    refine .next hopen fun _ => ?_
    refine Delivers.next hinline fun waited => .pure ?_
    exact waited.view.isOrderly_members _ (by simp [JobView.members])
      (List.forall_mem_singleton.mpr (.bool _))
  | run id =>
    refine .next hopen fun _ => ?_
    refine (Delivers.always (Analyser.reaches_run _ id)).bind fun o ho => ?_
    exact .pure (isSound_answerOutcome ho)
  | worker once =>
    refine .next hopen fun _ => ?_
    cases once with
    | true => exact delivers_workOnce _
    | false => exact delivers_workOn _
  | explain id file copy lines => exact .next hopen fun _ => delivers_explainJob ..

/-- A command is answered, whatever goes wrong. -/
theorem reaches_answer (s : Settings) (c : Command) : Reaches Answer.IsSound (c.answer s) := by
  refine Reaches.bind (c.delivers_carryOut s).reaches_run fun result hresult => ?_
  cases result with
  | ok a => exact .pure hresult
  | error f => exact .pure (Failure.IsNamed.summary_ne_empty hresult)

end Command

end RepoGraph
