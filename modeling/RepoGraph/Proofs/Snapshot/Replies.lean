import RepoGraph.Proofs.Http
import RepoGraph.Proofs.World
import RepoGraph.Snapshot.GitHub

/-!
# Replies that end as declared

That a snapshot could not be fetched is a failure of its own, and the only one that questions to a
server are declared to end in (`IsDeclared`). They do so exactly where the reply can be read
(`isDeclared_iff_isReadable`): a status without success, a fault of the transport and a document of
another shape are all declared, but the body of a response with success is read as JSON, and the
content of a file as ASCII, and the failures of that are passed on as they are
(`not_isDeclared_of_malformed_body`).
-/

namespace RepoGraph

variable {α β : Type}

/-- The result is a value, or the failure that a snapshot could not be fetched. -/
def IsDeclared (r : Except Failure α) : Prop := ∀ f, r = .error f → ∃ fault, f = .fetch fault

namespace IsDeclared

/-- A value is no failure. -/
theorem ok (a : α) : IsDeclared (.ok a) := nofun

/-- The one failure that is declared. -/
theorem error_iff {f : Failure} :
    IsDeclared (.error f : Except Failure α) ↔ ∃ fault, f = .fetch fault := by
  constructor
  · exact fun h => h f rfl
  · rintro h _ ⟨⟩
    exact h

/-- The snapshot could not be fetched. -/
theorem fetch (fault : FetchFault) : IsDeclared (.error (.fetch fault) : Except Failure α) :=
  error_iff.mpr ⟨fault, rfl⟩

/-- Another failure is not declared. -/
theorem not_error {f : Failure} (h : ∀ fault, f ≠ .fetch fault) :
    ¬IsDeclared (.error f : Except Failure α) := by
  rw [error_iff, not_exists]
  exact h

/-- Of two parts, the first one is declared, and the second one wherever it is reached. -/
theorem bind_iff {x : Except Failure α} {f : α → Except Failure β} :
    IsDeclared (x >>= f) ↔ IsDeclared x ∧ ∀ a, x = .ok a → IsDeclared (f a) := by
  cases x with
  | ok a =>
    refine ⟨fun h => ⟨ok a, ?_⟩, fun h => h.2 a rfl⟩
    rintro _ ⟨⟩
    exact h
  | error e =>
    show IsDeclared (.error e) ↔ _
    rw [error_iff, error_iff]
    exact ⟨fun h => ⟨h, nofun⟩, And.left⟩

/-- With failures of another sort, only values are declared. -/
theorem exists_of_mapError {ε : Type} {x : Except ε α} {cause : ε → Failure}
    (hcause : ∀ e fault, cause e ≠ .fetch fault) (h : IsDeclared (x.mapError cause)) :
    ∃ a, x = .ok a := by
  cases x with
  | ok a => exact ⟨a, rfl⟩
  | error e => exact absurd h (not_error (hcause e))

/-- A document is declared where it is one. -/
theorem json_iff {octets : List UInt8} :
    IsDeclared (Document.json octets) ↔ ∃ value, Document.json octets = .ok value := by
  constructor
  · intro h
    obtain ⟨htext, hvalue⟩ := bind_iff.mp h
    obtain ⟨text, htext⟩ := exists_of_mapError nofun htext
    have hread : Document.textOr (Document.jsonText octets) = .ok text := by
      rw [htext]
      rfl
    obtain ⟨value, hvalue⟩ := exists_of_mapError nofun (hvalue text hread)
    refine ⟨value, ?_⟩
    unfold Document.json
    rw [hread]
    show (Json.readDocument text).mapError _ = _
    rw [hvalue]
    rfl
  · rintro ⟨value, h⟩
    rw [h]
    exact ok value

end IsDeclared

namespace GitHub

/-- The text of a file in base 64, if there is one, has characters of ASCII only. -/
def HasAsciiText (value : Json) : Prop :=
  value.get? "encoding" = some (.str "base64") → ∀ content, value.get? "content" = some content →
    content.truthy = true → ∀ c ∈ content.shown.toList, c.toNat ≤ 0x7F

/-- A reply can be read: the address is not refused, and a response with success is a JSON document
of which something holds. -/
def IsReadable (holds : Json → Prop) : Except Http.Fault Http.Response → Prop
  | .error (.transport ..) => True
  | .error (.address _) => False
  | .ok response =>
    response.isSuccess = true → ∃ value, Document.json response.body = .ok value ∧ holds value

/-- What a document tells is declared where it can be read, as far as that is declared. -/
theorem isDeclared_json_bind_iff {octets : List UInt8} {f : Json → Except Failure α}
    {holds : Json → Prop} (hf : ∀ value, IsDeclared (f value) ↔ holds value) :
    IsDeclared (Document.json octets >>= f) ↔
      ∃ value, Document.json octets = .ok value ∧ holds value := by
  rw [IsDeclared.bind_iff, IsDeclared.json_iff]
  constructor
  · rintro ⟨⟨value, hvalue⟩, h⟩
    exact ⟨value, hvalue, (hf value).mp (h value hvalue)⟩
  · rintro ⟨value, hvalue, h⟩
    refine ⟨⟨value, hvalue⟩, fun other hother => ?_⟩
    obtain rfl := Except.ok.inj (hvalue.symm.trans hother)
    exact (hf value).mpr h

/-- A response without success is read by its status. -/
theorem isReadable_of_not_isSuccess {holds : Json → Prop} {response : Http.Response}
    (h : ¬response.isSuccess = true) : IsReadable holds (.ok response) :=
  fun hsuccess => absurd hsuccess h

/-- What a response tells is declared where it can be read, if what its document tells is. -/
theorem isDeclared_of_isSuccess_iff {response : Http.Response} {fault : FetchFault}
    {f : Json → Except Failure α} {holds : Json → Prop}
    (hf : ∀ value, IsDeclared (f value) ↔ holds value) :
    IsDeclared (if !response.isSuccess then .error (.fetch fault)
      else Document.json response.body >>= f) ↔ IsReadable holds (.ok response) := by
  split
  · rename_i hsuccess
    exact iff_of_true (.fetch fault) (isReadable_of_not_isSuccess (by simpa using hsuccess))
  · rename_i hsuccess
    rw [isDeclared_json_bind_iff hf]
    exact ⟨fun h _ => h, fun h => h (by simpa using hsuccess)⟩

/-- A description is declared where it can be read. -/
theorem isDeclared_readDescription_iff (r : Repository) (response : Http.Response) :
    IsDeclared (readDescription r response) ↔ IsReadable (fun _ => True) (.ok response) := by
  have hfailed {status : Int} (h : response.status = status) (hstatus : 299 < status) :
      ¬response.isSuccess = true := by
    rw [Http.Response.isSuccess_iff]
    omega
  unfold readDescription
  split
  · rename_i h
    exact iff_of_true (.fetch _) (isReadable_of_not_isSuccess (hfailed h (by decide)))
  split
  · rename_i h
    exact iff_of_true (.fetch _) (isReadable_of_not_isSuccess (hfailed h (by decide)))
  refine isDeclared_of_isSuccess_iff fun value => iff_of_true ?_ trivial
  split
  · exact .ok _
  · exact .fetch _

/-- A list is declared where it can be read. -/
theorem isDeclared_readList_iff (response : Http.Response) :
    IsDeclared (readList response) ↔ IsReadable (fun _ => True) (.ok response) := by
  refine isDeclared_of_isSuccess_iff fun value => iff_of_true ?_ trivial
  split
  · exact .ok _
  · exact .fetch _

/-- A text in base 64 is declared where it has characters of ASCII only. -/
theorem isDeclared_textOfBase64_iff (path encoded : String) :
    IsDeclared (textOfBase64 path encoded) ↔ ∀ c ∈ encoded.toList, c.toNat ≤ 0x7F := by
  have hascii : ((encoded.toList.filter (· != '\n')).any fun c => decide (0x7F < c.toNat)) = false ↔
      ∀ c ∈ encoded.toList, c.toNat ≤ 0x7F := by
    rw [List.any_eq_false]
    constructor
    · intro h c hc
      by_cases hline : c = '\n'
      · rw [hline]
        decide
      · simpa using h c (List.mem_filter.mpr ⟨hc, by simpa using hline⟩)
    · intro h c hc
      simpa using h c (List.mem_filter.mp hc).1
  unfold textOfBase64
  dsimp only
  rw [← hascii]
  split
  · rename_i hany
    exact iff_of_false (IsDeclared.not_error nofun) (by rw [hany]; decide)
  · rename_i hany
    refine iff_of_true ?_ (Bool.eq_false_iff.mpr hany)
    split
    · exact .fetch _
    · split
      · exact .ok _
      · exact .fetch _

/-- A file is declared where it can be read, and has characters of ASCII only. -/
theorem isDeclared_readFile_iff (path : String) (response : Http.Response) :
    IsDeclared (readFile path response) ↔ IsReadable HasAsciiText (.ok response) := by
  refine isDeclared_of_isSuccess_iff fun value => ?_
  split
  · -- A directory has no text.
    exact iff_of_true (.fetch _) nofun
  split
  · rename_i content hencoding hcontent
    obtain ⟨hcontent, htruthy⟩ := Option.filter_eq_some_iff.mp hcontent
    rw [isDeclared_textOfBase64_iff]
    constructor
    · intro h _ other hother _
      obtain rfl := Option.some.inj (hcontent.symm.trans hother)
      exact h
    · exact fun h => h hencoding content hcontent htruthy
  · rename_i hnone
    refine iff_of_true (.fetch _) fun hencoding content hcontent htruthy => ?_
    exact absurd (Option.filter_eq_some_iff.mpr ⟨hcontent, htruthy⟩) (hnone content hencoding)

/-! ## Requests in a world -/

variable {σ : Type} (W : World σ) (g : GitHub) (r : Repository)

/-- A request is answered by the world. -/
theorem run_send (request : Http.Request) (describe : String → FetchFault) (s : σ) :
    W.run (send request describe).run s =
      ((W.answer (.fetch request) s).1.mapError (transportFailure describe),
        (W.answer (.fetch request) s).2) := rfl

/-- What follows a request is declared where the reply can be read, if what follows a response is
declared where that can be read. -/
theorem isDeclared_send_bind_iff {request : Http.Request} {describe : String → FetchFault}
    {f : Http.Response → Action α} {holds : Json → Prop}
    (hf : ∀ response t, IsDeclared (W.run (f response).run t).1 ↔ IsReadable holds (.ok response))
    (s : σ) :
    IsDeclared (W.run (send request describe >>= f).run s).1 ↔
      IsReadable holds (W.answer (.fetch request) s).1 := by
  rw [W.run_bind_eq, run_send]
  obtain ⟨reply, t⟩ := W.answer (.fetch request) s
  cases reply with
  | ok response => exact hf response t
  | error fault =>
    cases fault with
    | transport name text => exact iff_of_true (.fetch _) trivial
    | address text => exact iff_of_false (IsDeclared.not_error nofun) id

/-- A program that always succeeds after a result is declared where the result is. -/
theorem isDeclared_ofExcept_bind_iff {x : Except Failure α} {f : α → Action β}
    (hf : ∀ a t, ∃ b t', W.run (f a).run t = (.ok b, t')) (t : σ) :
    IsDeclared (W.run (Action.ofExcept x >>= f).run t).1 ↔ IsDeclared x := by
  cases x with
  | ok a =>
    obtain ⟨b, t', hrun⟩ := hf a t
    have hrun : W.run (Action.ofExcept (.ok a) >>= f).run t = (.ok b, t') := hrun
    rw [hrun]
    exact iff_of_true (.ok b) (.ok a)
  | error e =>
    have hrun : W.run (Action.ofExcept (.error e) >>= f).run t = (.error e, t) := rfl
    rw [hrun, IsDeclared.error_iff, IsDeclared.error_iff]

/-- Each of the three questions to a server ends with a value, or with the failure that the snapshot
could not be fetched, exactly where the reply can be read: where the address is not refused and the
body of a response with success is a JSON document, of which the content of a file, if it is said to
be in base 64, has characters of ASCII only. -/
theorem isDeclared_iff_isReadable (branch path : String) (s : σ) :
    (IsDeclared (W.run (g.describe r).run s).1 ↔
      IsReadable (fun _ => True) (W.answer (.fetch (g.describeRequest r)) s).1) ∧
    (IsDeclared (W.run (g.list r branch).run s).1 ↔
      IsReadable (fun _ => True) (W.answer (.fetch (g.listRequest r branch)) s).1) ∧
    (IsDeclared (W.run (g.file r path).run s).1 ↔
      IsReadable HasAsciiText (W.answer (.fetch (g.fileRequest r path)) s).1) := by
  refine ⟨isDeclared_send_bind_iff W (fun response t => ?_) s,
    isDeclared_send_bind_iff W (fun response t => ?_) s,
    isDeclared_send_bind_iff W (fun response t => ?_) s⟩
  · exact isDeclared_readDescription_iff r response
  · -- What is logged of a list that is cut off does not fail.
    rw [← isDeclared_readList_iff]
    refine isDeclared_ofExcept_bind_iff W (fun listed t => ?_) t
    obtain ⟨items, isComplete⟩ := listed
    cases isComplete with
    | true => exact ⟨_, _, rfl⟩
    | false => exact ⟨_, _, rfl⟩
  · exact isDeclared_readFile_iff path response

/-- A response with success of which the body is no JSON document ends in a failure that is not
declared. -/
theorem not_isDeclared_of_malformed_body :
    let W := World.online "7f" fun _ =>
      .ok { status := 200, body := [0x6E, 0x6F, 0x70, 0x65], text := .ok "nope" }
    ¬IsDeclared (W.run (({} : GitHub).describe ⟨"acme", "demo"⟩).run .empty).1 := by
  intro W
  have htext : Document.jsonText [0x6E, 0x6F, 0x70, 0x65] = .ok "nope".toList := by
    decide +kernel
  have hread : Document.json [0x6E, 0x6F, 0x70, 0x65] =
      .error (.json (.malformed .value 0 1 1)) := by
    unfold Document.json Document.textOr
    rw [htext]
    rfl
  have hrun : (W.run (({} : GitHub).describe ⟨"acme", "demo"⟩).run .empty).1 =
      .error (.json (.malformed .value 0 1 1)) := by
    show readDescription ⟨"acme", "demo"⟩
      { status := 200, body := [0x6E, 0x6F, 0x70, 0x65], text := .ok "nope" } = _
    unfold readDescription
    rw [hread]
    rfl
  rw [hrun]
  exact IsDeclared.not_error nofun

end GitHub

end RepoGraph
