import RepoGraph.Proofs.Asked

/-!
# Programs that differ in the authorization of their requests

`Request.authorization` is the only member of a request that depends on a token, and
`Question.anonymous` takes it out. Two programs are `EqButToken` if they ask questions with the same
`anonymous` as long as they get the same replies, and end with the same value. In a world whose
`answer` depends on `anonymous` alone (`World.IsBlind`) two such programs have the same value, the
same store, the same `events` and `objects`, and the same `requests` up to `anonymous`
(`World.indistinguishable_of_eqButToken`). `GitHub.source` is such a program for any two values of
`GitHub.token` (`GitHub.eqButToken_source`).
-/

namespace RepoGraph

/-- The request without its `authorization`. -/
def Http.Request.anonymous (r : Http.Request) : Http.Request := { r with authorization := none }

namespace Question

/-- The question with each request `anonymous`. -/
def anonymous : Question → Question
  | fetch request => fetch request.anonymous
  | fetchAll limit requests => fetchAll limit (requests.map Http.Request.anonymous)
  | q => q

/-- The event of a `log` question. -/
def event? : Question → Option Log.Event
  | log e => some e
  | _ => none

/-- The object of a `put` question. -/
def object? : Question → Option BucketObject
  | put o => some o
  | _ => none

/-- The requests of a `fetch` or a `fetchAll` question. -/
def requests : Question → List Http.Request
  | fetch request => [request]
  | fetchAll _ requests => requests
  | _ => []

/-- Questions with the same `anonymous` are the same, or both `fetch` or both `fetchAll`, with
requests that have the same `anonymous`. -/
theorem eq_or_of_anonymous_eq {q q' : Question} (h : q.anonymous = q'.anonymous) :
    q = q' ∨
      (∃ r r', q = .fetch r ∧ q' = .fetch r' ∧ r.anonymous = r'.anonymous) ∨
      ∃ limit rs rs', q = .fetchAll limit rs ∧ q' = .fetchAll limit rs' ∧
        rs.map Http.Request.anonymous = rs'.map Http.Request.anonymous := by
  cases q with
  | fetch r =>
    cases q' with
    | fetch r' => exact .inr (.inl ⟨r, r', rfl, rfl, Question.fetch.inj h⟩)
    | _ => cases h
  | fetchAll limit rs =>
    cases q' with
    | fetchAll limit' rs' =>
      obtain ⟨rfl, hrs⟩ := Question.fetchAll.inj h
      exact .inr (.inr ⟨limit, rs, rs', rfl, rfl, hrs⟩)
    | _ => cases h
  | _ =>
    cases q' with
    | fetch | fetchAll => cases h
    | _ => exact .inl h

/-- `anonymous` keeps the event. -/
@[simp]
theorem event?_anonymous (q : Question) : q.anonymous.event? = q.event? := by
  cases q <;> rfl

/-- `anonymous` keeps the object. -/
@[simp]
theorem object?_anonymous (q : Question) : q.anonymous.object? = q.object? := by
  cases q <;> rfl

/-- `anonymous` of a question is `anonymous` of its requests. -/
@[simp]
theorem requests_anonymous (q : Question) :
    q.anonymous.requests = q.requests.map Http.Request.anonymous := by
  cases q <;> rfl

end Question

/-! ## Programs -/

namespace Program

variable {α β ε : Type}

/-- `EqButToken p p'`: as long as both get the same replies, the questions of `p` and `p'`
have the same `anonymous`, and both end with the same value. -/
inductive EqButToken : Activity α → Activity α → Prop
  /-- Both are `done` with the same value. -/
  | done (a : α) : EqButToken (.done a) (.done a)
  /-- Both `ask`, and what follows the same reply is again the same but for the token. -/
  | ask {q q' : Question} {next : q.Reply → Activity α} {next' : q'.Reply → Activity α}
      (h : q.anonymous = q'.anonymous) (hnext : ∀ r r', HEq r r' → EqButToken (next r) (next' r')) :
      EqButToken (.ask q next) (.ask q' next')

namespace EqButToken

/-- `EqButToken` is reflexive. -/
theorem refl (p : Activity α) : EqButToken p p := by
  induction p with
  | done a => exact .done a
  | ask q next ih =>
    refine .ask rfl fun r r' hr => ?_
    obtain rfl := eq_of_heq hr
    exact ih r

/-- `EqButToken` goes through the bind of programs. -/
theorem bind {p p' : Activity α} {f f' : α → Activity β} (hp : EqButToken p p')
    (hf : ∀ a, EqButToken (f a) (f' a)) : EqButToken (p >>= f) (p' >>= f') := by
  induction hp with
  | done a => exact hf a
  | ask h hnext ih => exact .ask h ih

/-- `EqButToken` goes through the bind of programs that may fail. -/
theorem bind_steps {x x' : ExceptT ε Activity α} {f f' : α → ExceptT ε Activity β}
    (hx : EqButToken x.run x'.run) (hf : ∀ a, EqButToken (f a).run (f' a).run) :
    EqButToken (x >>= f).run (x' >>= f').run := by
  rw [ExceptT.run_bind, ExceptT.run_bind]
  refine hx.bind fun r => ?_
  cases r with
  | ok a => exact hf a
  | error e => exact refl _

/-- Two `demand`s of questions with the same `anonymous`, of whose replies the same is made. -/
theorem demand {q q' : Question} {as : q.Reply → Except Failure α}
    {as' : q'.Reply → Except Failure α} (h : q.anonymous = q'.anonymous)
    (has : ∀ r r', HEq r r' → as r = as' r') :
    EqButToken (Action.demand q as).run (Action.demand q' as').run := by
  refine .ask h fun r r' hr => ?_
  show EqButToken (.done (as r)) (.done (as' r'))
  rw [has r r' hr]
  exact .done _

end EqButToken

end Program

/-- Two vectors, of lengths that are the same, are the same if their elements are. -/
theorem heq_iff_toList_eq {α : Type} {n m : Nat} (h : n = m) {v : Vector α n} {w : Vector α m} :
    HEq v w ↔ v.toList = w.toList := by
  subst h
  rw [heq_iff_eq, Vector.toList_inj]

/-! ## Worlds -/

namespace World

variable {σ α : Type} (W : World σ) {same : σ → σ → Prop} {p p' : Activity α} {s s' : σ}

/-- The events of the `log` questions that a program asks, in their order. -/
def events (p : Activity α) (s : σ) : List Log.Event := W.gathered (fun _ q => q.event?) p s

/-- The objects of the `put` questions that a program asks, in their order. -/
def objects (p : Activity α) (s : σ) : List BucketObject := W.gathered (fun _ q => q.object?) p s

/-- The requests of the `fetch` and `fetchAll` questions that a program asks, in their order. -/
def requests (p : Activity α) (s : σ) : List Http.Request :=
  (W.asked p s).flatMap fun x => x.2.requests

/-- `answer` depends on the `anonymous` of a question alone, in states that are related by `same`:
it replies the same, and leads to states that `same` relates. -/
structure IsBlind (same : σ → σ → Prop) : Prop where
  /-- Related states have the same store. -/
  store : ∀ {s s'}, same s s' → W.store s = W.store s'
  /-- Questions with the same `anonymous` get the same reply. -/
  reply : ∀ {q q' s s'}, Question.anonymous q = q'.anonymous → same s s' →
    HEq (W.answer q s).1 (W.answer q' s').1
  /-- The states after them are related. -/
  next : ∀ {q q' s s'}, Question.anonymous q = q'.anonymous → same s s' →
    same (W.answer q s).2 (W.answer q' s').2

/-- `p` from `s` and `p'` from `s'` have the same value, store, `events` and `objects`, and the same
`requests` up to `Request.authorization`. -/
structure Indistinguishable (p p' : Activity α) (s s' : σ) : Prop where
  /-- The values are the same. -/
  value : (W.run p s).1 = (W.run p' s').1
  /-- The stores afterwards are the same. -/
  store : W.store (W.run p s).2 = W.store (W.run p' s').2
  /-- The `events` are the same. -/
  events : W.events p s = W.events p' s'
  /-- The `objects` are the same. -/
  objects : W.objects p s = W.objects p' s'
  /-- The `requests` are the same up to `anonymous`. -/
  requests : (W.requests p s).map Http.Request.anonymous =
    (W.requests p' s').map Http.Request.anonymous

/-- In a world with `IsBlind`, programs with `EqButToken` end with the same value in
related states, after questions with the same `anonymous`. -/
theorem run_eqButToken (hW : W.IsBlind same) (hp : Program.EqButToken p p') (hs : same s s') :
    (W.run p s).1 = (W.run p' s').1 ∧ same (W.run p s).2 (W.run p' s').2 ∧
      (W.asked p s).map (·.2.anonymous) = (W.asked p' s').map (·.2.anonymous) := by
  induction hp generalizing s s' with
  | done a => exact ⟨rfl, hs, rfl⟩
  | ask h hnext ih =>
    obtain ⟨hvalue, hsame, hasked⟩ := ih _ _ (hW.reply h hs) (hW.next h hs)
    exact ⟨hvalue, hsame, List.cons_eq_cons.mpr ⟨h, hasked⟩⟩

/-- What `gathered` picks without regard to `authorization` it picks from the `anonymous` of the
questions. -/
theorem gathered_eq_filterMap {γ : Type} {pick : Question → Option γ}
    (hpick : ∀ q, pick q.anonymous = pick q) (p : Activity α) (s : σ) :
    W.gathered (fun _ q => pick q) p s =
      ((W.asked p s).map (·.2.anonymous)).filterMap pick := by
  rw [List.filterMap_map]
  exact List.filterMap_congr fun x _ => (hpick x.2).symm

/-- `requests` up to `anonymous` are the requests of the `anonymous` of the questions. -/
theorem map_anonymous_requests (p : Activity α) (s : σ) :
    (W.requests p s).map Http.Request.anonymous =
      ((W.asked p s).map (·.2.anonymous)).flatMap Question.requests := by
  unfold requests
  rw [List.map_flatMap, List.flatMap_map]
  simp

/-- In a world with `IsBlind`, programs with `EqButToken` are `Indistinguishable`. -/
theorem indistinguishable_of_eqButToken (hW : W.IsBlind same) (hp : Program.EqButToken p p')
    (hs : same s s') : W.Indistinguishable p p' s s' := by
  obtain ⟨hvalue, hsame, hasked⟩ := W.run_eqButToken hW hp hs
  have hgathered {γ : Type} {pick : Question → Option γ}
      (hpick : ∀ q, pick q.anonymous = pick q) :
      W.gathered (fun _ q => pick q) p s = W.gathered (fun _ q => pick q) p' s' := by
    rw [W.gathered_eq_filterMap hpick, W.gathered_eq_filterMap hpick, hasked]
  exact {
    value := hvalue
    store := hW.store hsame
    events := hgathered Question.event?_anonymous
    objects := hgathered Question.object?_anonymous
    requests := by rw [map_anonymous_requests, map_anonymous_requests, hasked] }

/-- `online` is blind if its answer to each request is that to the `anonymous` of the request. -/
theorem isBlind_online {name : String} {web : Http.Request → Except Http.Fault Http.Response}
    (h : ∀ r, web r.anonymous = web r) : (online name web).IsBlind Eq := by
  have hmap (rs : List Http.Request) :
      rs.map web = (rs.map Http.Request.anonymous).map web := by
    rw [List.map_map]
    exact List.map_congr_left fun r _ => (h r).symm
  have hanswer {q q' : Question} (s : Store) (hq : q.anonymous = q'.anonymous) :
      HEq ((online name web).answer q s).1 ((online name web).answer q' s).1 ∧
        ((online name web).answer q s).2 = ((online name web).answer q' s).2 := by
    rcases Question.eq_or_of_anonymous_eq hq with
      rfl | ⟨r, r', rfl, rfl, hr⟩ | ⟨limit, rs, rs', rfl, rfl, hrs⟩
    · exact ⟨.rfl, rfl⟩
    · refine ⟨heq_of_eq ?_, rfl⟩
      show web r = web r'
      rw [← h r, hr, h r']
    · refine ⟨?_, rfl⟩
      have hlength : rs.length = rs'.length := by simpa using congrArg List.length hrs
      exact (heq_iff_toList_eq hlength).mpr (by
        show ((rs.map web).toArray).toList = ((rs'.map web).toArray).toList
        rw [hmap rs, hmap rs', hrs])
  exact {
    store := fun hs => congrArg _ hs
    reply := fun hq hs => hs ▸ (hanswer _ hq).1
    next := fun hq hs => hs ▸ (hanswer _ hq).2 }

end World

/-! ## Sources -/

/-- `describe`, `list` and `contents` of the sources are `EqButToken`. -/
structure Source.EqButToken (source source' : Source) : Prop where
  /-- `describe` is the same but for the token. -/
  describe : ∀ r, Program.EqButToken (source.describe r).run (source'.describe r).run
  /-- `list` is the same but for the token. -/
  list : ∀ r branch, Program.EqButToken (source.list r branch).run (source'.list r branch).run
  /-- `contents` is the same but for the token. -/
  contents : ∀ r entries limit,
    Program.EqButToken (source.contents r entries limit).run (source'.contents r entries limit).run

/-- `GitHub.source` is the same but for the token for all values of `token`. -/
theorem GitHub.eqButToken_source (g : GitHub) (token : Option String) :
    g.source.EqButToken { g with token := token }.source where
  describe r := by
    refine Program.EqButToken.bind_steps ?_ fun response => .refl _
    exact .demand rfl fun reply reply' hreply => by rw [eq_of_heq hreply]
  list r branch := by
    refine Program.EqButToken.bind_steps ?_ fun response => .refl _
    exact .demand rfl fun reply reply' hreply => by rw [eq_of_heq hreply]
  contents r entries limit := by
    refine .demand ?_ fun replies replies' hreplies => ?_
    · simp [Question.anonymous, Http.Request.anonymous, contentRequest, request]
    · rw [(heq_iff_toList_eq (by simp)).mp hreplies]

end RepoGraph
