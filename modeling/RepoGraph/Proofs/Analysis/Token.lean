import RepoGraph.Proofs.Authorization
import RepoGraph.Proofs.Analysis.Stages

/-!
# The token

What an analysis does with the snapshots of one source it does with those of another one that is
`EqButToken` (`eqButToken_run`). `GitHub.source` is so for any two values of `GitHub.token`. So in
a world that replies without regard to `Request.authorization`, neither the outcome of an analysis
nor the store, the log or the copies depend on the token (`indistinguishable_of_tokens`).
-/

namespace RepoGraph.Analyser

open RepoGraph.Program

variable {σ : Type} (W : World σ) (a : Analyser) {source : Source}

/-- A `stage` is the same but for the token if its action is. -/
theorem eqButToken_stage {α : Type} {st : Stage} {x x' : Action α}
    (h : EqButToken x.run x'.run) : EqButToken (stage st x).run (stage st x').run :=
  h.bind fun _ => .refl _

/-- `list` is the same but for the token if the source is. -/
theorem eqButToken_list (h : a.source.EqButToken source) (job : Job) :
    EqButToken (a.list job).run (({ a with source } : Analyser).list job).run := by
  refine (h.describe _).bind_steps fun info => ?_
  exact (h.list _ _).bind_steps fun listed => .refl _

/-- `collect` is the same but for the token if the source is. -/
theorem eqButToken_collect (h : a.source.EqButToken source) (job : Job)
    (entries : List TreeEntry) :
    EqButToken (a.collect job entries).run
      (({ a with source } : Analyser).collect job entries).run :=
  (h.contents _ _ _).bind_steps fun _ => .refl _

/-- `process` is the same but for the token if the source is. Only two of its stages turn to the
source. -/
theorem eqButToken_process (h : a.source.EqButToken source) (id : String) :
    EqButToken (a.process id).run (({ a with source } : Analyser).process id).run := by
  refine EqButToken.bind_steps (.refl _) fun job => ?_
  refine EqButToken.bind_steps (eqButToken_stage (a.eqButToken_list h job)) fun listed => ?_
  exact EqButToken.bind_steps (eqButToken_stage (a.eqButToken_collect h job listed.2))
    fun collected => .refl _

/-- `runClaimed` is the same but for the token if the source is. -/
theorem eqButToken_runClaimed (h : a.source.EqButToken source) (id : String) :
    EqButToken (a.runClaimed id) (({ a with source } : Analyser).runClaimed id) :=
  (a.eqButToken_process h id).bind fun _ => .refl _

/-- `run` is the same but for the token if the source is. -/
theorem eqButToken_run (h : a.source.EqButToken source) (id : String) :
    EqButToken (a.run id) (({ a with source } : Analyser).run id) := by
  refine EqButToken.bind (.refl _) fun claimed => ?_
  cases claimed with
  | error f => exact .refl _
  | ok isClaimed =>
    cases isClaimed with
    | false => exact .refl _
    | true => exact a.eqButToken_runClaimed h id

/-- The analyser with `GitHub.source` as its source, with a token or none. -/
def fetching (g : GitHub) (token : Option String) : Analyser :=
  { a with source := { g with token }.source }

/-- In a world that replies without regard to `Request.authorization`, nothing else depends on the
token: `run` and `runClaimed` with one token and with another have the same outcome, store, log
events and bucket objects, and the same requests up to `authorization`. -/
theorem indistinguishable_of_tokens {same : σ → σ → Prop} (hW : W.IsBlind same) (g : GitHub)
    (token token' : Option String) (id : String) {s s' : σ} (hs : same s s') :
    W.Indistinguishable ((a.fetching g token).run id) ((a.fetching g token').run id) s s' ∧
      W.Indistinguishable ((a.fetching g token).runClaimed id)
        ((a.fetching g token').runClaimed id) s s' := by
  have hsource : (a.fetching g token).source.EqButToken { g with token := token' }.source :=
    GitHub.eqButToken_source { g with token } token'
  exact ⟨W.indistinguishable_of_eqButToken hW ((a.fetching g token).eqButToken_run hsource id) hs,
    W.indistinguishable_of_eqButToken hW
      ((a.fetching g token).eqButToken_runClaimed hsource id) hs⟩

/-- A repository that is not found is not found with a token and without one. The requests show the
token; nothing else does. -/
theorem indistinguishable_of_tokens_not_found :
    let record : JobRecord :=
      { repository := ⟨"octo", "demo"⟩
        url := "https://github.com/octo/demo"
        createdAt := ⟨0, true⟩ }
    let W := World.online "1" fun _ => .ok { status := 404, body := [], text := .ok "" }
    let s := (Store.empty.perform (.insert "1" record)).2
    let run (token : Option String) : Activity Outcome :=
      (Analyser.fetching ⟨.listing [], none, 200, 8⟩ {} token).run "1"
    W.IsBlind Eq ∧
      (W.requests (run (some "ghp_secret")) s).map (·.authorization) =
        [some "Bearer ghp_secret"] ∧
      (W.requests (run none) s).map (·.authorization) = [none] ∧
      W.Indistinguishable (run (some "ghp_secret")) (run none) s s := by
  intro record W s run
  have hblind : W.IsBlind Eq := World.isBlind_online fun _ => rfl
  refine ⟨hblind, by decide +kernel, by decide +kernel, ?_⟩
  exact (indistinguishable_of_tokens W ⟨.listing [], none, 200, 8⟩ hblind {} (some "ghp_secret")
    none "1" rfl).1

end RepoGraph.Analyser
