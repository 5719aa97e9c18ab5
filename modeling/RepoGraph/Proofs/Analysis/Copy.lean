import RepoGraph.Proofs.Analysis.Declined
import RepoGraph.Proofs.Bucket
import RepoGraph.Proofs.Job.Completion

/-!
# The copy of an artifact is aside from its analysis

An analyser with a bucket does what it would do without: after the job was completed the artifact is
put into the bucket, once, and whatever comes of that changes nothing but the address in the report
(`bucket_is_aside`). The object that is put has the text of the stored artifact, and its key is
known from the name of the job.

Both analysers prepare the artifact and complete the job in the same way, so that they are compared
only from there on (`copiesAside_runClaimed`); a job that is not taken is declined by both alike.
-/

namespace RepoGraph

open RepoGraph.Text

/-- The report with `copyUri` left out. -/
def Report.withoutCopy (r : Report) : Report := { r with copyUri := none }

/-- The outcome with `copyUri` of its report left out. -/
def Outcome.withoutCopy (o : Outcome) : Outcome :=
  match o.ending with
  | .completed report => ⟨o.job, .completed report.withoutCopy⟩
  | _ => o

/-- The question is to put an object into a bucket. -/
def Question.isPut : Question → Bool
  | put _ => true
  | _ => false

/-- The object that is put into a bucket by a question, with the state in which it is, if one is. -/
def Question.put? {σ : Type} (s : σ) : Question → Option (σ × BucketObject)
  | put object => some (s, object)
  | _ => none

/-- The objects that a program puts into buckets, each with the state in which it does. -/
def World.puts {σ α : Type} (W : World σ) (p : Activity α) (s : σ) : List (σ × BucketObject) :=
  W.gathered Question.put? p s

namespace Analyser

/-- The analyser with `bucket` left out. -/
def withoutBucket (a : Analyser) : Analyser := { a with bucket := none }

variable {σ : Type}

/-- In a store a job is completed, and an object is the copy of its artifact in a bucket. -/
structure IsCopy (store : Store) (bucket : Bucket) (id : String) (object : BucketObject) :
    Prop where
  /-- The job is completed. -/
  job : store.status? id = some .completed
  /-- The object is that of the stored artifact, with the artifact's text in UTF-8. -/
  body : ∃ artifact, store.artifact? id = .ok (some artifact) ∧
    object = bucket.artifactObject id artifact ∧
    object.body = Utf8.encode artifact.stableText.toList
  /-- The stored digest is that of the octets. -/
  digest : (store.perform (.digest id)).1 = .ok (some (Digest.sha256 object.body))

/-- `p` analyses the job `id` with `bucket`, and does what `bare` does without a bucket, apart from
one copy of the artifact. -/
structure CopiesAside (W : World σ) (bucket : Option Bucket) (id : String)
    (p bare : Activity Outcome) (s : σ) : Prop where
  /-- The store becomes the same. -/
  store : W.store (W.run p s).2 = W.store (W.run bare s).2
  /-- The outcome is the same but for the address of the copy. -/
  outcome : (W.run p s).1.withoutCopy = (W.run bare s).1
  /-- At most one object is put. -/
  once : (W.puts p s).length ≤ 1
  /-- None is put just if there is no bucket, or if the job is not completed. -/
  idle : W.puts p s = [] ↔ bucket = none ∨ (W.run p s).1.status? ≠ some .completed
  /-- The object that is put is a copy of the artifact in the store as it then stays. -/
  copy : ∀ t object, (t, object) ∈ W.puts p s → W.store t = W.store (W.run p s).2 ∧
    ∃ b, bucket = some b ∧ IsCopy (W.store t) b id object
  /-- The report has no address just if there is no bucket, or if putting the object failed. -/
  address : ∀ report, (W.run p s).1.report? = some report →
    (report.copyUri = none ↔ bucket = none ∨
      ∃ t object f, (t, object) ∈ W.puts p s ∧ (W.answer (.put object) t).1 = .error f)

variable (W : World σ) (a : Analyser) {s t : σ} {id : String} {r : JobRecord}

/-! ## Copying -/

/-- With a bucket one object is put there. -/
theorem puts_copy (id : String) (artifact : Artifact) (s : σ) :
    W.puts (a.copy id artifact) s =
      a.bucket.toList.map fun b => (s, b.artifactObject id artifact) := by
  unfold World.puts
  rw [gathered_copy W a fun _ _ => rfl]
  exact (List.map_eq_flatMap ..).symm

/-- There is no address just if there is no bucket, or if putting the object failed. -/
theorem run_copy_eq_none_iff (id : String) (artifact : Artifact) (s : σ) :
    (W.run (a.copy id artifact) s).1 = none ↔ a.bucket = none ∨
      ∃ t object f, (t, object) ∈ W.puts (a.copy id artifact) s ∧
        (W.answer (.put object) t).1 = .error f := by
  rw [puts_copy]
  unfold copy
  cases a.bucket with
  | none => simp
  | some b =>
    simp only [Option.toList_some, List.map_cons, List.map_nil, List.mem_singleton,
      Prod.mk.injEq]
    rw [W.run_bind, W.run_query]
    cases hreply : (W.answer (.put (b.artifactObject id artifact)) s).1 with
    | ok u =>
      refine iff_of_false (fun haddress => by cases haddress) ?_
      rintro (hnone | ⟨t, object, f, ⟨rfl, rfl⟩, hfails⟩)
      · cases hnone
      · rw [hreply] at hfails
        cases hfails
    | error f => exact iff_of_true rfl (.inr ⟨_, _, f, ⟨rfl, rfl⟩, hreply⟩)

/-- A copy leaves the store alone. -/
theorem store_run_copy (artifact : Artifact) (s : σ) :
    W.store (W.run (a.copy id artifact) s).2 = W.store s :=
  (W.run_within (a.within_copy id artifact) s).2

/-- The object for the artifact with which a job was completed is a copy. -/
theorem isCopy_completed (store : Store) (b : Bucket) (id : String) (r : JobRecord)
    (artifact : Artifact) :
    IsCopy ⟨store.jobs.insert id r.completed,
      store.artifacts.insert id ⟨artifact.toJson, artifact.digest⟩⟩ b id
      (b.artifactObject id artifact) := by
  have hholds : Store.HoldsArtifact ⟨store.jobs.insert id r.completed,
      store.artifacts.insert id ⟨artifact.toJson, artifact.digest⟩⟩ (fun v => v) id artifact :=
    Store.holdsArtifact_completed fun _ _ => rfl
  exact {
    job := (Store.status?_of_jobs_eq rfl id).trans (if_pos rfl)
    body := ⟨artifact, hholds.artifact, rfl, rfl⟩
    digest := hholds.digest }

/-! ## Analysing with and without a bucket -/

/-- Where nothing is reported, there is no address of a copy, and the job is not completed. -/
theorem withoutCopy_of_report? {o : Outcome} (h : o.report? = none) :
    o.withoutCopy = o ∧ o.status? ≠ some .completed := by
  obtain ⟨job, ending⟩ := o
  cases ending with
  | completed report => cases h
  | notClaimed | notProcessable | failed => exact ⟨rfl, nofun⟩

/-- Where the same is done, nothing is put and nothing is reported, a copy could not matter. -/
theorem CopiesAside.of_idle {bucket : Option Bucket} {p bare : Activity Outcome}
    (hrun : W.run p s = W.run bare s) (hputs : W.puts p s = [])
    (hreport : (W.run p s).1.report? = none) : CopiesAside W bucket id p bare s := by
  obtain ⟨hcopy, hstatus⟩ := withoutCopy_of_report? hreport
  exact {
    store := by rw [hrun]
    outcome := by rw [hcopy, hrun]
    once := by simp [hputs]
    idle := iff_of_true hputs (.inr hstatus)
    copy := fun t object hmem => by simp [hputs] at hmem
    address := fun report h => by simp [hreport] at h }

variable {W} in
/-- Programs that come to the same in other states are compared there. -/
theorem CopiesAside.congr {bucket : Option Bucket} {p bare p' bare' : Activity Outcome}
    (h : CopiesAside W bucket id p' bare' t) (hrun : W.run p s = W.run p' t)
    (hputs : W.puts p s = W.puts p' t) (hbare : W.run bare s = W.run bare' t) :
    CopiesAside W bucket id p bare s where
  store := by rw [hrun, hbare, h.store]
  outcome := by rw [hrun, hbare, h.outcome]
  once := by rw [hputs]; exact h.once
  idle := by rw [hrun, hputs]; exact h.idle
  copy := by rw [hrun, hputs]; exact h.copy
  address := by rw [hrun, hputs]; exact h.address

/-- Where `process` runs in the same way, so does `runClaimed`. -/
theorem run_runClaimed_congr {a' : Analyser}
    (h : W.run (a.process id).run s = W.run (a'.process id).run s) :
    W.run (a.runClaimed id) s = W.run (a'.runClaimed id) s := by
  unfold runClaimed
  rw [W.run_bind, W.run_bind, h]

/-- What is asked to prepare an artifact puts no object. -/
theorem put?_of_isPreparing (s : σ) (q : Question) (hq : IsPreparing (·.isPut = false) id q) :
    q.put? s = none := by
  rcases hq with rfl | ⟨e, rfl⟩ | ⟨x, rfl⟩ | ⟨-, hq⟩
  · rfl
  · rfl
  · rfl
  · cases q with
    | put => cases hq
    | _ => rfl

/-- The question is for the claim of a job, or an event for the log. -/
def IsClaiming (id : String) (q : Question) : Prop :=
  q = .transact (.claim id) ∨ ∃ e, q = .log e

/-- Claiming a job asks for just that, and to write to the log. -/
theorem asks_claim (id : String) : Asks (IsClaiming id) (Lifecycle.claim id) := by
  refine .bind (.transact (.inl rfl) fun e => .inr ⟨e, rfl⟩) fun claimed => ?_
  cases claimed with
  | true => exact .bind (.log (fun e => .inr ⟨e, rfl⟩) ..) fun _ => .known _
  | false => exact .known _

/-- What is asked to claim a job puts no object. -/
theorem put?_of_isClaiming (s : σ) (q : Question) (hq : IsClaiming id q) : q.put? s = none := by
  rcases hq with rfl | ⟨e, rfl⟩
  · rfl
  · rfl

section Claimed

variable (ha : a.source.Asks (·.isPut = false))
include ha

/-- An analysis whose artifact was not prepared makes the job a failed one, or leaves it to whom it
is said to belong, and puts nothing. -/
theorem copiesAside_of_error (hr : (W.store s).jobs.lookup? id = some r) {halt : Halt}
    (h : W.run (a.prepare id).run s = (.error halt, t)) :
    CopiesAside W a.bucket id (a.runClaimed id) (a.withoutBucket.runClaimed id) s := by
  have hprocess := run_process_of_error W a h
  have hbare := run_process_of_error W a.withoutBucket h
  have hstore : W.store t = W.store s := by
    rw [← store_run_prepare W a id s, h]
  have hsame := run_runClaimed_congr W a (hprocess.trans hbare.symm)
  cases hcause : halt.cause.disownsJob with
  | false =>
    obtain ⟨u, hrun, -⟩ := run_runClaimed_error W a hprocess hcause (hstore ▸ hr)
    obtain ⟨v, hputs⟩ := gathered_runClaimed_of_error W a ha put?_of_isPreparing hr h hcause
    exact .of_idle W hsame hputs (by rw [hrun]; rfl)
  | true =>
    obtain ⟨u, hrun, -⟩ := run_runClaimed_disowned W a hprocess hcause
    have hputs := gathered_runClaimed_of_disowned W a ha put?_of_isPreparing h hcause
    exact .of_idle W hsame hputs (by rw [hrun]; rfl)

/-- An analysis whose artifact was prepared completes the job, and then puts the copy if there is a
bucket. -/
theorem copiesAside_of_ok {p : Prepared} (h : W.run (a.prepare id).run s = (.ok p, t)) :
    CopiesAside W a.bucket id (a.runClaimed id) (a.withoutBucket.runClaimed id) s := by
  obtain ⟨r, u, -, -, hcomplete, hstore, -⟩ := exists_run_complete W a h
  -- Both complete the job, and report all but the address alike.
  obtain ⟨v, hrun, hv⟩ := run_runClaimed_ok W a (run_process_of_ok W a h hcomplete)
  obtain ⟨v', hrun', hv'⟩ :=
    run_runClaimed_ok W a.withoutBucket (run_process_of_ok W a.withoutBucket h hcomplete)
  rw [store_run_copy] at hv hv'
  replace hrun' : W.run (a.withoutBucket.runClaimed id) s =
      (⟨id, .completed (p.report none)⟩, v') := hrun'
  -- What is put is what the copy puts.
  have hputs : W.puts (a.runClaimed id) s = W.puts (a.copy id p.artifact) u := by
    obtain ⟨v, hgathered⟩ := gathered_runClaimed_of_ok W a ha put?_of_isPreparing h hcomplete
    exact hgathered
  have hcopy (b : Bucket) : IsCopy (W.store u) b id (b.artifactObject id p.artifact) := by
    rw [hstore]
    exact isCopy_completed ..
  have hstatus : (W.run (a.runClaimed id) s).1.status? = some .completed := by rw [hrun]; rfl
  have hreport : (W.run (a.runClaimed id) s).1.report? =
      some (p.report (W.run (a.copy id p.artifact) u).1) := by rw [hrun]; rfl
  have hsame : W.store (W.run (a.runClaimed id) s).2 =
      W.store (W.run (a.withoutBucket.runClaimed id) s).2 := by rw [hrun, hrun', hv, hv']
  have houtcome : (W.run (a.runClaimed id) s).1.withoutCopy =
      (W.run (a.withoutBucket.runClaimed id) s).1 := by rw [hrun, hrun']; rfl
  exact {
    store := hsame
    outcome := houtcome
    once := by
      rw [hputs, puts_copy]
      cases a.bucket <;> simp
    idle := by
      rw [hputs, puts_copy, hstatus]
      cases a.bucket <;> simp
    copy := fun x object hmem => by
      rw [hputs, puts_copy, List.mem_map] at hmem
      obtain ⟨b, hb, hx⟩ := hmem
      obtain ⟨rfl, rfl⟩ := Prod.mk.inj hx
      exact ⟨by rw [hrun, hv], b, Option.mem_toList.mp hb, hcopy b⟩
    address := fun report hsome => by
      obtain rfl := Option.some.inj (hreport.symm.trans hsome)
      rw [hputs]
      exact run_copy_eq_none_iff W a id p.artifact u }

/-- The analysis of a claimed job does with a bucket what it would do without. -/
theorem copiesAside_runClaimed (hr : (W.store s).jobs.lookup? id = some r) :
    CopiesAside W a.bucket id (a.runClaimed id) (a.withoutBucket.runClaimed id) s := by
  cases hprepare : W.run (a.prepare id).run s with
  | mk result t =>
    cases result with
    | error halt => exact copiesAside_of_error W a ha hr hprepare
    | ok p => exact copiesAside_of_ok W a ha hprepare

/-- Claiming a job and analysing it does with a bucket what it would do without. -/
theorem copiesAside_run (id : String) (s : σ) :
    CopiesAside W a.bucket id (a.run id) (a.withoutBucket.run id) s := by
  by_cases hpending : ∃ r, (W.store s).jobs.lookup? id = some r ∧ r.status = .pending
  · obtain ⟨r, hr, hpending⟩ := hpending
    obtain ⟨t, hclaim, hstore⟩ := run_claim W hr hpending
    have hrun (a : Analyser) : W.run (a.run id) s = W.run (a.runClaimed id) t :=
      run_eq_runClaimed W a hclaim
    have hputs : W.puts (a.run id) s = W.puts (a.runClaimed id) t := by
      unfold World.puts run
      rw [W.gathered_bind, W.gathered_eq_nil _ (asks_claim id) put?_of_isClaiming, hclaim]
      rfl
    have hclaimed : (W.store t).jobs.lookup? id = some r.claimed := by
      rw [hstore]
      exact Table.lookup?_insert_self ..
    exact (copiesAside_runClaimed W a ha hclaimed).congr (hrun a) hputs (hrun _)
  · have hne : ∀ r, (W.store s).jobs.lookup? id = some r → r.status ≠ .pending :=
      fun r hr h => hpending ⟨r, hr, h⟩
    obtain ⟨hdeclines, hrun⟩ := run_of_ne_pending W a hne
    obtain ⟨event, hasked⟩ := hdeclines.asked
    refine .of_idle W (hrun _).symm (List.filterMap_eq_nil_iff.mpr fun x hx => ?_) hdeclines.report
    have hmem : x.2 ∈ [Question.transact (.claim id), .log event] :=
      hasked ▸ List.mem_map_of_mem hx
    exact put?_of_isClaiming x.1 x.2
      ((List.mem_pair.mp hmem).imp_right fun hlog => ⟨event, hlog⟩)

end Claimed

/-! ## Two analyses -/

/-- The bucket is aside from the analysis of a job: the store and the outcome become what they would
without it, but for the address in the report. What is put, at most once and after the job was
completed, is a copy of the stored artifact. Under one start in one bucket its key is the same
for the same job, in whichever world it is analysed, and another one for another job, if the
names of both do not begin with a slash. The sources may do what they like but put objects into
buckets, which are known to the analyser only. -/
theorem bucket_is_aside {σ' : Type} (W : World σ) (W' : World σ') (a a' : Analyser)
    (ha : a.source.Asks (·.isPut = false)) (ha' : a'.source.Asks (·.isPut = false))
    (id id' : String) (s : σ) (s' : σ') :
    CopiesAside W a.bucket id (a.run id) (a.withoutBucket.run id) s ∧
      ∀ b b', a.bucket = some b → a'.bucket = some b' → b.name = b'.name →
        b.keyStart = b'.keyStart →
        ∀ t object t' object', (t, object) ∈ W.puts (a.run id) s →
          (t', object') ∈ W'.puts (a'.run id') s' →
          object.bucket = object'.bucket ∧ (id = id' → object.key = object'.key) ∧
            (id.toList.head? ≠ some '/' → id'.toList.head? ≠ some '/' → id ≠ id' →
              object.key ≠ object'.key) := by
  have haside := copiesAside_run W a ha id s
  have haside' := copiesAside_run W' a' ha' id' s'
  refine ⟨haside, fun b b' hb hb' hname hstart t object t' object' hput hput' => ?_⟩
  obtain ⟨-, c, hc, hcopy⟩ := haside.copy t object hput
  obtain ⟨-, c', hc', hcopy'⟩ := haside'.copy t' object' hput'
  obtain rfl := Option.some.inj (hb.symm.trans hc)
  obtain rfl := Option.some.inj (hb'.symm.trans hc')
  obtain ⟨artifact, -, rfl, -⟩ := hcopy.body
  obtain ⟨artifact', -, rfl, -⟩ := hcopy'.body
  refine ⟨hname, fun hid => ?_, fun hslash hslash' hne heq => hne ?_⟩
  · exact (Bucket.key_eq_iff hstart).mpr (by rw [hid])
  · exact (Bucket.key_artifactObject_eq_iff hstart hslash hslash' artifact artifact').mp heq

/-- A job whose copy cannot be put is completed all the same, and another job has another key. -/
theorem bucket_is_aside_isolated :
    let record : JobRecord :=
      { repository := ⟨"octo", "demo"⟩
        url := "https://github.com/octo/demo"
        createdAt := ⟨0, true⟩ }
    let s := ((Store.empty.perform (.insert "1" record)).2.perform (.insert "2" record)).2
    let a : Analyser := ⟨.listing [⟨"README", none⟩], some ⟨"copies", "runs/", none⟩, 200, 8⟩
    a.source.Asks (·.isPut = false) ∧
      CopiesAside .isolated a.bucket "1" (a.run "1") (a.withoutBucket.run "1") s ∧
      World.isolated.puts (a.run "1") s ≠ [] ∧
      ∀ t object t' object', (t, object) ∈ World.isolated.puts (a.run "1") s →
        (t', object') ∈ World.isolated.puts (a.run "2") s → object.key ≠ object'.key := by
  intro record s a
  have hasks : a.source.Asks (·.isPut = false) := Source.asks_listing _ _
  obtain ⟨haside, hkeys⟩ := bucket_is_aside .isolated .isolated a a hasks hasks "1" "2" s s
  have hcompleted : (World.isolated.run (a.run "1") s).1.status? = some .completed := by
    decide +kernel
  refine ⟨hasks, haside, fun hnone => ?_, fun t object t' object' hput hput' => ?_⟩
  · rcases haside.idle.mp hnone with hbucket | hstatus
    · cases hbucket
    · exact hstatus hcompleted
  · obtain ⟨-, -, hne⟩ := hkeys _ _ rfl rfl rfl rfl t object t' object' hput hput'
    exact hne (by decide) (by decide) (by decide)

end Analyser

end RepoGraph
