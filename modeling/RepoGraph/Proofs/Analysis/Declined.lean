import RepoGraph.Proofs.Analysis.Asked

/-!
# Jobs that are not analysed

An analysis takes a pending job, or one that was claimed for it. Any other job is left as it is
(`declines_other_jobs`): one transaction finds out about it, an event is logged, and nothing else is
asked of anybody, neither of the source nor of the bucket, so that it does not matter who was to
analyse the job.
-/

namespace RepoGraph.Analyser

variable {σ : Type} (W : World σ) (a : Analyser) {s : σ} {id : String}

/-- The program asks for the transaction `found`, logs an event, and ends without a claim and with
the store as it was. -/
structure Declines (id : String) (found : Transaction) (p : Activity Outcome) (s : σ) : Prop where
  /-- Both tables stay as they are. -/
  store : W.store (W.run p s).2 = W.store s
  /-- Besides the transaction an event for the log is all that is asked. -/
  asked : ∃ event, (W.asked p s).map Prod.snd = [.transact found, .log event]
  /-- The outcome is that of the job. -/
  job : (W.run p s).1.job = id
  /-- The job is not claimed. -/
  isClaimed : (W.run p s).1.isClaimed = false
  /-- The job has no state that the analysis knows of. -/
  status : (W.run p s).1.status? = none
  /-- Nothing is reported. -/
  report : (W.run p s).1.report? = none

/-- A job that is not pending is not claimed, which takes one question. -/
theorem exists_run_claim_of_ne
    (h : ∀ r, (W.store s).jobs.lookup? id = some r → r.status ≠ .pending) :
    ∃ t, W.run (Lifecycle.claim id).run s = (.ok false, t) ∧ W.store t = W.store s ∧
      W.asked (Lifecycle.claim id).run s = [(s, .transact (.claim id))] := by
  obtain ⟨t, hrun, hstore⟩ := W.exists_run_transact (.claim id) s
  have hasked := W.asked_transact (.claim id) s
  rw [Store.perform_claim_of_ne h] at hrun hstore hasked
  refine ⟨t, ?_, hstore, ?_⟩
  · unfold Lifecycle.claim
    rw [W.run_bind_eq, hrun]
    rfl
  · unfold Lifecycle.claim
    rw [W.asked_bind_of_ok hrun, hasked fun hrefused => nomatch hrefused]
    rfl

/-- A program declines a job if it ends in none of the states of a job that was taken, and asked and
changed nothing. -/
theorem Declines.of_run {found : Transaction} {p : Activity Outcome} {ending : Ending} {t : σ}
    {event : Log.Event} (hrun : W.run p s = (⟨id, ending⟩, t)) (hstore : W.store t = W.store s)
    (hasked : (W.asked p s).map Prod.snd = [.transact found, .log event])
    (hstatus : Outcome.status? ⟨id, ending⟩ = none) : Declines W id found p s where
  store := by rw [hrun, hstore]
  asked := ⟨event, hasked⟩
  job := by rw [hrun]
  isClaimed := by rw [hrun, Outcome.isClaimed, hstatus, Option.isSome_none]
  status := by rw [hrun, hstatus]
  report := by
    rw [hrun]
    -- Only a job that was completed is reported of.
    cases ending with
    | completed report => cases hstatus
    | notClaimed | notProcessable | failed => rfl

/-- `run` of a job that is not pending `Declines` it, the same for all analysers. -/
theorem run_of_ne_pending (h : ∀ r, (W.store s).jobs.lookup? id = some r → r.status ≠ .pending) :
    Declines W id (.claim id) (a.run id) s ∧
      ∀ a' : Analyser, W.run (a'.run id) s = W.run (a.run id) s := by
  obtain ⟨t, hclaim, hstore, hasked⟩ := exists_run_claim_of_ne W h
  have hlog := W.store_run_log .info .analysis "job_not_claimable" [("job_id", .str id)] t
  have hrun (a : Analyser) : W.run (a.run id) s = (⟨id, .notClaimed none⟩,
      (W.run (Activity.log .info .analysis "job_not_claimable" [("job_id", .str id)]) t).2) := by
    unfold run
    rw [W.run_bind, hclaim, W.run_bind, W.run_pure]
  have hquestions : (W.asked (a.run id) s).map Prod.snd = [.transact (.claim id),
      .log ⟨.info, .analysis, "job_not_claimable", [("job_id", .str id)]⟩] := by
    unfold run
    rw [W.asked_bind, hasked, hclaim, W.asked_bind, W.asked_log]
    rfl
  exact ⟨.of_run W (hrun a) (hlog.trans hstore) hquestions rfl, fun a' => by rw [hrun, hrun]⟩

/-- What a store says of a job that is not processing is a failure that is about the job. -/
theorem exists_processable_eq_error {store : Store}
    (h : ∀ r, store.jobs.lookup? id = some r → r.status ≠ .processing) :
    ∃ f, processable store id = .error f ∧ f.disownsJob = true := by
  unfold processable
  cases hjob : store.job? id with
  | none => exact ⟨_, rfl, rfl⟩
  | some job =>
    obtain ⟨r, hr, rfl⟩ := Option.map_eq_some_iff.mp hjob
    exact ⟨_, if_neg (h r hr), rfl⟩

/-- `runClaimed` of a job that is not processing `Declines` it, the same for all analysers. -/
theorem runClaimed_of_ne_processing
    (h : ∀ r, (W.store s).jobs.lookup? id = some r → r.status ≠ .processing) :
    Declines W id (.find id) (a.runClaimed id) s ∧
      ∀ a' : Analyser, W.run (a'.runClaimed id) s = W.run (a.runClaimed id) s := by
  obtain ⟨f, hf, hcause⟩ := exists_processable_eq_error h
  obtain ⟨t, hload, hstore, hasked⟩ := exists_run_load W id s
  rw [hf] at hload
  -- The first stage fails, so that no other one is begun.
  have hstage : W.run (stage .loadJob (load id)).run s = (.error ⟨.loadJob, f⟩, t) :=
    (run_stage_error_iff W).mpr ⟨f, rfl, hload⟩
  have hprocess (a : Analyser) : W.run (a.process id).run s = (.error ⟨.loadJob, f⟩, t) := by
    unfold process
    exact W.run_bind_error_iff.mpr (.inl hstage)
  have hquestions : W.asked (a.process id).run s = [(s, .transact (.find id))] := by
    unfold process
    rw [W.asked_bind_of_error hstage, asked_stage, hasked]
  -- The failure is about the job, so that it is logged and not recorded.
  have hlog := W.store_run_log .warning .analysis "job_not_processable" [("job_id", .str id),
    ("error", .str (haltMessage f))] t
  have hrun (a : Analyser) : W.run (a.runClaimed id) s =
      (⟨id, .notProcessable .loadJob (haltMessage f)⟩,
      (W.run (Activity.log .warning .analysis "job_not_processable" [("job_id", .str id),
        ("error", .str (haltMessage f))]) t).2) := by
    unfold runClaimed halted
    rw [W.run_bind, hprocess, W.run_bind]
    simp only [hcause, if_true]
    rw [W.run_bind, W.run_pure]
    rfl
  have hquestions : (W.asked (a.runClaimed id) s).map Prod.snd = [.transact (.find id),
      .log ⟨.warning, .analysis, "job_not_processable",
        [("job_id", .str id), ("error", .str (haltMessage f))]⟩] := by
    unfold runClaimed halted
    rw [W.asked_bind, hquestions, hprocess, W.asked_bind]
    simp only [hcause, if_true]
    rw [W.asked_bind, W.asked_log]
    rfl
  exact ⟨.of_run W (hrun a) (hlog.trans hstore) hquestions rfl, fun a' => by rw [hrun, hrun]⟩

/-- A job that is not there or not pending is not claimed and analysed, and one that is not there or
not processing is not analysed as a claimed one: the store stays as it is, nothing is asked of
the source or the bucket, and the outcome claims nothing. -/
theorem declines_other_jobs (W : World σ) (a : Analyser) (s : σ) (id : String) :
    ((∀ r, (W.store s).jobs.lookup? id = some r → r.status ≠ .pending) →
      Declines W id (.claim id) (a.run id) s ∧
        ∀ a' : Analyser, W.run (a'.run id) s = W.run (a.run id) s) ∧
    ((∀ r, (W.store s).jobs.lookup? id = some r → r.status ≠ .processing) →
      Declines W id (.find id) (a.runClaimed id) s ∧
        ∀ a' : Analyser, W.run (a'.runClaimed id) s = W.run (a.runClaimed id) s) :=
  ⟨run_of_ne_pending W a, runClaimed_of_ne_processing W a⟩

/-- A job that somebody has claimed is declined by one who would claim it, and a job that was only
entered by one who takes it for a claimed one; a job that is not there is declined by both. -/
theorem declines_other_jobs_entered :
    let record : JobRecord :=
      { repository := ⟨"octo", "demo"⟩
        url := "https://github.com/octo/demo"
        createdAt := ⟨0, true⟩ }
    let entered := (Store.empty.perform (.insert "1" record)).2
    let claimed := (entered.perform (.claim "1")).2
    let a : Analyser := ⟨.listing [⟨"README", none⟩], some ⟨"copies", "runs/", none⟩, 200, 8⟩
    (entered.status? "1" = some .pending ∧ claimed.status? "1" = some .processing ∧
        claimed.status? "2" = none) ∧
      (Declines .isolated "1" (.claim "1") (a.run "1") claimed ∧
        Declines .isolated "2" (.claim "2") (a.run "2") claimed) ∧
      Declines .isolated "1" (.find "1") (a.runClaimed "1") entered ∧
      Declines .isolated "2" (.find "2") (a.runClaimed "2") claimed := by
  intro record entered claimed a
  have hclaimed : claimed.jobs.lookup? "1" = some record.stored.claimed := rfl
  have hentered : entered.jobs.lookup? "1" = some record.stored := rfl
  have habsent (r : JobRecord) : claimed.jobs.lookup? "2" ≠ some r := nofun
  refine ⟨⟨rfl, rfl, rfl⟩, ⟨?_, ?_⟩, ?_, ?_⟩
  · refine ((declines_other_jobs .isolated a claimed "1").1 fun r hr => ?_).1
    obtain rfl := Option.some.inj (hclaimed.symm.trans hr)
    decide
  · exact ((declines_other_jobs .isolated a claimed "2").1 fun r hr =>
      absurd hr (habsent r)).1
  · refine ((declines_other_jobs .isolated a entered "1").2 fun r hr => ?_).1
    obtain rfl := Option.some.inj (hentered.symm.trans hr)
    decide
  · exact ((declines_other_jobs .isolated a claimed "2").2 fun r hr =>
      absurd hr (habsent r)).1

end RepoGraph.Analyser
