import RepoGraph.Proofs.Command.Sound
import RepoGraph.Proofs.World

/-!
# Command lines are answered

Whatever goes wrong while a command is carried out, one line of JSON answers it
(`Answer.IsRendered`). Only before the command begins something may go wrong that is not answered:
the file of variables that the command line names may be no text, or one that cannot be read or
entered, and the level that the environment names for the log may be none
(`Arguments.IsSpoilt`). `Arguments.perform_answers` says that it is just then that there is no
answer.
-/

namespace RepoGraph

open RepoGraph.Json RepoGraph.Text

/-! ## Answers in a line -/

/-- The answer is one line of JSON: an object whose member `ok` tells whether all went well, as the
status of the program does, and which says of a failure just its stage, the code for the stage, and
some words. -/
structure Answer.IsRendered (a : Answer) : Prop where
  /-- The line is in printable ASCII, so that it is one line. -/
  printable : ∀ c ∈ a.line.toList, IsPrintable c
  /-- The object has each of its members once. -/
  nodup : (a.members.map Prod.fst).Nodup
  /-- The line is read as the object, unless a number in it has more digits than are read. -/
  readBack : (∀ z ∈ (Json.obj a.members).ints, Decimal.digitCount z.natAbs ≤ Decimal.digitLimit) →
    Json.read a.line = .ok (.obj a.members)
  /-- All went well, and the status is zero, or something went wrong, and it is one. -/
  status : a.members.lookup "ok" = some (.bool true) ∧ a.exitCode = 0 ∨
    a.members.lookup "ok" = some (.bool false) ∧ a.exitCode = 1
  /-- What is said of a failure. -/
  failure : a.members.lookup "ok" = some (.bool false) → ∃ stage message, message ≠ "" ∧
    a.members = [("ok", .bool false), ("stage", .str stage),
      ("error_code", .str ("GRAPHYY_FAILED_" ++ String.ofList (upper stage.toList))),
      ("error_message", .str message)]

/-- The members of an answer that can be written are orderly. -/
theorem Answer.IsSound.isOrderly_members {a : Answer} (h : a.IsSound) :
    IsOrderly (fun _ => True) (.obj a.members) := by
  cases a with
  | success members =>
    cases h with
    | obj _ hnodup horderly =>
      refine .obj _ (List.nodup_cons.mpr ⟨?_, ?_⟩) (List.forall_mem_cons.mpr ⟨.bool true, ?_⟩)
      · simp
      · exact hnodup.sublist (List.filter_sublist.map _)
      · exact fun m hm => horderly m (List.mem_of_mem_filter hm)
  | failure stage message =>
    refine .obj _ (by simp [Answer.members]) ?_
    simp only [Answer.members, List.forall_mem_cons]
    exact ⟨.bool false, .str _, .str _, .str _, List.forall_mem_nil _⟩

/-- An answer that can be written is one line of JSON. -/
theorem Answer.IsSound.isRendered {a : Answer} (h : a.IsSound) : a.IsRendered where
  printable := h.isOrderly_members.isPrintable_compact
  nodup := by
    cases h.isOrderly_members with
    | obj _ hnodup _ => exact hnodup
  readBack hints := h.isOrderly_members.read_compact hints
  status := by
    cases a with
    | success members => exact .inl ⟨rfl, rfl⟩
    | failure stage message => exact .inr ⟨rfl, rfl⟩
  failure hok := by
    cases a with
    | success members => cases hok
    | failure stage message => exact ⟨stage, message, h, rfl⟩

/-! ## Command lines -/

/-- An artifact that cannot be had from the store is missed by a name. -/
theorem Store.conforms_artifact? (s : Store) (id : String) :
    Conforms Anything (s.artifact? id) := by
  unfold artifact?
  split
  · trivial
  · split
    · trivial
    · exact .error (.of_ne_outside nofun)

/-- A transaction fails with a name, if it does. -/
theorem Store.Effect.conforms {s s' : Store} {t : Transaction} {r : Except Failure t.Result}
    (h : Effect s t r s') : Conforms Anything r := by
  cases h with
  | present | uncompleted | unfailed => exact .error (.of_ne_outside nofun)
  | artifact id => exact s.conforms_artifact? id
  | _ => trivial

/-- Nothing can be logged from a level exactly if it is the name of something else. -/
theorem Log.exists_threshold_eq_error_iff (name : String) :
    (∃ fault, threshold name = .error fault) ↔
      String.ofList (upper name.toList) ∈ ["BASIC_FORMAT", "_STYLES"] := by
  unfold threshold
  generalize String.ofList (upper name.toList) = known
  have hlookup : misnomers.lookup known ≠ none ↔ known ∈ ["BASIC_FORMAT", "_STYLES"] := by
    rw [ne_eq, List.lookup_eq_none_iff]
    simp [misnomers]
    tauto
  rw [← hlookup]
  dsimp only
  cases misnomers.lookup known with
  | none => simp
  | some fault => simp

namespace Arguments

/-- The environment with the variables entered of the file that the command line names, if it names
one. -/
def environment (args : Arguments) (env : Environment)
    (read : String → Except FileFault (List UInt8)) : Except Failure Environment :=
  match args.variablesFile.filter (· != "") with
  | some path => entered args.overrides env (read (LocalPath.tidy path))
  | none => .ok env

/-- The file of variables that the command line names is there, but it cannot be read, or it is no
text, or a variable that it sets cannot be entered. -/
def HasSpoiltVariables (args : Arguments) (env : Environment)
    (read : String → Except FileFault (List UInt8)) : Prop :=
  ∃ path, args.variablesFile.filter (· != "") = some path ∧
    ((∃ text, read (LocalPath.tidy path) = .error (.other text)) ∨
      ∃ octets, read (LocalPath.tidy path) = .ok octets ∧
        ((∃ fault, Utf8.decode octets = .error fault) ∨
          ∃ text, Document.fileText octets = .ok text ∧
            Dotenv.load args.overrides text env = .error .null))

/-- The level of the log, in the environment with the variables entered, is the name of something
else of the library that logs. -/
def HasMisnamedLevel (args : Arguments) (env : Environment)
    (read : String → Except FileFault (List UInt8)) : Prop :=
  ∃ env', args.environment env read = .ok env' ∧
    String.ofList (upper (Settings.ofEnvironment env').logLevel.toList) ∈
      ["BASIC_FORMAT", "_STYLES"]

/-- Something goes wrong before the command begins: in loading the file of variables or in opening
the log. -/
def IsSpoilt (args : Arguments) (env : Environment)
    (read : String → Except FileFault (List UInt8)) : Prop :=
  args.HasSpoiltVariables env read ∨ args.HasMisnamedLevel env read

/-- Variables of a file that is not there are not entered, which is no failure. -/
theorem exists_entered_error_eq_error_iff {overrides : Bool} {env : Environment}
    {fault : FileFault} :
    (∃ f, entered overrides env (.error fault) = .error f) ↔ ∃ text, fault = .other text := by
  cases fault with
  | other text => exact ⟨fun _ => ⟨text, rfl⟩, fun _ => ⟨_, rfl⟩⟩
  | _ =>
    constructor
    · rintro ⟨f, hf⟩
      cases hf
    · rintro ⟨text, htext⟩
      cases htext

/-- The variables of a file that is read are not entered exactly if it is no text, or one of them
cannot be. -/
theorem exists_entered_ok_eq_error_iff {overrides : Bool} {env : Environment}
    {octets : List UInt8} :
    (∃ f, entered overrides env (.ok octets) = .error f) ↔
      (∃ fault, Utf8.decode octets = .error fault) ∨
        ∃ text, Document.fileText octets = .ok text ∧
          Dotenv.load overrides text env = .error .null := by
  cases hdecode : Utf8.decode octets with
  | error fault =>
    have htext : Document.fileText octets = .error (.octets fault) := by
      rw [Document.fileText, hdecode]
      rfl
    refine ⟨fun _ => .inl ⟨fault, rfl⟩, fun _ => ⟨.octets fault, ?_⟩⟩
    rw [entered, htext]
    rfl
  | ok chars =>
    have htext : Document.fileText octets = .ok (String.ofList (unifyLineEnds chars)) := by
      rw [Document.fileText, hdecode]
      rfl
    have hentered : entered overrides env (.ok octets) =
        (Dotenv.load overrides (String.ofList (unifyLineEnds chars)) env).mapError
          fun _ => .nullInVariable := by
      rw [entered, htext]
      rfl
    rw [hentered, htext]
    cases hload : Dotenv.load overrides (String.ofList (unifyLineEnds chars)) env with
    | error fault => exact ⟨fun _ => .inr ⟨_, rfl, hload⟩, fun _ => ⟨_, rfl⟩⟩
    | ok env' =>
      constructor
      · rintro ⟨f, hf⟩
        cases hf
      · rintro (⟨fault, hfault⟩ | ⟨text, htext, hnull⟩)
        · cases hfault
        · obtain rfl := Except.ok.inj htext
          rw [hload] at hnull
          cases hnull

/-- There are no variables exactly if their file is spoilt. -/
theorem hasSpoiltVariables_iff (args : Arguments) (env : Environment)
    (read : String → Except FileFault (List UInt8)) :
    args.HasSpoiltVariables env read ↔ ∃ f, args.environment env read = .error f := by
  unfold HasSpoiltVariables environment
  cases hpath : args.variablesFile.filter (· != "") with
  | none => simp
  | some path =>
    simp only [Option.some.injEq, exists_eq_left']
    cases hread : read (LocalPath.tidy path) with
    | error fault => simp [exists_entered_error_eq_error_iff]
    | ok octets => simp [exists_entered_ok_eq_error_iff]

/-- Once the log is open there is an answer that can be written. -/
theorem reaches_performWith {args : Arguments} {settings : Settings} {least : Nat}
    (hleast : Log.threshold settings.logLevel = .ok least) :
    Reaches (fun r => ∃ a, r = .ok a ∧ a.IsSound) (args.performWith settings).run := by
  have hopen : settings.openLog =
      Action.always (Activity.query (.openLog least settings.logJson)) := by
    unfold Settings.openLog
    rw [hleast]
    rfl
  unfold performWith
  rw [hopen, ExceptT.run_bind]
  refine (Reaches.any _).run_always.bind ?_
  rintro _ ⟨_, rfl, -⟩
  exact (args.command.reaches_answer settings).run_always

variable {σ : Type} {answer : (q : Question) → σ → q.Reply × σ}

/-- Without a level to log from there is no answer. -/
theorem run_performWith_of_error {args : Arguments} {settings : Settings} {fault : Log.LevelFault}
    (hfault : Log.threshold settings.logLevel = .error fault) (s : σ) :
    (args.performWith settings).run.run answer s = (.error (.logLevel fault), s) := by
  unfold performWith Settings.openLog
  rw [hfault]
  rfl

/-- A command line is carried out with the variables that were entered, if they could be. -/
theorem exists_run_perform (args : Arguments) (env : Environment) (s : σ) :
    ∃ t, (args.perform env).run.run answer s =
      match args.environment env fun path => (answer (.file path) s).1 with
      | .ok env => (args.performWith (.ofEnvironment env)).run.run answer t
      | .error f => (.error f, t) := by
  cases hpath : args.variablesFile.filter (· != "") with
  | none =>
    refine ⟨s, ?_⟩
    unfold environment
    rw [perform_of_none hpath, hpath]
  | some path =>
    have hload : (loadVariables args.overrides path env).run.run answer s =
        (entered args.overrides env (answer (.file (LocalPath.tidy path)) s).1,
          (answer (.file (LocalPath.tidy path)) s).2) := rfl
    refine ⟨(answer (.file (LocalPath.tidy path)) s).2, ?_⟩
    unfold environment
    rw [perform_of_some hpath, hpath, ExceptT.run_bind]
    refine (Program.run_bind answer _ _ s).trans ?_
    rw [hload]
    dsimp only
    cases entered args.overrides env (answer (.file (LocalPath.tidy path)) s).1 with
    | ok env => rfl
    | error f => rfl

/-- `perform` ends with an answer that `IsRendered`, whatever the store, the network, the language
model and the files do, except where `IsSpoilt` holds of the command line, the environment and the
files: then it ends with a failure, and there is no answer. -/
theorem perform_answers (hanswer : ∀ q s, Question.NamesFailures q (answer q s).1)
    (args : Arguments) (env : Environment) (s : σ) :
    (args.IsSpoilt env (fun path => (answer (.file path) s).1) →
      ∃ f, ((args.perform env).run.run answer s).1 = .error f) ∧
    (¬args.IsSpoilt env (fun path => (answer (.file path) s).1) →
      ∃ a, ((args.perform env).run.run answer s).1 = .ok a ∧ a.IsRendered) := by
  obtain ⟨t, hrun⟩ := @exists_run_perform σ answer args env s
  rw [hrun, IsSpoilt, hasSpoiltVariables_iff, HasMisnamedLevel]
  cases hentered : args.environment env fun path => (answer (.file path) s).1 with
  | error f => exact ⟨fun _ => ⟨f, rfl⟩, fun h => absurd (.inl ⟨f, rfl⟩) h⟩
  | ok env' =>
    simp only [reduceCtorEq, exists_false, false_or, Except.ok.injEq, exists_eq_left',
      ← Log.exists_threshold_eq_error_iff]
    cases hleast : Log.threshold (Settings.ofEnvironment env').logLevel with
    | error fault =>
      rw [run_performWith_of_error hleast]
      exact ⟨fun _ => ⟨_, rfl⟩, fun h => absurd ⟨fault, rfl⟩ h⟩
    | ok least =>
      obtain ⟨a, ha, hsound⟩ := (reaches_performWith hleast).ends_run hanswer t
      refine ⟨?_, fun _ => ⟨a, ha, hsound.isRendered⟩⟩
      rintro ⟨fault, hfault⟩
      cases hfault

end Arguments

/-- A world in which every file has the same octets, and nothing else outside is reached. -/
def World.filed (octets : List UInt8) : World Store where
  answer q s :=
    match q with
    | .file _ => (.ok octets, s)
    | q => isolated.answer q s
  store s := s
  reply_transact _ _ := rfl
  store_transact _ _ := rfl
  store_outside q s h := by
    cases q with
    | file => rfl
    | _ => exact isolated.store_outside _ s h
  dumps := Artifact.dumped
  reply_dump _ _ := rfl

/-- Failures of the store and of dumping have names where only files are there beside them. -/
theorem World.namesFailures_filed (octets : List UInt8) (q : Question) (s : Store) :
    q.NamesFailures ((filed octets).answer q s).1 := by
  cases q with
  | transact t => exact (s.perform_effect t).conforms
  | dump a =>
    show Conforms Anything (a.dumped.mapError Failure.outside)
    unfold Artifact.dumped
    split
    · trivial
    · exact .error (by decide)
  | _ => trivial

namespace Arguments

/-- A file of variables that is a text is entered, and the command is answered; with a level of the
log that is none it is not. -/
theorem perform_answers_with_variables :
    let W := World.filed [0x41, 0x3D, 0x31]
    let args : Arguments := ⟨some ".env", false, .poll "7f"⟩
    let read := fun path => (W.answer (.file path) .empty).1
    let misnamed := Table.empty.insert "GRAPHYY_LOG_LEVEL" "basic_format"
    (∀ q s, Question.NamesFailures q (W.answer q s).1) ∧
      (¬args.IsSpoilt .empty read ∧
        ∃ a, ((args.perform .empty).run.run W.answer .empty).1 = .ok a ∧ a.IsRendered) ∧
      args.IsSpoilt misnamed read ∧
        ∃ f, ((args.perform misnamed).run.run W.answer .empty).1 = .error f := by
  intro W args read misnamed
  have hanswer := World.namesFailures_filed [0x41, 0x3D, 0x31]
  have hload (env : Environment) (hnew : env.contains "A" = false) :
      args.environment env read = .ok (env.insert "A" "1") := by
    have htext : Document.fileText [0x41, 0x3D, 0x31] = .ok "A=1" := by
      have hdecode : Utf8.decode [0x41, 0x3D, 0x31] = .ok "A=1".toList := by decide +kernel
      rw [Document.fileText, hdecode]
      rfl
    have hlines : Dotenv.assignments "A=1" = [("A", "1")] := by decide +kernel
    show entered false env (.ok [0x41, 0x3D, 0x31]) = _
    rw [entered, htext]
    show (Dotenv.load false "A=1" env).mapError _ = _
    rw [Dotenv.load, hlines]
    simp [Dotenv.enter, hnew, Dotenv.hasNull, Except.mapError]
  have hentered := hload .empty rfl
  have hmisnamed := hload misnamed (by decide +kernel)
  have hsound : ¬args.IsSpoilt .empty read := by
    rw [IsSpoilt, hasSpoiltVariables_iff, HasMisnamedLevel, hentered]
    rintro (⟨f, hf⟩ | ⟨env, henv, hlevel⟩)
    · cases hf
    · cases henv
      revert hlevel
      decide +kernel
  have hspoilt : args.IsSpoilt misnamed read := .inr ⟨_, hmisnamed, by decide +kernel⟩
  exact ⟨hanswer, ⟨hsound, (perform_answers hanswer args .empty .empty).2 hsound⟩, hspoilt,
    (perform_answers hanswer args misnamed .empty).1 hspoilt⟩

/-- A file of variables that is no text leaves a command line without an answer. -/
theorem no_answer_of_octets :
    let W := World.filed [0xFF]
    ∃ args, Arguments.parse ["--dotenv", ".env", "poll", "7f"] = .ok args ∧
      ∀ a, ((args.perform .empty).run.run W.answer .empty).1 ≠ .ok a := by
  intro W
  refine ⟨⟨some ".env", false, .poll "7f"⟩, rfl, fun a ha => ?_⟩
  have hperform : (((Arguments.perform ⟨some ".env", false, .poll "7f"⟩ .empty).run.run W.answer
      .empty).1).isOk = false := by
    decide +kernel
  rw [ha] at hperform
  cases hperform

end Arguments

end RepoGraph
