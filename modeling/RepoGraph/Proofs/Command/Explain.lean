import RepoGraph.Proofs.Command.Answered
import RepoGraph.Proofs.Command.Invocation
import RepoGraph.Proofs.Command.LineRange
import RepoGraph.Proofs.Text.Utf8

/-!
# Explanations of some lines

A line that asks for an explanation of some lines of a file (`Command.explainWords`) is read as that
command (`Arguments.parse_explain`). Where the job is known and its file is there, the language
model is asked about the lines that `LineRange.select` takes out of the file
(`World.invokes_explain_iff`). These are the lines that an editor numbers so as long as only line
feeds and carriage returns end a line (`World.explain_lines`). A form feed shifts the numbers of the
lines after it (`World.explain_lines_form_feed`).
-/

namespace RepoGraph

open RepoGraph.Text

/-! ## Command lines -/

namespace Command

/-- What follows the name of the command in a line that asks for an explanation of some lines of a
file, perhaps of a local copy. -/
def explainArguments (id path : String) (copy : Option String) (spec : String) : List String :=
  [id, "--file", path] ++ (copy.elim [] fun copy => ["--source", copy]) ++ ["--lines", spec]

/-- The line that asks for an explanation of some lines of a file. -/
def explainWords (id path : String) (copy : Option String) (spec : String) : List String :=
  "explain" :: explainArguments id path copy spec

/-- The arguments of such a line with what they are, depending on what the names of options are. -/
def explainMarks (mark : String → Mark) (id path : String) (copy : Option String)
    (spec : String) : List (String × Mark) :=
  [(id, .word), ("--file", mark "--file"), (path, .word)] ++
    (copy.elim [] fun copy => [("--source", mark "--source"), (copy, .word)]) ++
    [("--lines", mark "--lines"), (spec, .word)]

/-- The grammar of what follows the name of the command. -/
def explainGrammar : Grammar :=
  ⟨[helpRule, valueRule "--file", valueRule "--source", valueRule "--lines"], .word⟩

/-- The values of the options in such a line. -/
def explainValues (path : String) (copy : Option String) (spec : String) : Table String :=
  let file := Table.empty.insert "--file" path
  (copy.elim file fun copy => file.insert "--source" copy).insert "--lines" spec

/-- The names in such a line do not look like options. -/
structure AreWords (id path : String) (copy : Option String) : Prop where
  /-- The name of the job. -/
  id : IsWord id
  /-- The path of the file. -/
  path : IsWord path
  /-- The local copy. -/
  copy : ∀ name ∈ copy, IsWord name

variable {id path spec : String} {copy : Option String}

/-- The arguments of such a line are words and the names of options. -/
theorem marksOf_explainArguments {rules : List OptionRule} {mark : String → Mark}
    (hmark : ∀ name ∈ ["--file", "--source", "--lines"], markOf rules name = .ok (mark name))
    (h : AreWords id path copy) (hspec : IsWord spec) :
    marksOf rules (explainArguments id path copy spec) =
      .ok (explainMarks mark id path copy spec) := by
  have hoption {name word : String} {args : List String} {ms : List (String × Mark)}
      (hname : name ∈ ["--file", "--source", "--lines"]) (hword : IsWord word)
      (hrest : marksOf rules args = .ok ms) :
      marksOf rules (name :: word :: args) = .ok ((name, mark name) :: (word, .word) :: ms) := by
    refine marksOf_cons ?_ (hmark name hname) (marksOf_cons_word hword hrest)
    rintro rfl
    revert hname
    decide
  have hlines : marksOf rules ["--lines", spec] =
      .ok [("--lines", mark "--lines"), (spec, .word)] := hoption (by decide) hspec rfl
  refine marksOf_cons_word h.id ?_
  cases copy with
  | none => exact hoption (by decide) h.path hlines
  | some copy =>
    exact hoption (by decide) h.path (hoption (by decide) (h.copy copy rfl) hlines)

/-- In front of the command its options are not known, and are left to it. -/
theorem parse_front_explainWords (h : AreWords id path copy) (hspec : IsWord spec) :
    frontGrammar.parse (explainWords id path copy spec) =
      .ok ⟨.empty, explainWords id path copy spec, false⟩ := by
  have hmarks : marksOf frontRules (explainWords id path copy spec) =
      .ok (("explain", .word) :: explainMarks (fun _ => .unknown) id path copy spec) := by
    refine marksOf_cons_word (by decide) (marksOf_explainArguments ?_ h hspec)
    simp only [List.forall_mem_cons]
    exact ⟨rfl, rfl, rfl, nofun⟩
  rw [Grammar.parse]
  show (marksOf frontRules _ >>= _) = _
  rw [hmarks]
  cases copy <;> rfl

/-- The options of the command get their values, and the job is what stands between them. -/
theorem parse_explainArguments (h : AreWords id path copy) (hspec : IsWord spec) :
    explainGrammar.parse (explainArguments id path copy spec) =
      .ok ⟨explainValues path copy spec, [id], false⟩ := by
  have hmarks : marksOf explainGrammar.options (explainArguments id path copy spec) =
      .ok (explainMarks (fun name => .option (valueRule name) none) id path copy spec) := by
    refine marksOf_explainArguments ?_ h hspec
    simp only [List.forall_mem_cons]
    exact ⟨rfl, rfl, rfl, nofun⟩
  rw [Grammar.parse]
  show (marksOf explainGrammar.options _ >>= _) = _
  rw [hmarks]
  cases copy <;> rfl

end Command

open Command

variable {id path spec : String} {copy : Option String} {r : LineRange}

/-- A line that asks for an explanation of some lines of a file is read as that. -/
theorem Arguments.parse_explain (h : AreWords id path copy) (hspec : IsWord spec) :
    Arguments.parse (explainWords id path copy spec) =
      .ok ⟨none, false, .explain id (some path) copy (some spec)⟩ := by
  refine Arguments.parse_of_front (parse_front_explainWords h hspec) rfl
    (parse_explainArguments h hspec) rfl ?_
  cases copy <;> rfl

/-- What is read as a range does not look like an option. -/
theorem LineRange.isWord_of_parse (h : LineRange.parse spec = .ok r) : IsWord spec := by
  intro hhead
  obtain ⟨cs, hcs⟩ := List.head?_eq_some_iff.mp hhead
  -- Before the hyphen there would have to be the number of the first line.
  have hnone : LineRange.parse? spec = none := by
    unfold LineRange.parse?
    rw [hcs, cut?, if_pos rfl]
    rfl
  rw [LineRange.parse, hnone] at h
  cases h

/-- The answer to a command with what a language model says about some lines of a file. -/
def Command.explained (s : Settings) (c : Command) (job : Job) (path lines : String) :
    Activity Answer := do
  match ← (Explain.snippet path lines job.repository.fullName s.llmModel
      (.withKey s.openaiApiKey)).run with
  | .ok text => return .success [("job_id", .str job.id), ("explanation", .str text)]
  | .error f => return .ofFailure c f

/-! ## Runs -/

namespace World

variable {σ : Type} (W : World σ) {settings : Settings} {s s' t : σ} {job : Job} {text : String}

/-- A file of a repository has a text, which is told from one state to another: that of the octets
of a local copy in UTF-8, with replacement characters for what is no text, or else the one that the
server has. -/
inductive HasText (settings : Settings) (job : Job) (path : String) :
    Option String → String → σ → σ → Prop
  /-- There is a local copy. -/
  | copy {name : String} {octets : List UInt8} {s t : σ}
      (h : W.answer (.file (LocalPath.tidy name)) s = (.ok octets, t)) :
      HasText settings job path (some name) (String.ofList (Utf8.decodeLossy octets)) s t
  /-- The server is asked. -/
  | server {text : String} {s t : σ}
      (h : W.run ((GitHub.ofSettings settings).file job.repository path).run s = (.ok text, t)) :
      HasText settings job path none text s t

/-- The state in which a job was looked for. -/
def sought (settings : Settings) (id : String) (s : σ) : σ :=
  (W.run (Lifecycle.find id).run (W.opened settings s)).2

/-- From a state on, the job is known and its file is there with a text, up to another state. An
empty name of a local copy counts as none. -/
structure Knows (settings : Settings) (id path : String) (copy : Option String) (job : Job)
    (text : String) (s t : σ) : Prop where
  /-- The store can be opened. -/
  opens : W.Opens settings
  /-- The job is in the store. -/
  isStored : (W.store s).job? id = some job
  /-- The path of the file is not empty. -/
  isNamed : path ≠ ""
  /-- The file has the text. -/
  hasText : W.HasText settings job path (copy.filter (· != "")) text (W.sought settings id s) t

/-- Of a file with a text the lines of a range are explained. -/
theorem run_explainFile (h : W.HasText settings job path copy text s t)
    (hspec : LineRange.parse spec = .ok r) :
    W.run (explainFile settings job path copy (some spec)).run s =
      W.run (Explain.snippet path (r.select text) job.repository.fullName settings.llmModel
        (.withKey settings.openaiApiKey)).run t := by
  -- The text may come with its line ends made line feeds, which changes no line.
  have hsource : ∃ code, W.run (sourceText settings job path copy).run s = (.ok code, t) ∧
      r.select code = r.select text := by
    cases h with
    | copy h =>
      refine ⟨_, ?_, r.select_unifyLineEnds _⟩
      unfold sourceText readOctets Action.demand
      rw [run_bind_eq, ExceptT.run_mk, run_bind, run_query, h]
      rfl
    | server h => exact ⟨_, h, rfl⟩
  obtain ⟨code, hcode, hselect⟩ := hsource
  unfold explainFile
  rw [run_bind_eq, hcode]
  dsimp only
  rw [hspec, ← hselect]
  rfl

/-- A job of the store is found. -/
theorem run_find (hopens : W.Opens settings) (hjob : (W.store s).job? id = some job) :
    W.run (Lifecycle.find id).run (W.opened settings s) =
      (.ok (some job), W.sought settings id s) := by
  obtain ⟨u, hrun, -⟩ := W.exists_run_transact (.find id) (W.opened settings s)
  rw [hopens.store_opened s] at hrun
  have hfound : (W.run (Lifecycle.find id).run (W.opened settings s)).1 = .ok (some job) := by
    rw [Lifecycle.find, hrun, ← hjob]
    rfl
  exact Prod.ext hfound rfl

/-- The command is answered with what a language model says about the lines of a range. -/
theorem run_answer_explain (h : W.Knows settings id path copy job text s t)
    (hspec : LineRange.parse spec = .ok r) :
    W.run (Command.answer settings (.explain id (some path) copy (some spec)))
        (W.logged settings s) =
      W.run (explained settings (.explain id (some path) copy (some spec)) job path
        (r.select text)) t := by
  have hspec_ne : spec ≠ "" := by
    rintro rfl
    cases hspec
  have hpresent {word : String} (hword : word ≠ "") :
      (some word).filter (· != "") = some word := by
    simpa using hword
  have hcarry : W.run (Command.carryOut settings (.explain id (some path) copy (some spec))).run
        (W.logged settings s) =
      W.run (do
        let text ← explainFile settings job path (copy.filter (· != "")) (some spec)
        return Answer.success [("job_id", .str job.id), ("explanation", .str text)] :
          Action Answer).run (W.sought settings id s) := by
    unfold Command.carryOut
    rw [W.run_openStore h.opens]
    unfold explainJob
    rw [run_bind_eq, W.run_find h.opens h.isStored]
    dsimp only
    rw [hpresent h.isNamed, hpresent hspec_ne]
  unfold Command.answer explained
  rw [run_bind, hcarry, run_bind_eq, W.run_explainFile h.hasText hspec, run_bind]
  obtain ⟨reply, u⟩ := W.run (Explain.snippet path (r.select text) job.repository.fullName
    settings.llmModel (.withKey settings.openaiApiKey)).run t
  cases reply <;> rfl

/-- The line is answered with what a language model says about the lines of a range. -/
theorem invokes_explain_iff {env : Environment} {a : Answer}
    (h : W.Knows (.ofEnvironment env) id path copy job text s t)
    (hwords : AreWords id path copy) (hspec : LineRange.parse spec = .ok r) :
    W.Invokes env (explainWords id path copy spec) s a s' ↔
      W.run (explained (.ofEnvironment env) (.explain id (some path) copy (some spec)) job path
        (r.select text)) t = (a, s') := by
  have hparse := Arguments.parse_explain hwords (LineRange.isWord_of_parse hspec)
  rw [W.invokes_iff_of_parse h.opens hparse, W.run_answer_explain h hspec]

/-! ## Lines of an editor -/

/-- Of a file of a known job those lines are explained that an editor has in the range, as far as
there are any, if only line feeds and carriage returns end a line up to there. Where another
character does, there is a range that goes wrong. A text is read as a range of at least one line,
counted from one, or refused; the numbers of two lines with a hyphen between them are read as the
range from the one to the other, and a number alone as that line. -/
theorem explain_lines {env : Environment}
    (h : W.Knows (.ofEnvironment env) id path copy job text s t) (hwords : AreWords id path copy) :
    (∀ {spec : String} {r : LineRange} {a : Answer} {s' : σ}, LineRange.parse spec = .ok r →
      HasPlainEnds r.last text.toList →
      (W.Invokes env (explainWords id path copy spec) s a s' ↔
        W.run (explained (.ofEnvironment env) (.explain id (some path) copy (some spec)) job path
          (r.shown text)) t = (a, s'))) ∧
    (∀ n, HasPlainEnds n text.toList ↔
      ∀ r : LineRange, r.last ≤ n → r.select text = r.shown text) ∧
    (∀ spec, LineRange.parse spec = .error (.lineRange spec) ∨
      ∃ r, LineRange.parse spec = .ok r ∧ 1 ≤ r.first ∧ r.first ≤ r.last) ∧
    ∀ {m n : Nat} (hm : 1 ≤ m) (hmn : m ≤ n), Decimal.digitCount m ≤ Decimal.digitLimit →
      LineRange.parse (toString m) = .ok ⟨m, m, hm, le_rfl⟩ ∧
      (Decimal.digitCount n ≤ Decimal.digitLimit →
        LineRange.parse (toString m ++ "-" ++ toString n) = .ok ⟨m, n, hm, hmn⟩) := by
  refine ⟨fun {spec r a s'} hspec hplain => ?_,
    fun n => LineRange.hasPlainEnds_iff_select_eq_shown n text, LineRange.parse_error_or_ok,
    fun hm hmn hfirst => ⟨LineRange.parse_single hm hfirst, LineRange.parse_pair hm hmn hfirst⟩⟩
  rw [W.invokes_explain_iff h hwords hspec, r.select_eq_shown hplain]

/-! ## A world with a language model -/

/-- A world in which every file has the same text and a language model answers a single request, and
nothing else outside is reached. -/
def answering (text : String) (request : Explain.Request) : World Store where
  answer q s :=
    match q with
    | .openModel => (.ok (), s)
    | .explain asked =>
      (if asked = request then .ok (.obj [("output_text", .str "done")]) else .error "", s)
    | q => (filed (Utf8.encode text.toList)).answer q s
  store s := s
  reply_transact _ _ := rfl
  store_transact _ _ := rfl
  store_outside q s h := by
    cases q with
    | openModel | explain => rfl
    | _ => exact (filed (Utf8.encode text.toList)).store_outside _ s h
  dumps := Artifact.dumped
  reply_dump _ _ := rfl

/-- Variables that give the key for a language model, and name the model. -/
def modelVariables : Environment :=
  (Table.empty.insert "OPENAI_API_KEY" "sk").insert "GRAPHYY_LLM_MODEL" "mm"

/-- A job of the repository `acme/demo` that was just entered. -/
def demoJob : Job where
  id := "7f"
  repository := ⟨"acme", "demo"⟩
  url := "https://github.com/acme/demo"
  createdAt := ⟨0, true⟩

/-- A store with that job. -/
def demoStore : Store := { Store.empty with jobs := .insert .empty "7f" demoJob.toJobRecord }

/-- The request to explain some lines of a file of its repository. -/
def demoRequest (lines : String) : Explain.Request :=
  ⟨some "sk", "mm", Prompt.ofSnippet "src/a.ts" lines "acme/demo"⟩

/-- In such a world the job is known, and the file is there with the text. -/
theorem knows_answering (text : String) (request : Explain.Request) :
    (answering text request).Knows (.ofEnvironment modelVariables) "7f" "src/a.ts" (some "l.txt")
      demoJob text demoStore demoStore where
  opens := ⟨⟨20, rfl⟩, fun _ => rfl, fun _ => rfl⟩
  isStored := rfl
  isNamed := by decide
  hasText := by
    have htext : String.ofList (Utf8.decodeLossy (Utf8.encode text.toList)) = text := by
      rw [Utf8.decodeLossy_encode, String.ofList_toList]
    have hcopy : (answering text request).HasText (.ofEnvironment modelVariables) demoJob "src/a.ts"
        (some "l.txt") (String.ofList (Utf8.decodeLossy (Utf8.encode text.toList))) demoStore
        demoStore := .copy rfl
    rw [htext] at hcopy
    exact hcopy

/-- An explanation of some lines is had in such a world exactly if they are what it answers. -/
theorem run_explained_answering (c : Command) (text lines : String) (request : Explain.Request) :
    (answering text request).run
        (explained (.ofEnvironment modelVariables) c demoJob "src/a.ts" lines) demoStore =
      (if demoRequest lines = request then
        .success [("job_id", .str "7f"), ("explanation", .str "done")]
      else .ofFailure c (.explain (.call "")), demoStore) := by
  have hkey : (Settings.ofEnvironment modelVariables).openaiApiKey = some "sk" := by decide +kernel
  have hmodel : (Settings.ofEnvironment modelVariables).llmModel = "mm" := by decide +kernel
  have haccess : (answering text request).run
      (Explain.openAccess (.withKey (some "sk"))).run demoStore =
      (.ok (some "sk"), demoStore) := rfl
  have hsnippet : (answering text request).run (Explain.snippet "src/a.ts" lines
      demoJob.repository.fullName "mm" (.withKey (some "sk"))).run demoStore =
      (Explain.readAnswer (if demoRequest lines = request then
        .ok (.obj [("output_text", .str "done")]) else .error ""), demoStore) := by
    unfold Explain.snippet
    rw [run_bind_eq, haccess]
    rfl
  unfold explained
  rw [hkey, hmodel, run_bind, hsnippet]
  by_cases h : demoRequest lines = request
  · rw [if_pos h, if_pos h]
    rfl
  · rw [if_neg h, if_neg h]
    rfl

/-- Of three lines with three kinds of ends the last two are explained. -/
theorem explain_lines_of_three :
    let W := answering "a\r\nb\rc\n" (demoRequest "b\nc")
    (W.Knows (.ofEnvironment modelVariables) "7f" "src/a.ts" (some "l.txt") demoJob "a\r\nb\rc\n"
        demoStore demoStore ∧
      AreWords "7f" "src/a.ts" (some "l.txt") ∧ HasPlainEnds 3 "a\r\nb\rc\n".toList) ∧
      W.Invokes modelVariables
        ["explain", "7f", "--file", "src/a.ts", "--source", "l.txt", "--lines", "2-3"] demoStore
        (.success [("job_id", .str "7f"), ("explanation", .str "done")]) demoStore := by
  intro W
  have hknows := knows_answering "a\r\nb\rc\n" (demoRequest "b\nc")
  have hwords : AreWords "7f" "src/a.ts" (some "l.txt") := ⟨by decide, by decide, by decide⟩
  have hplain : HasPlainEnds 3 "a\r\nb\rc\n".toList := by decide
  have hspec : LineRange.parse "2-3" = .ok ⟨2, 3, by decide, by decide⟩ :=
    LineRange.parse_pair (m := 2) (n := 3) (by decide) (by decide) (by decide) (by decide)
  have hshown : (⟨2, 3, by decide, by decide⟩ : LineRange).shown "a\r\nb\rc\n" = "b\nc" := by
    decide +kernel
  refine ⟨⟨hknows, hwords, hplain⟩, ((W.explain_lines hknows hwords).1 hspec hplain).mpr ?_⟩
  rw [hshown, run_explained_answering, if_pos rfl]

/-- A form feed in the first line makes two lines of it, so that instead of the second line its end
is explained. -/
theorem explain_lines_form_feed :
    let W := answering "a\x0cb\nc" (demoRequest "b")
    W.Knows (.ofEnvironment modelVariables) "7f" "src/a.ts" (some "l.txt") demoJob "a\x0cb\nc"
        demoStore demoStore ∧
      ∃ r a, LineRange.parse "2-2" = .ok r ∧ r.shown "a\x0cb\nc" = "c" ∧
        W.Invokes modelVariables
          ["explain", "7f", "--file", "src/a.ts", "--source", "l.txt", "--lines", "2-2"] demoStore a
          demoStore ∧
        W.run (explained (.ofEnvironment modelVariables)
          (.explain "7f" (some "src/a.ts") (some "l.txt") (some "2-2")) demoJob "src/a.ts"
          (r.shown "a\x0cb\nc")) demoStore ≠ (a, demoStore) := by
  intro W
  have hknows := knows_answering "a\x0cb\nc" (demoRequest "b")
  have hwords : AreWords "7f" "src/a.ts" (some "l.txt") := ⟨by decide, by decide, by decide⟩
  have hspec : LineRange.parse "2-2" = .ok ⟨2, 2, by decide, by decide⟩ :=
    LineRange.parse_pair (m := 2) (n := 2) (by decide) (by decide) (by decide) (by decide)
  have hselect : (⟨2, 2, by decide, by decide⟩ : LineRange).select "a\x0cb\nc" = "b" := by
    decide +kernel
  have hshown : (⟨2, 2, by decide, by decide⟩ : LineRange).shown "a\x0cb\nc" = "c" := by
    decide +kernel
  have hother : demoRequest "c" ≠ demoRequest "b" := by decide +kernel
  refine ⟨hknows, _, .success [("job_id", .str "7f"), ("explanation", .str "done")], hspec, hshown,
    (W.invokes_explain_iff hknows hwords hspec).mpr ?_, ?_⟩
  · rw [hselect, run_explained_answering, if_pos rfl]
  · rw [hshown, run_explained_answering, if_neg hother]
    exact fun h => by cases h

end World

end RepoGraph
