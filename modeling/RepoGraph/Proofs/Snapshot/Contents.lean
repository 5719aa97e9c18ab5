import RepoGraph.Proofs.Asked
import RepoGraph.Proofs.Http
import RepoGraph.Proofs.Text.Ascii

/-!
# What comes of fetching texts

The texts of files are asked for by addresses that end with their paths, quoted. Different paths are
quoted differently (`pathText_injective`), and a path without dot segments is sent as it is quoted
(`sendsQuoted_target`). So in a web that gives one answer to each address, what comes of a file is
determined by the answer to its own address (`FetchOutcome.answered`, `run_contents`): it is told
apart by cases (`FetchOutcome.Reflects`), and what is answered for one path is of no concern to
files at other paths. Only one fault of one file ends the whole: `response.text`, which decodes the
octets of a response in the character set that it declares, is read after the faults of the
transport were caught (`contents_fails_of_unreadable_text`).
-/

namespace RepoGraph

open RepoGraph.Text

/-! ## Addresses of texts -/

namespace GitHub

/-- What is not encoded in the path of a file. -/
def isKept (c : Char) : Bool := Percent.isUnreserved c || c == '/'

/-- The path of a file is quoted by encoding all else. -/
theorem toList_pathText (path : String) :
    (pathText path).toList = Percent.encode isKept path.toList := String.toList_ofList

/-- Different paths are quoted differently. -/
theorem pathText_injective : Function.Injective pathText := by
  intro p q h
  have hchars : Percent.encode isKept p.toList = Percent.encode isKept q.toList := by
    rw [← toList_pathText, h, toList_pathText]
  exact String.toList_inj.mp (Percent.encode_injective rfl hchars)

/-- Letters, digits and the marks that are not encoded are visible. -/
theorem toNat_of_isKept {c : Char} (h : isKept c = true) : 0x20 < c.toNat ∧ c.toNat < 0x7F := by
  unfold isKept Percent.isUnreserved at h
  simp only [Bool.or_eq_true, beq_iff_eq, isAlphanum_iff] at h
  rcases h with ((((h | rfl) | rfl) | rfl) | rfl) | rfl
  · omega
  all_goals decide

/-- What is not encoded in the path of a file may stand in a path. -/
theorem isPathChar_of_isKept {c : Char} (h : isKept c = true) : Http.isPathChar c = true := by
  have hmarks : Http.encodedMarks.all (fun m => !isKept m) = true := by decide
  have hfree : c ∉ Http.encodedMarks := by
    intro hmem
    have hkept := List.all_eq_true.mp hmarks c hmem
    rw [h] at hkept
    cases hkept
  obtain ⟨hlow, hhigh⟩ := toNat_of_isKept h
  simp [Http.isPathChar, hfree, hlow, hhigh]

/-- A segment that is encoded has dots where the segment has them. -/
theorem isPlainSegment_encode {segment : List Char} (h : Http.IsPlainSegment segment) :
    Http.IsPlainSegment (Percent.encode isKept segment) := by
  have hinjective : Function.Injective (Percent.encode isKept) := Percent.encode_injective rfl
  constructor
  · intro hdot
    exact h.1 (hinjective (hdot.trans (by decide : ['.'] = Percent.encode isKept ['.'])))
  · intro hdots
    exact h.2 (hinjective (hdots.trans (by decide : ['.', '.'] = Percent.encode isKept ['.', '.'])))

/-- The segments below the repository, for a path that is quoted. -/
theorem splitOn_pathText (path : String) :
    splitOn '/' ("contents/".toList ++ (pathText path).toList) =
      "contents".toList :: (splitOn '/' path.toList).map (Percent.encode isKept) := by
  have hslash : "contents/".toList = "contents".toList ++ ['/'] := by decide
  have hword : splitOn '/' "contents".toList = ["contents".toList] := by decide
  rw [hslash, List.append_assoc, List.singleton_append, splitOn_append_cons, hword,
    toList_pathText, Percent.splitOn_encode rfl, List.singleton_append]

/-- A path without dot segments is sent as it is quoted. -/
theorem isPlain_pathText {path : String}
    (h : ∀ segment ∈ splitOn '/' path.toList, Http.IsPlainSegment segment) :
    Http.IsPlain ("contents/".toList ++ (pathText path).toList) where
  isPathChar := by
    intro c hc
    rcases List.mem_append.mp hc with hword | hpath
    · have hchars : "contents/".toList.all Http.isPathChar = true := by decide
      exact List.all_eq_true.mp hchars c hword
    · rw [toList_pathText] at hpath
      rcases Percent.mem_encode hpath with ⟨_, hkept⟩ | rfl | ⟨n, hn, rfl⟩
      · exact isPathChar_of_isKept hkept
      · decide
      · interval_cases n <;> decide
  segments := by
    intro segment hsegment
    rw [splitOn_pathText] at hsegment
    rcases List.mem_cons.mp hsegment with rfl | hquoted
    · exact ⟨by decide, by decide⟩
    · obtain ⟨plain, hplain, rfl⟩ := List.mem_map.mp hquoted
      exact isPlainSegment_encode (h plain hplain)

variable (g : GitHub) (r : Repository)

/-- The library sends the request for the text at a path to an address that is the path, quoted,
after a front. -/
def SendsQuoted (library : Http.Request → Except Http.Fault String) (front path : String) : Prop :=
  library (g.contentRequest r path) = .ok (front ++ pathText path)

/-- The address of the interface, without slashes at its end. -/
def base : String := String.ofList (dropRightWhile (· == '/') g.address.toList)

/-- What stands in front of the paths in the addresses for texts of a repository. -/
def contentsFront : String :=
  String.ofList ((Http.splitBase g.base.toList).1 ++
    joinWith '/' (Http.sentSegments g.base ("/repos/" ++ r.owner ++ "/" ++ r.name) ++
      ["contents".toList])) ++ "/"

/-- The path of a request for a text is that of its repository, and the path of the file below. -/
theorem path_contentRequest (path : String) :
    (g.contentRequest r path).path = ("/repos/" ++ r.owner ++ "/" ++ r.name) ++ "/" ++
      String.ofList ("contents/".toList ++ (pathText path).toList) := by
  have hword : "/" ++ ("contents/" ++ pathText path) = "/contents/" ++ pathText path := by
    rw [← String.append_assoc]
    rfl
  rw [String.ofList_append, String.ofList_toList, String.ofList_toList, String.append_assoc, hword]
  rfl

variable {r}

/-- The path of a repository has control characters only where its names have them. -/
theorem isPrintable_path (howner : Http.IsPrintable r.owner.toList)
    (hname : Http.IsPrintable r.name.toList) :
    Http.IsPrintable ("/repos/" ++ r.owner ++ "/" ++ r.name).toList := by
  have hrepos : Http.IsPrintable "/repos/".toList := by decide
  have hslash : Http.IsPrintable "/".toList := by decide
  rw [String.toList_append, String.toList_append, String.toList_append]
  exact ((hrepos.append howner).append hslash).append hname

/-- For a repository without control characters in its names, a path that is not too long and has
no dot segments is sent as it is quoted. -/
theorem sendsQuoted_target {path : String} (howner : Http.IsPrintable r.owner.toList)
    (hname : Http.IsPrintable r.name.toList)
    (hlength : (g.contentRequest r path).path.length ≤ 65536)
    (hpath : ∀ segment ∈ splitOn '/' path.toList, Http.IsPlainSegment segment) :
    g.SendsQuoted r Http.Request.target (g.contentsFront r) path := by
  -- The last segments, put together, are the path as it is quoted.
  have hjoined (front : List (List Char)) (hfront : front ≠ []) :
      joinWith '/' (front ++ splitOn '/' (pathText path).toList) =
        joinWith '/' front ++ '/' :: (pathText path).toList := by
    rw [joinWith_append hfront (splitOn_ne_nil '/' _), joinWith_splitOn]
  have hbase : (g.contentRequest r path).base = g.base := rfl
  have hquoted : String.ofList ('/' :: (pathText path).toList) = "/" ++ pathText path := by
    rw [← List.singleton_append, String.ofList_append, String.ofList_toList]
  unfold SendsQuoted
  rw [Http.Request.target_of_isPlain (g.path_contentRequest r path) rfl hlength
      (isPrintable_path howner hname) (isPlain_pathText hpath),
    splitOn_pathText, ← Percent.splitOn_encode rfl, ← toList_pathText, List.append_cons,
    hjoined _ (List.append_ne_nil_of_right_ne_nil _ (List.cons_ne_nil _ _)), hbase, contentsFront,
    ← List.append_assoc, String.ofList_append, hquoted, ← String.append_assoc]

end GitHub

/-! ## Answers and outcomes -/

/-- The reply to a request that a library sends to an address, in a web that answers addresses. -/
def Http.reply (library : Http.Request → Except Http.Fault String)
    (web : String → Except OutsideFault Http.Response) (request : Http.Request) :
    Except Http.Fault Http.Response := do
  let target ← library request
  (web target).mapError fun f => .transport f.name f.text

/-- Requests are sent through a library to a web that answers addresses. -/
def World.Serves {σ : Type} (W : World σ) (library : Http.Request → Except Http.Fault String)
    (web : String → Except OutsideFault Http.Response) : Prop :=
  ∀ limit requests s,
    (W.answer (.fetchAll limit requests) s).1.toList = requests.map (Http.reply library web)

namespace FetchOutcome

/-- The answer is a response with success that the library makes no text of, for this reason. -/
def IsUnreadable (answer : Except OutsideFault Http.Response) (f : OutsideFault) : Prop :=
  ∃ response, answer = .ok response ∧ (200 ≤ response.status ∧ response.status ≤ 299) ∧
    response.text = .error f

/-- The outcome of `e`, if `answer` is the answer to its address, or the fault of `response.text`.
-/
def answered (e : TreeEntry) (answer : Except OutsideFault Http.Response) :
    Except OutsideFault FetchOutcome :=
  if GitHub.isAsked e then
    match answer with
    | .error f => .ok { entry := e, error? := some f.shown }
    | .ok response =>
      if !response.isSuccess then
        .ok { entry := e, error? := some ("HTTP " ++ toString response.status) }
      else
        match response.text with
        | .error f => .error f
        | .ok text => .ok { entry := e, content? := if text = "" then none else some text }
  else .ok { entry := e }

/-- The address could not be had: there is no answer, or one with a status other than success. -/
def IsRefused : Except OutsideFault Http.Response → Prop
  | .error _ => True
  | .ok response => ¬(200 ≤ response.status ∧ response.status ≤ 299)

/-- The outcome `o` reflects the answer to the address of its file. -/
structure Reflects (o : FetchOutcome) (answer : Except OutsideFault Http.Response) : Prop where
  /-- Of a file that is not asked for, there is neither a text nor an error. -/
  unasked : GitHub.isAsked o.entry = false → o.content? = none ∧ o.error? = none
  /-- A text is that of a response with success, and not empty. -/
  content : ∀ text, o.content? = some text ↔
    GitHub.isAsked o.entry = true ∧ ∃ response, answer = .ok response ∧
      (200 ≤ response.status ∧ response.status ≤ 299) ∧ response.text = .ok text ∧ text ≠ ""
  /-- There is an error exactly where the address of a file that is asked for could not be had. -/
  error : o.error? ≠ none ↔ GitHub.isAsked o.entry = true ∧ IsRefused answer
  /-- Beside an error there is no text. -/
  failed : o.error? ≠ none → o.content? = none

/-- A file without `isAsked` has neither a text nor an error. -/
theorem answered_of_unasked {e : TreeEntry} (h : GitHub.isAsked e = false)
    (answer : Except OutsideFault Http.Response) : answered e answer = .ok { entry := e } := by
  unfold answered
  rw [h, if_neg Bool.false_ne_true]

/-- A file with `isAsked` has an error where the answer `IsRefused`. -/
theorem exists_answered_of_isRefused {e : TreeEntry} (h : GitHub.isAsked e = true)
    {answer : Except OutsideFault Http.Response} (hanswer : IsRefused answer) :
    ∃ text, answered e answer = .ok { entry := e, error? := some text } := by
  unfold answered
  rw [if_pos h]
  cases answer with
  | error f => exact ⟨f.shown, rfl⟩
  | ok response =>
    have hsuccess : response.isSuccess = false := by
      rw [Bool.eq_false_iff, ne_eq, Http.Response.isSuccess_iff]
      exact hanswer
    exact ⟨_, if_pos (by rw [hsuccess]; rfl)⟩

/-- A file with `isAsked` has the text of a response with success, if that text is not empty. -/
theorem answered_of_isSuccess {e : TreeEntry} (h : GitHub.isAsked e = true)
    {response : Http.Response} (hstatus : 200 ≤ response.status ∧ response.status ≤ 299) :
    answered e (.ok response) = response.text.map fun text =>
      { entry := e, content? := if text = "" then none else some text } := by
  unfold answered
  rw [if_pos h]
  dsimp only
  rw [Http.Response.isSuccess_iff.mpr hstatus, if_neg (by decide)]
  cases response.text <;> rfl

/-- An answer `IsRefused`, or it is a response with success. -/
theorem answer_cases (answer : Except OutsideFault Http.Response) :
    IsRefused answer ∨
      ∃ response, answer = .ok response ∧ 200 ≤ response.status ∧ response.status ≤ 299 := by
  cases answer with
  | error f => exact .inl trivial
  | ok response =>
    by_cases hstatus : 200 ≤ response.status ∧ response.status ≤ 299
    · exact .inr ⟨response, rfl, hstatus⟩
    · exact .inl hstatus

/-- `answered` is a fault exactly where the file is asked for and the answer `IsUnreadable`. -/
theorem answered_eq_error_iff (e : TreeEntry) (answer : Except OutsideFault Http.Response)
    (f : OutsideFault) :
    answered e answer = .error f ↔ GitHub.isAsked e = true ∧ IsUnreadable answer f := by
  cases hasked : GitHub.isAsked e with
  | false =>
    rw [answered_of_unasked hasked]
    exact iff_of_false nofun fun h => Bool.false_ne_true h.1
  | true =>
    rcases answer_cases answer with hrefused | ⟨response, rfl, hstatus⟩
    · obtain ⟨words, heq⟩ := exists_answered_of_isRefused hasked hrefused
      rw [heq]
      refine iff_of_false nofun ?_
      rintro ⟨_, response, rfl, hstatus, _⟩
      exact hrefused hstatus
    · rw [answered_of_isSuccess hasked hstatus]
      constructor
      · intro h
        cases htext : response.text with
        | ok text =>
          rw [htext] at h
          cases h
        | error f' =>
          rw [htext] at h
          cases h
          exact ⟨rfl, response, rfl, hstatus, htext⟩
      · rintro ⟨_, _, ⟨⟩, _, htext⟩
        rw [htext]
        rfl

variable {e : TreeEntry} {answer : Except OutsideFault Http.Response} {o : FetchOutcome}

/-- Where `answered` has an outcome for a response with success, the response has a text. -/
theorem exists_text_of_answered (hasked : GitHub.isAsked e = true) {response : Http.Response}
    (hstatus : 200 ≤ response.status ∧ response.status ≤ 299)
    (h : answered e (.ok response) = .ok o) :
    ∃ text, response.text = .ok text ∧
      o = { entry := e, content? := if text = "" then none else some text } := by
  rw [answered_of_isSuccess hasked hstatus] at h
  cases htext : response.text with
  | error f =>
    rw [htext] at h
    cases h
  | ok text =>
    rw [htext] at h
    exact ⟨text, rfl, (Except.ok.inj h).symm⟩

/-- The outcome of `e` is about `e`. -/
theorem entry_of_answered (h : answered e answer = .ok o) : o.entry = e := by
  cases hasked : GitHub.isAsked e with
  | false =>
    rw [answered_of_unasked hasked] at h
    cases h
    rfl
  | true =>
    rcases answer_cases answer with hrefused | ⟨response, rfl, hstatus⟩
    · obtain ⟨words, heq⟩ := exists_answered_of_isRefused hasked hrefused
      cases heq.symm.trans h
      rfl
    · obtain ⟨text, _, rfl⟩ := exists_text_of_answered hasked hstatus h
      rfl

/-- The outcome of a file `Reflects` the answer to its address. -/
theorem reflects_of_answered (h : answered e answer = .ok o) : o.Reflects answer := by
  cases hasked : GitHub.isAsked e with
  | false =>
    rw [answered_of_unasked hasked] at h
    cases h
    exact
      { unasked := fun _ => ⟨rfl, rfl⟩
        content := by simp [hasked]
        error := by simp [hasked]
        failed := fun _ => rfl }
  | true =>
    rcases answer_cases answer with hrefused | ⟨response, rfl, hstatus⟩
    · obtain ⟨words, heq⟩ := exists_answered_of_isRefused hasked hrefused
      cases heq.symm.trans h
      exact
        { unasked := by simp [hasked]
          content := by
            refine fun text => iff_of_false nofun ?_
            rintro ⟨_, response, rfl, hstatus, _⟩
            exact hrefused hstatus
          error := by simp [hasked, hrefused]
          failed := fun _ => rfl }
    · obtain ⟨text, htext, rfl⟩ := exists_text_of_answered hasked hstatus h
      exact
        { unasked := by simp [hasked]
          content := by
            intro other
            constructor
            · intro hcontent
              split at hcontent
              · cases hcontent
              · rename_i hnonempty
                obtain rfl : text = other := Option.some.inj hcontent
                exact ⟨hasked, response, rfl, hstatus, htext, hnonempty⟩
            · rintro ⟨_, _, ⟨⟩, _, hother, hnonempty⟩
              obtain rfl := Except.ok.inj (htext.symm.trans hother)
              exact if_neg hnonempty
          error := by simp [IsRefused, hstatus]
          failed := fun h => absurd rfl h }

end FetchOutcome

namespace GitHub

/-- `readContent` of the answer to the address of a file with `isAsked` is `answered`. -/
theorem readContent_answer {e : TreeEntry} (h : isAsked e = true)
    (answer : Except OutsideFault Http.Response) :
    readContent e (answer.mapError fun f => .transport f.name f.text) =
      (FetchOutcome.answered e answer).mapError .outside := by
  unfold FetchOutcome.answered
  rw [if_pos h]
  cases answer with
  | error f => rfl
  | ok response =>
    show readContent e (.ok response) = _
    unfold readContent
    dsimp only
    split
    · rfl
    · cases response.text <;> rfl

/-- The first of the replies is for the first file that is asked for. -/
theorem outcomes_cons_of_asked {e : TreeEntry} (h : isAsked e = true) (es : List TreeEntry)
    (reply : Except Http.Fault Http.Response) (rest : List (Except Http.Fault Http.Response)) :
    outcomes (e :: es) (reply :: rest) =
      (do return (← readContent e reply) :: (← outcomes es rest)) := by
  conv_lhs => unfold outcomes
  rw [if_pos h]

/-- A file that is not asked for takes none of the replies. -/
theorem outcomes_cons_of_unasked {e : TreeEntry} (h : isAsked e = false) (es : List TreeEntry)
    (replies : List (Except Http.Fault Http.Response)) :
    outcomes (e :: es) replies = (do return { entry := e } :: (← outcomes es replies)) := by
  conv_lhs => unfold outcomes
  rw [h, if_neg Bool.false_ne_true]

/-- Where each file with `isAsked` has the answer to its path for a reply, `outcomes` is `answered`
of each file in turn. -/
theorem outcomes_answers (answer : String → Except OutsideFault Http.Response)
    (entries : List TreeEntry) :
    outcomes entries ((entries.filter isAsked).map fun e =>
        (answer e.path).mapError fun f => .transport f.name f.text) =
      (entries.mapM fun e => FetchOutcome.answered e (answer e.path)).mapError .outside := by
  induction entries with
  | nil => rfl
  | cons e es ih =>
    rw [List.mapM_cons]
    cases hasked : isAsked e with
    | true =>
      rw [List.filter_cons_of_pos hasked, List.map_cons, outcomes_cons_of_asked hasked,
        readContent_answer hasked, ih]
      cases FetchOutcome.answered e (answer e.path) with
      | error f => rfl
      | ok o => cases es.mapM fun e => FetchOutcome.answered e (answer e.path) <;> rfl
    | false =>
      rw [List.filter_cons_of_neg (hasked.symm ▸ Bool.false_ne_true),
        outcomes_cons_of_unasked hasked, ih, FetchOutcome.answered_of_unasked hasked]
      cases es.mapM fun e => FetchOutcome.answered e (answer e.path) <;> rfl

/-- Files in turn have an outcome each, or else the fault of one of them. -/
theorem mapM_answered_cases (answer : String → Except OutsideFault Http.Response)
    (entries : List TreeEntry) :
    (∃ e ∈ entries, ∃ f, FetchOutcome.answered e (answer e.path) = .error f ∧
      (entries.mapM fun e => FetchOutcome.answered e (answer e.path)) = .error f) ∨
    ∃ o : TreeEntry → FetchOutcome,
      (∀ e ∈ entries, FetchOutcome.answered e (answer e.path) = .ok (o e)) ∧
      (entries.mapM fun e => FetchOutcome.answered e (answer e.path)) = .ok (entries.map o) := by
  by_cases h : ∀ e ∈ entries, ∃ o, FetchOutcome.answered e (answer e.path) = .ok o
  · have : Nonempty FetchOutcome := ⟨{ entry := ⟨"", none⟩ }⟩
    choose! o ho using h
    refine .inr ⟨o, ho, ?_⟩
    induction entries with
    | nil => rfl
    | cons e es ih =>
      rw [List.mapM_cons, ho e List.mem_cons_self, ih fun e he => ho e (List.mem_cons_of_mem _ he)]
      rfl
  · refine .inl ?_
    induction entries with
    | nil => exact absurd nofun h
    | cons e es ih =>
      rw [List.mapM_cons]
      cases hfirst : FetchOutcome.answered e (answer e.path) with
      | error f => exact ⟨e, List.mem_cons_self, f, hfirst, rfl⟩
      | ok o =>
        have hrest : ¬∀ e ∈ es, ∃ o, FetchOutcome.answered e (answer e.path) = .ok o :=
          fun hall => h (List.forall_mem_cons.mpr ⟨⟨o, hfirst⟩, hall⟩)
        obtain ⟨e', he', f, hfault, heq⟩ := ih hrest
        rw [heq]
        exact ⟨e', List.mem_cons_of_mem e he', f, hfault, rfl⟩

/-! ## Fetching in a web -/

variable (g : GitHub) (r : Repository) {σ : Type} {W : World σ} (entries : List TreeEntry)
  {library : Http.Request → Except Http.Fault String} {front : String}
  {web : String → Except OutsideFault Http.Response}

/-- The texts of files are asked for at once. -/
theorem asked_contents (limit : Int) (s : σ) :
    W.asked (g.contents r entries limit).run s = [(s, .fetchAll (max 1 limit).toNat
      ((entries.filter isAsked).map fun e => g.contentRequest r e.path))] := rfl

variable {g r entries}

/-- A file that is asked for is answered, at its address, by a response with success that the
library makes no text of. -/
def SpoilsContents (entries : List TreeEntry) (front : String)
    (web : String → Except OutsideFault Http.Response) (f : OutsideFault) : Prop :=
  ∃ e ∈ entries, isAsked e = true ∧ FetchOutcome.IsUnreadable (web (front ++ pathText e.path)) f

/-- `contents` yields for each file what is `answered` at its own address, or it ends in the fault
of an answer that `SpoilsContents`. -/
theorem run_contents (hW : W.Serves library web)
    (hlibrary : ∀ e ∈ entries, isAsked e = true → g.SendsQuoted r library front e.path)
    (limit : Int) (s : σ) :
    (∃ f s', SpoilsContents entries front web f ∧
      W.run (g.contents r entries limit).run s = (.error (.outside f), s')) ∨
    (∀ f, ¬SpoilsContents entries front web f) ∧ ∃ (o : TreeEntry → FetchOutcome) (s' : σ),
      (∀ e ∈ entries, FetchOutcome.answered e (web (front ++ pathText e.path)) = .ok (o e)) ∧
      W.run (g.contents r entries limit).run s = (.ok (entries.map o), s') := by
  have hreplies : ((entries.filter isAsked).map fun e => g.contentRequest r e.path).map
      (Http.reply library web) = (entries.filter isAsked).map fun e =>
        (web (front ++ pathText e.path)).mapError fun f => .transport f.name f.text := by
    rw [List.map_map]
    refine List.map_congr_left fun e he => ?_
    obtain ⟨he, hasked⟩ := List.mem_filter.mp he
    show Http.reply library web (g.contentRequest r e.path) = _
    rw [Http.reply, hlibrary e he hasked]
    rfl
  obtain ⟨s', hrun⟩ : ∃ s', W.run (g.contents r entries limit).run s =
      ((entries.mapM fun e =>
        FetchOutcome.answered e (web (front ++ pathText e.path))).mapError .outside, s') := by
    unfold contents Action.demand
    rw [ExceptT.run_mk, World.run_bind, World.run_query, World.run_pure]
    dsimp only
    rw [hW, hreplies, outcomes_answers fun path => web (front ++ pathText path)]
    exact ⟨_, rfl⟩
  rcases mapM_answered_cases (fun path => web (front ++ pathText path)) entries with
    ⟨e, he, f, hfault, heq⟩ | ⟨o, ho, heq⟩
  · rw [heq] at hrun
    exact .inl ⟨f, s', ⟨e, he, (FetchOutcome.answered_eq_error_iff e _ f).mp hfault⟩, hrun⟩
  · rw [heq] at hrun
    refine .inr ⟨?_, o, s', ho, hrun⟩
    rintro f ⟨e, he, hspoilt⟩
    have hfault := (FetchOutcome.answered_eq_error_iff e _ f).mpr hspoilt
    rw [ho e he] at hfault
    cases hfault

/-- In a world that `Serves` a web that answers addresses, to which the library sends the paths of
files as they are quoted, `contents` ends without a failure, unless a file is answered by a response
with success that the library makes no text of (`SpoilsContents`): then it ends in the fault of one
such file. Without a failure it yields one outcome for each file, in order, which `Reflects` the
answer to the file's own address. The files with `isAsked` are asked for, each once and files at
different paths by different addresses. The outcomes of files at other paths stay as they are when
the answer for a path is another one. -/
theorem contents_outcome_for_each (g : GitHub) (r : Repository) (entries : List TreeEntry)
    (limit : Int) (W : World σ) (s : σ) (hW : W.Serves library web)
    (howner : Http.IsPrintable r.owner.toList) (hname : Http.IsPrintable r.name.toList)
    (hlibrary : Http.IsPrintable r.owner.toList → Http.IsPrintable r.name.toList →
      ∀ e ∈ entries, isAsked e = true → g.SendsQuoted r library front e.path) :
    ((∃ f, SpoilsContents entries front web f) → ∃ f s', SpoilsContents entries front web f ∧
      W.run (g.contents r entries limit).run s = (.error (.outside f), s')) ∧
    ((∀ f, ¬SpoilsContents entries front web f) →
      ∃ outcomes s', W.run (g.contents r entries limit).run s = (.ok outcomes, s') ∧
        outcomes.map FetchOutcome.entry = entries ∧
        (∃ requests,
          W.asked (g.contents r entries limit).run s =
            [(s, .fetchAll (max 1 limit).toNat requests)] ∧
          requests = (entries.filter isAsked).map (fun e => g.contentRequest r e.path) ∧
          requests.map library =
            (entries.filter isAsked).map fun e => .ok (front ++ pathText e.path)) ∧
        (∀ o ∈ outcomes, o.Reflects (web (front ++ pathText o.entry.path))) ∧
        (∀ e ∈ entries, ∀ e' ∈ entries, isAsked e = true → isAsked e' = true → e.path ≠ e'.path →
          library (g.contentRequest r e.path) ≠ library (g.contentRequest r e'.path)) ∧
        ∀ (path : String) (web' : String → Except OutsideFault Http.Response),
          (∀ target, target ≠ front ++ pathText path → web' target = web target) →
          (∀ f, ¬SpoilsContents entries front web' f) →
          ∀ {σ' : Type} (W' : World σ') (t : σ'), W'.Serves library web' →
            ∃ outcomes' t', W'.run (g.contents r entries limit).run t = (.ok outcomes', t') ∧
              List.Forall₂ (fun o o' => o.entry.path ≠ path → o' = o) outcomes outcomes') := by
  have hsent := hlibrary howner hname
  have hfront {p q : String} (h : front ++ pathText p = front ++ pathText q) : p = q :=
    pathText_injective ((String.append_right_inj front).mp h)
  rcases run_contents hW hsent limit s with ⟨f, s', hspoils, hrun⟩ | ⟨hnone, o, s', ho, hrun⟩
  · exact ⟨fun _ => ⟨f, s', hspoils, hrun⟩, fun h => absurd hspoils (h f)⟩
  have hentry : ∀ e ∈ entries, (o e).entry = e := fun e he =>
    FetchOutcome.entry_of_answered (ho e he)
  refine ⟨fun ⟨f, hspoils⟩ => absurd hspoils (hnone f), fun _ => ?_⟩
  refine ⟨_, s', hrun, ?_, ⟨_, g.asked_contents r entries limit s, rfl, ?_⟩, ?_, ?_, ?_⟩
  · -- One outcome for each file.
    rw [List.map_map]
    exact (List.map_congr_left hentry).trans (List.map_id entries)
  · -- The addresses that are asked for.
    rw [List.map_map]
    refine List.map_congr_left fun e he => ?_
    obtain ⟨he, hasked⟩ := List.mem_filter.mp he
    exact hsent e he hasked
  · -- Each outcome tells of the answer to its address.
    intro _ hmem
    obtain ⟨e, he, rfl⟩ := List.mem_map.mp hmem
    rw [hentry e he]
    exact FetchOutcome.reflects_of_answered (ho e he)
  · intro e he e' he' hasked hasked' hpath h
    rw [hsent e he hasked, hsent e' he' hasked'] at h
    exact hpath (hfront (Except.ok.inj h))
  · -- Another answer for one path.
    intro path web' hweb' hnone' _ W' t hW'
    rcases run_contents hW' hsent limit t with ⟨f, _, hspoils, _⟩ | ⟨_, o', t', ho', hrun'⟩
    · exact absurd hspoils (hnone' f)
    refine ⟨_, t', hrun', ?_⟩
    rw [List.forall₂_map_left_iff, List.forall₂_map_right_iff, List.forall₂_same]
    intro e he hpath
    rw [hentry e he] at hpath
    have hsame := ho' e he
    rw [hweb' _ fun h => hpath (hfront h), ho e he] at hsame
    exact (Except.ok.inj hsame).symm

/-- Three files, of which one has a text, one cannot be had and one is not asked for; and the first
of them alone, where the library makes no text of it. -/
theorem contents_outcome_for_each_of_three :
    let g : GitHub := {}
    let r : Repository := ⟨"octo", "demo"⟩
    let entries : List TreeEntry := [⟨"src/a b.ts", some 12⟩, ⟨"README.md", none⟩, ⟨"ü.py", none⟩]
    let front := "https://api.github.com/repos/octo/demo/contents/"
    let fault : OutsideFault := ⟨"UnicodeError", "UTF-16 stream does not start with BOM"⟩
    let web (text : Except OutsideFault String) (target : String) :
        Except OutsideFault Http.Response :=
      if target = "https://api.github.com/repos/octo/demo/contents/src/a%20b.ts" then
        .ok { status := 200, body := [0x68, 0x69], text }
      else .error ⟨"ConnectTimeout", "timed out"⟩
    let W (text : Except OutsideFault String) :=
      World.online "7f" (Http.reply Http.Request.target (web text))
    ((∀ text, (W text).Serves Http.Request.target (web text)) ∧
        Http.IsPrintable r.owner.toList ∧ Http.IsPrintable r.name.toList ∧
        ∀ e ∈ entries, isAsked e = true → g.SendsQuoted r Http.Request.target front e.path) ∧
      (∃ outcomes s', (W (.ok "hi")).run (g.contents r entries 8).run .empty = (.ok outcomes, s') ∧
        outcomes.map FetchOutcome.entry = entries ∧
        ∀ o ∈ outcomes, o.Reflects (web (.ok "hi") (front ++ pathText o.entry.path))) ∧
      SpoilsContents entries front (web (.error fault)) fault ∧
      ∃ f s', SpoilsContents entries front (web (.error fault)) f ∧
        (W (.error fault)).run (g.contents r entries 8).run .empty = (.error (.outside f), s') := by
  intro g r entries front fault web W
  have hW : ∀ text, (W text).Serves Http.Request.target (web text) := fun _ _ _ _ => rfl
  have howner : Http.IsPrintable r.owner.toList := by decide
  have hname : Http.IsPrintable r.name.toList := by decide
  have hlength : ∀ e ∈ entries, (g.contentRequest r e.path).path.length ≤ 65536 := by decide
  have hpath : ∀ e ∈ entries, ∀ segment ∈ splitOn '/' e.path.toList,
      Http.IsPlainSegment segment := by decide
  have hfront : g.contentsFront r = front := by decide
  have hlibrary : ∀ e ∈ entries, isAsked e = true →
      g.SendsQuoted r Http.Request.target front e.path := by
    intro e he _
    rw [← hfront]
    exact g.sendsQuoted_target howner hname (hlength e he) (hpath e he)
  have hnone : ∀ f, ¬SpoilsContents entries front (web (.ok "hi")) f := by
    rintro f ⟨e, _, _, response, hresponse, _, htext⟩
    -- The only response has a text.
    by_cases htarget : front ++ pathText e.path =
        "https://api.github.com/repos/octo/demo/contents/src/a%20b.ts"
    · cases (if_pos htarget).symm.trans hresponse
      cases htext
    · cases (if_neg htarget).symm.trans hresponse
  have hspoils : SpoilsContents entries front (web (.error fault)) fault :=
    ⟨⟨"src/a b.ts", some 12⟩, List.mem_cons_self, by decide,
      { status := 200, body := [0x68, 0x69], text := .error fault }, if_pos (by decide),
      by decide, rfl⟩
  obtain ⟨outcomes, s', hrun, hentries, -, hreflects, -⟩ :=
    (contents_outcome_for_each g r entries 8 (W (.ok "hi")) .empty (hW _) howner hname
      fun _ _ => hlibrary).2 hnone
  obtain hfails :=
    (contents_outcome_for_each g r entries 8 (W (.error fault)) .empty (hW _) howner hname
      fun _ _ => hlibrary).1 ⟨fault, hspoils⟩
  exact ⟨⟨hW, howner, hname, hlibrary⟩, ⟨outcomes, s', hrun, hentries, hreflects⟩, hspoils, hfails⟩

/-- A response with success in a character set that its octets are not in ends the fetching of all
texts. -/
theorem contents_fails_of_unreadable_text :
    let fault : OutsideFault := ⟨"UnicodeError", "UTF-16 stream does not start with BOM"⟩
    let W := World.online "7f" fun _ =>
      .ok { status := 200, body := [0x68, 0x69], text := .error fault }
    (W.run (({} : GitHub).contents ⟨"octo", "demo"⟩ [⟨"a.ts", some 2⟩] 8).run .empty).1 =
      .error (.outside fault) := by
  rfl

end GitHub

end RepoGraph
