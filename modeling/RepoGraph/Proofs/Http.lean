import RepoGraph.Http.Address
import RepoGraph.Proofs.Text.Percent
import RepoGraph.Proofs.Text.Split

/-!
# The address that is sent

The end of a path is sent as it is written if its characters may stand in a path and none of its
segments is `.` or `..` (`IsPlain`): nothing of it is encoded, and it stays when dots are resolved
(`resolveDots_append`). `Request.target_of_isPlain` puts this together for a whole request.
-/

namespace RepoGraph.Http

open RepoGraph.Text

/-- A response tells of success by the hundred of its status. -/
theorem Response.isSuccess_iff {r : Response} :
    r.isSuccess = true ↔ 200 ≤ r.status ∧ r.status ≤ 299 := by
  simp [Response.isSuccess]

/-- The text has no control character. -/
def IsPrintable (s : List Char) : Prop := ∀ c ∈ s, ¬(c.toNat < 0x20 ∨ c.toNat = 0x7F)

instance : DecidablePred IsPrintable := fun s =>
  decidable_of_iff (s.all fun c => !(c.toNat < 0x20 || c.toNat = 0x7F)) (by simp [IsPrintable])

/-- A text without control characters has none at any place. -/
theorem controlIndex?_eq_none {s : List Char} (h : IsPrintable s) : controlIndex? s = none := by
  have hfind : s.findIdx? (fun c => c.toNat < 0x20 || c.toNat = 0x7F) = none := by
    rw [List.findIdx?_eq_none_iff]
    intro c hc
    simpa using h c hc
  rw [controlIndex?, hfind]

/-- Texts without control characters have none together. -/
theorem IsPrintable.append {s t : List Char} (hs : IsPrintable s) (ht : IsPrintable t) :
    IsPrintable (s ++ t) := fun c hc =>
  (List.mem_append.mp hc).elim (hs c) (ht c)

/-- What may stand in a path is no control character. -/
theorem isPrintable_of_isPathChar {s : List Char} (h : ∀ c ∈ s, isPathChar c = true) :
    IsPrintable s := by
  intro c hc
  have hrange : (0x20 < c.toNat ∧ c.toNat < 0x7F) ∧ encodedMarks.contains c = false := by
    simpa [isPathChar] using h c hc
  omega

/-- The segment is neither `.` nor `..`. -/
def IsPlainSegment (segment : List Char) : Prop := segment ≠ ['.'] ∧ segment ≠ ['.', '.']

instance : DecidablePred IsPlainSegment := fun segment =>
  inferInstanceAs (Decidable (segment ≠ ['.'] ∧ segment ≠ ['.', '.']))

/-- A segment without dots is kept. -/
theorem resolveDots_cons {y : List Char} (h : IsPlainSegment y) (done ys : List (List Char)) :
    resolveDots done (y :: ys) = resolveDots (y :: done) ys := by
  conv_lhs => unfold resolveDots
  rw [if_neg h.1, if_neg h.2]

/-- Segments without dots stay after those that dots were resolved in. -/
theorem resolveDots_append {ys : List (List Char)} (h : ∀ y ∈ ys, IsPlainSegment y)
    (done xs : List (List Char)) : resolveDots done (xs ++ ys) = resolveDots done xs ++ ys := by
  fun_induction resolveDots done xs with
  | case1 done =>
    -- Before segments without dots, what is done only grows.
    rw [List.nil_append]
    induction ys generalizing done with
    | nil => rw [resolveDots, List.append_nil]
    | cons y ys ih =>
      rw [resolveDots_cons (h y List.mem_cons_self),
        ih (fun z hz => h z (List.mem_cons_of_mem _ hz)), List.reverse_cons, List.append_assoc,
        List.singleton_append]
  -- A segment before them is resolved as it would be without them.
  | case2 | case3 | case4 | case5 | case6 => simp_all [resolveDots]

/-- The end of a path is sent as it is written. -/
structure IsPlain (s : List Char) : Prop where
  /-- Its characters may stand in a path. -/
  isPathChar : ∀ c ∈ s, isPathChar c = true
  /-- None of its segments is resolved. -/
  segments : ∀ segment ∈ splitOn '/' s, IsPlainSegment segment

/-- The segments of an address above the end of its path, as they are sent. -/
def sentSegments (base above : String) : List (List Char) :=
  resolveDots [] (splitOn '/' ((splitBase base.toList).2 ++ Percent.encode isPathChar above.toList))

/-- A request is sent to its host, with the end of its path as it is written. -/
theorem Request.target_of_isPlain {r : Request} {above : String} {s : List Char}
    (hpath : r.path = above ++ "/" ++ String.ofList s) (hquery : r.query = none)
    (hlength : r.path.length ≤ 65536) (habove : IsPrintable above.toList) (hs : IsPlain s) :
    r.target = .ok (String.ofList ((splitBase r.base.toList).1 ++
      joinWith '/' (sentSegments r.base above ++ splitOn '/' s))) := by
  have hchars : r.path.toList = above.toList ++ '/' :: s := by
    rw [hpath]
    simp
  have hcontrol : controlIndex? r.path.toList = none := by
    refine controlIndex?_eq_none ?_
    rw [hchars, ← List.singleton_append]
    refine habove.append (.append ?_ (isPrintable_of_isPathChar hs.isPathChar))
    intro c hc
    rw [List.mem_singleton.mp hc]
    decide
  have hencoded : Percent.encode isPathChar r.path.toList =
      Percent.encode isPathChar above.toList ++ '/' :: s := by
    rw [hchars, Percent.encode_append, Percent.encode_cons, Percent.encode_eq_self hs.isPathChar]
    rfl
  unfold Request.target
  rw [hcontrol]
  dsimp only
  rw [if_neg (by omega), hquery, hencoded, ← List.append_assoc, splitOn_append_cons,
    resolveDots_append hs.segments, sentSegments, String.append_empty]

end RepoGraph.Http
