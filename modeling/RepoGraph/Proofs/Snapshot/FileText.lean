import RepoGraph.Proofs.Document
import RepoGraph.Proofs.Snapshot.Replies
import RepoGraph.Proofs.Text.Base64

/-!
# The text of one file

The content of a file comes in base 64, with line feeds wherever the server puts them. What is read
of it depends on the octets alone (`textOfBase64_encode`): if they are a text in UTF-8, and not the
empty one, the file is that text, and otherwise it has none (`file_of_base64`).
-/

namespace RepoGraph.GitHub

open RepoGraph.Text

/-- What is read of octets that come in base 64, wherever line feeds are put in. -/
theorem textOfBase64_encode (path : String) {octets : List UInt8} {encoded : String}
    (h : Base64.IsWrapped (Base64.encode octets) encoded.toList) :
    textOfBase64 path encoded =
      match Utf8.decode octets with
      | .ok (c :: cs) => .ok (String.ofList (c :: cs))
      | _ => .error (.fetch (.noText path)) := by
  have hchars : encoded.toList.filter (· != '\n') = Base64.encode octets :=
    h.filter_eq fun hmem => (Base64.of_mem_encode hmem).1 rfl
  have hascii : (Base64.encode octets).any (fun c => decide (0x7F < c.toNat)) = false := by
    refine List.any_eq_false.mpr fun c hc => ?_
    have hle := (Base64.of_mem_encode hc).2
    simpa using hle
  unfold textOfBase64
  rw [hchars]
  dsimp only
  rw [hascii, Base64.decode_encode]
  rfl

/-- Octets that are a text in UTF-8, but not the empty one, are that text. -/
theorem textOfBase64_text (path : String) {encoded text : String} (hne : text ≠ "")
    (h : Base64.IsWrapped (Base64.encode (Utf8.encode text.toList)) encoded.toList) :
    textOfBase64 path encoded = .ok text := by
  have hread : Utf8.decode (Utf8.encode text.toList) = .ok text.toList :=
    Utf8.decode_eq_ok_iff.mpr rfl
  rw [textOfBase64_encode path h, hread]
  cases hchars : text.toList with
  | nil => exact absurd (String.toList_inj.mp hchars) hne
  | cons c cs =>
    dsimp only
    rw [← hchars, String.ofList_toList]

/-- No octets, and octets that are no text in UTF-8, are no text. -/
theorem textOfBase64_noText (path : String) {octets : List UInt8} {encoded : String}
    (hnone : octets = [] ∨ ∀ s, Utf8.encode s ≠ octets)
    (h : Base64.IsWrapped (Base64.encode octets) encoded.toList) :
    textOfBase64 path encoded = .error (.fetch (.noText path)) := by
  rw [textOfBase64_encode path h]
  split
  · rename_i c cs hread
    have hencode := Utf8.decode_eq_ok_iff.mp hread
    rcases hnone with rfl | hnone
    · obtain ⟨b, bs, hcons, -⟩ := Utf8.exists_encode_cons c cs
      rw [hcons] at hencode
      cases hencode
    · exact absurd hencode (hnone _)
  · rfl

/-- Of a response with success, whose document says that its content is in base 64, that content is
read. -/
theorem readFile_of_base64 {path encoded : String} {response : Http.Response} {value : Json}
    (hsuccess : response.isSuccess = true) (hjson : Document.json response.body = .ok value)
    (hencoding : value.get? "encoding" = some (.str "base64"))
    (hcontent : value.get? "content" = some (.str encoded)) :
    readFile path response = textOfBase64 path encoded := by
  have hobject : ∃ members, value = .obj members := by
    cases value with
    | obj members => exact ⟨members, rfl⟩
    | _ => cases hcontent
  obtain ⟨members, rfl⟩ := hobject
  unfold readFile
  rw [hsuccess, hjson]
  dsimp only [bind, Except.bind]
  rw [hencoding, hcontent]
  by_cases hempty : encoded = ""
  · -- An empty content counts as missing, and there is no text in it either.
    have hnone : textOfBase64 path "" = .error (.fetch (.noText path)) :=
      textOfBase64_noText path (.inl rfl) (.nil : Base64.IsWrapped (Base64.encode []) "".toList)
    rw [hempty, hnone]
    rfl
  · have htruthy : (some (Json.str encoded)).filter Json.truthy = some (.str encoded) :=
      Option.filter_eq_some_iff.mpr ⟨rfl, by simpa [Json.truthy] using hempty⟩
    rw [htruthy]
    rfl

variable {σ : Type} (W : World σ) (g : GitHub) (r : Repository)

/-- A file is what its response tells. -/
theorem run_file {path : String} {s : σ} {response : Http.Response}
    (h : (W.answer (.fetch (g.fileRequest r path)) s).1 = .ok response) :
    (W.run (g.file r path).run s).1 = readFile path response := by
  unfold file
  rw [W.run_bind_eq, run_send, h]
  rfl

/-- A file whose content is said to be in base 64, and is that of some octets with line feeds put in
anywhere, is the text that the octets are in UTF-8, if this is not the empty one; if there are none,
or they are no text in UTF-8, the file has no text. -/
theorem file_of_base64 {path encoded : String} {s : σ} {response : Http.Response} {value : Json}
    {octets : List UInt8}
    (hreply : (W.answer (.fetch (g.fileRequest r path)) s).1 = .ok response)
    (hsuccess : response.isSuccess = true) (hjson : Document.json response.body = .ok value)
    (hencoding : value.get? "encoding" = some (.str "base64"))
    (hcontent : value.get? "content" = some (.str encoded))
    (hwrapped : Base64.IsWrapped (Base64.encode octets) encoded.toList) :
    (∀ text, text ≠ "" → octets = Utf8.encode text.toList →
      (W.run (g.file r path).run s).1 = .ok text) ∧
    ((octets = [] ∨ ∀ t, Utf8.encode t ≠ octets) →
      (W.run (g.file r path).run s).1 = .error (.fetch (.noText path))) := by
  have hrun : (W.run (g.file r path).run s).1 = textOfBase64 path encoded := by
    rw [run_file W g r hreply, readFile_of_base64 hsuccess hjson hencoding hcontent]
  rw [hrun]
  constructor
  · rintro text hne rfl
    exact textOfBase64_text path hne hwrapped
  · intro hnone
    exact textOfBase64_noText path hnone hwrapped

/-- The document that has a content in base 64. -/
def contentDocument (encoded : String) : Json :=
  .obj [("encoding", .str "base64"), ("content", .str encoded)]

/-- The response with a content in base 64 is read as its document. -/
theorem json_contentDocument (encoded : String) :
    Document.json (Http.Response.ofDocument (contentDocument encoded)).body =
      .ok (contentDocument encoded) := by
  refine Document.json_ofDocument (.obj _ (by simp) fun m hm => ?_)
  simp only [List.mem_cons, List.not_mem_nil, or_false] at hm
  rcases hm with rfl | rfl
  · exact .str _
  · exact .str _

/-- A text whose octets come on two lines is read, and the octet `FF` is no text. -/
theorem file_of_base64_on_lines :
    let online (encoded : String) := World.online "7f" fun _ =>
      .ok (.ofDocument (contentDocument encoded))
    let found (encoded : String) :=
      ((online encoded).run (({} : GitHub).file ⟨"acme", "demo"⟩ "a.txt").run .empty).1
    Base64.IsWrapped (Base64.encode (Utf8.encode "é☺".toList)) "w6ni\nmLo=".toList ∧
      found "w6ni\nmLo=" = .ok "é☺" ∧
    Base64.IsWrapped (Base64.encode [0xFF]) "/w==\n".toList ∧ (∀ t, Utf8.encode t ≠ [0xFF]) ∧
      found "/w==\n" = .error (.fetch (.noText "a.txt")) := by
  intro online found
  have hlines : Base64.IsWrapped (Base64.encode (Utf8.encode "é☺".toList))
      "w6ni\nmLo=".toList := by
    have htext : Base64.encode (Utf8.encode "é☺".toList) =
        ['w', '6', 'n', 'i', 'm', 'L', 'o', '='] := by decide
    have hchars : "w6ni\nmLo=".toList = ['w', '6', 'n', 'i', '\n', 'm', 'L', 'o', '='] := by decide
    rw [htext, hchars]
    exact .char _ (.char _ (.char _ (.char _ (.feed (.char _ (.char _ (.char _ (.char _ .nil))))))))
  have hoctet : Base64.IsWrapped (Base64.encode [0xFF]) "/w==\n".toList := by
    have htext : Base64.encode [0xFF] = ['/', 'w', '=', '='] := by decide
    have hchars : "/w==\n".toList = ['/', 'w', '=', '=', '\n'] := by decide
    rw [htext, hchars]
    exact .char _ (.char _ (.char _ (.char _ (.feed .nil))))
  have hnone (t : List Char) : Utf8.encode t ≠ [0xFF] := by
    intro h
    cases t with
    | nil => cases h
    | cons c cs =>
      obtain ⟨b, bs, hcons, hstep⟩ := Utf8.exists_encode_cons c cs
      obtain ⟨rfl, rfl⟩ := List.cons.inj (hcons.symm.trans h)
      cases hstep
  have hfound {octets : List UInt8} {encoded : String}
      (h : Base64.IsWrapped (Base64.encode octets) encoded.toList) :
      (∀ text, text ≠ "" → octets = Utf8.encode text.toList → found encoded = .ok text) ∧
        ((octets = [] ∨ ∀ t, Utf8.encode t ≠ octets) →
          found encoded = .error (.fetch (.noText "a.txt"))) :=
    file_of_base64 (online encoded) {} ⟨"acme", "demo"⟩ rfl rfl (json_contentDocument encoded)
      rfl rfl h
  exact ⟨hlines, (hfound hlines).1 _ (by decide) rfl, hoctet, hnone, (hfound hoctet).2 (.inr hnone)⟩

end RepoGraph.GitHub
