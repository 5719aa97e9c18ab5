import RepoGraph.Document
import RepoGraph.Http.Basic
import RepoGraph.Proofs.Json.Orderly
import RepoGraph.Proofs.Text.Utf8

/-!
# Documents in printable ASCII

The text of an orderly value is in printable ASCII. Its octets hold no zero and no byte order mark,
so they are taken for UTF-8 (`jsonText_of_isPrintable`), and the document is read as the value
(`json_compact`), also as the body of a response (`json_ofDocument`).
-/

namespace RepoGraph

open RepoGraph.Text

/-- The octets of a text in printable ASCII are printable. -/
theorem Text.Utf8.isPrintable_of_mem_encode {s : List Char} (h : ∀ c ∈ s, Json.IsPrintable c)
    {b : UInt8} (hb : b ∈ encode s) : 0x20 ≤ b.toNat ∧ b.toNat ≤ 0x7E := by
  obtain ⟨c, hc, hmem⟩ := List.mem_flatMap.mp hb
  obtain ⟨hlow, hhigh⟩ := h c hc
  have hone : String.utf8EncodeChar c = [UInt8.ofNat c.toNat] := by
    rw [← encodeChar_one (n := c.toNat) (by omega), c.ofNat_toNat]
  rw [hone, List.mem_singleton] at hmem
  rw [hmem, toNat_octet (by omega)]
  exact ⟨hlow, hhigh⟩

/-- A response with success and with the text of a value as its body. -/
def Http.Response.ofDocument (v : Json) : Http.Response where
  status := 200
  body := Utf8.encode v.compact.toList
  text := .ok v.compact

namespace Document

/-- Printable octets are taken for UTF-8, as there is neither a byte order mark nor a zero among
them. -/
theorem jsonText_of_isPrintable {octets : List UInt8}
    (h : ∀ b ∈ octets, 0x20 ≤ b.toNat ∧ b.toNat ≤ 0x7E) :
    jsonText octets = Utf8.decodeLoose octets := by
  have hzero : 0 ∉ octets := fun hb => absurd (h _ hb) (by decide)
  have hFF : 0xFF ∉ octets := fun hb => absurd (h _ hb) (by decide)
  have hFE : 0xFE ∉ octets := fun hb => absurd (h _ hb) (by decide)
  have hEF : 0xEF ∉ octets := fun hb => absurd (h _ hb) (by decide)
  unfold jsonText
  split
  · exact absurd (by simp) hzero
  · exact absurd (by simp) hFF
  · exact absurd (by simp) hFE
  · exact absurd (by simp) hFF
  · exact absurd (by simp) hEF
  · unfold unmarkedText
    split
    case h_7 => rfl
    all_goals exact absurd (by simp) hzero

/-- The document of an orderly value whose whole numbers have few enough digits is read as the
value. -/
theorem json_compact {may : Int → Prop} {v : Json} (h : Json.IsOrderly may v)
    (hints : ∀ z ∈ v.ints, Decimal.digitCount z.natAbs ≤ Decimal.digitLimit) :
    json (Utf8.encode v.compact.toList) = .ok v := by
  have hprintable := h.isPrintable_compact
  have htext : jsonText (Utf8.encode v.compact.toList) = .ok v.compact.toList := by
    rw [jsonText_of_isPrintable fun b => Utf8.isPrintable_of_mem_encode hprintable]
    exact Utf8.decodeLooseFrom_encode 0 _
  have hmark : v.compact.toList.head? ≠ some '\uFEFF' := by
    intro hhead
    exact absurd (hprintable _ (List.mem_of_mem_head? hhead)) (by decide)
  have hread : Json.readDocument v.compact.toList = .ok v := by
    rw [← h.read_compact hints, Json.read, Json.readChars, if_neg hmark]
  unfold json
  rw [htext]
  show (Json.readDocument _).mapError _ = _
  rw [hread]
  rfl

/-- The body of such a response is read as the value, if this is orderly and has no numbers. -/
theorem json_ofDocument {v : Json} (h : Json.IsOrderly (fun _ => False) v) :
    json (Http.Response.ofDocument v).body = .ok v :=
  json_compact h fun z hz => (h.of_mem_ints z hz).elim

end Document

end RepoGraph
