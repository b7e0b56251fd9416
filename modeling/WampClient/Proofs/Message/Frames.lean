import WampClient.Proofs.Json.RoundTrip
import WampClient.Proofs.Message.Contents
import WampClient.Proofs.MessagePack.RoundTrip

/-! Frames, written and read. In what order a peer writes the entries of a dictionary is up to it,
so besides the frame that is made of a message here there are those that differ from it in that. -/
namespace WampClient.Message

variable {m : Message} {w : Value}

/-- A message in MessagePack is read as it was, with its numbers made anew, whatever bytes come
behind it. -/
theorem ofFrame_messagePack (valid : m.Valid) (canonical : m.Canonical)
    (fits : (Value.list m.encode).Everywhere MessagePack.Fits)
    (nests : (Value.list m.encode).depth ≤ MessagePack.depthLimit) (trailing : Bytes) :
    ofFrame .messagePack (m.toFrame .messagePack ++ trailing) = .ok m.rewrapAll ∧
      ∀ w, (Value.list m.encode).Reorders w →
        ofFrame .messagePack (MessagePack.write w ++ trailing) = .ok m.rewrapAll := by
  have each : ∀ w, (Value.list m.encode).Reorders w →
      ofFrame .messagePack (MessagePack.write w ++ trailing) = .ok m.rewrapAll := by
    intro w reorders
    obtain ⟨fields, rfl⟩ := reorders.list_of_list rfl
    have fits' := reorders.everywhere MessagePack.fits_reorders fits
    have nests' := reorders.depth_le nests
    rw [ofFrame, MessagePack.readFrame_write fits' nests' trailing]
    exact decodeFrame_reordered valid canonical reorders
  exact ⟨each _ (.refl _), each⟩

theorem ofFrame_messagePack_error :
    let m : Message := .error 48 Id.max [("trace", .list [.signed 5, .signed (-33), .null])]
      ⟨"com.late"⟩ ⟨[], [("after", .float ⟨0x7FF0000000000001⟩)]⟩
    let n : Message := .error 48 Id.max [("trace", .list [.unsigned 5, .signed (-33), .null])]
      ⟨"com.late"⟩ ⟨[], [("after", .float ⟨0x7FF0000000000001⟩)]⟩
    m.Valid ∧ m.Canonical ∧ (Value.list m.encode).Everywhere MessagePack.Fits ∧
      (Value.list m.encode).depth ≤ MessagePack.depthLimit ∧
      ofFrame .messagePack (m.toFrame .messagePack ++ [0xC1]) = .ok n := by
  intro m n
  have valid : m.Valid := (by decide : Uri.isValid ⟨"com.late"⟩ = true)
  have canonical : m.Canonical := by
    simp [m, Canonical, Value.Canonical, Value.CanonicalItems, Value.CanonicalEntries,
      Dictionary.Sorted, encode, head, payload?, Payload.written, idField]
  have fits : (Value.list m.encode).Everywhere MessagePack.Fits := by decide
  have nests : (Value.list m.encode).depth ≤ MessagePack.depthLimit := by decide
  exact ⟨valid, canonical, fits, nests, (ofFrame_messagePack valid canonical fits nests _).1⟩

/-- A JSON text that begins with a list, and has nothing behind it, is read for its list. -/
theorem ofFrame_text {fields read : List Value}
    (list : Json.readList (Json.readValue (Json.depthLimit - 1))
      (Json.writeItems fields ++ [']']) = some (read, [])) :
    ofFrame .json (Text.bytesOf (Json.text (.list fields))) = decodeFrame read := by
  have front : Json.skipSpace (Text.charsOf (Text.bytesOf (Json.text (.list fields)))) =
      '[' :: (Json.writeItems fields ++ [']']) := by
    rw [Text.charsOf_bytesOf, Json.text, String.toList_ofList]
    rfl
  rw [ofFrame, front]
  simp only [list]
  cases decodeFrame read <;> rfl

/-- A message in JSON is read as it was, with its numbers made anew, if no float is in it. -/
theorem ofFrame_json (valid : m.Valid) (canonical : m.Canonical)
    (whole : (Value.list m.encode).Everywhere Json.NoFloat)
    (nests : (Value.list m.encode).depth ≤ Json.depthLimit) :
    ofFrame .json (m.toFrame .json) = .ok m.rewrapAll ∧
      ∀ w, (Value.list m.encode).Reorders w →
        ofFrame .json (Text.bytesOf (Json.text w)) = .ok m.rewrapAll := by
  have each : ∀ w, (Value.list m.encode).Reorders w →
      ofFrame .json (Text.bytesOf (Json.text w)) = .ok m.rewrapAll := by
    intro w reorders
    obtain ⟨fields, rfl⟩ := reorders.list_of_list rfl
    have whole' := reorders.everywhere Json.noFloat_reorders whole
    have nests' := reorders.depth_le nests
    rw [ofFrame_text (Json.readList_text whole' nests')]
    exact decodeFrame_reordered valid canonical reorders
  exact ⟨each _ (.refl _), each⟩

theorem ofFrame_json_error :
    let m : Message := .error 48 Id.max [("\"\\\n\x01", .list [.signed 5, .signed (-33), .null])]
      ⟨"com.late"⟩ ⟨[], [("après", .string "\u2028😀")]⟩
    let n : Message := .error 48 Id.max [("\"\\\n\x01", .list [.unsigned 5, .signed (-33), .null])]
      ⟨"com.late"⟩ ⟨[], [("après", .string "\u2028😀")]⟩
    m.Valid ∧ m.Canonical ∧ (Value.list m.encode).Everywhere Json.NoFloat ∧
      (Value.list m.encode).depth ≤ Json.depthLimit ∧
      ofFrame .json (m.toFrame .json) = .ok n := by
  intro m n
  have valid : m.Valid := (by decide : Uri.isValid ⟨"com.late"⟩ = true)
  have canonical : m.Canonical := by
    simp [m, Canonical, Value.Canonical, Value.CanonicalItems, Value.CanonicalEntries,
      Dictionary.Sorted, encode, head, payload?, Payload.written, idField]
  have whole : (Value.list m.encode).Everywhere Json.NoFloat := by decide
  have nests : (Value.list m.encode).depth ≤ Json.depthLimit := by decide
  exact ⟨valid, canonical, whole, nests, (ofFrame_json valid canonical whole nests).1⟩

end WampClient.Message
