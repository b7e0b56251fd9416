import WampClient.Frame
import WampClient.Proofs.Message.RoundTrip
import WampClient.Proofs.Value.Contents

/-! The values that a message carries, and the message with each of them replaced. What is replaced
does not change which message it is, nor whether it is a valid one. -/
namespace WampClient

def Dictionary.mapValues (f : Value → Value) (d : Dictionary) : Dictionary :=
  d.map fun e => (e.1, f e.2)

def Payload.mapValues (f : Value → Value) (p : Payload) : Payload :=
  ⟨p.arguments.map f, Dictionary.mapValues f p.keywords⟩

namespace Message

/-- The message with every value that it carries replaced. -/
def mapValues (f : Value → Value) : Message → Message
  | .hello realm details => .hello realm (Dictionary.mapValues f details)
  | .welcome session details => .welcome session (Dictionary.mapValues f details)
  | .abort details reason payload =>
    .abort (Dictionary.mapValues f details) reason (payload.mapValues f)
  | .challenge method extra => .challenge method (Dictionary.mapValues f extra)
  | .authenticate signature extra => .authenticate signature (Dictionary.mapValues f extra)
  | .goodbye details reason => .goodbye (Dictionary.mapValues f details) reason
  | .error requestType request details reason payload =>
    .error requestType request (Dictionary.mapValues f details) reason (payload.mapValues f)
  | .publish request options topic payload =>
    .publish request (Dictionary.mapValues f options) topic (payload.mapValues f)
  | .published request publication => .published request publication
  | .subscribe request options topic => .subscribe request (Dictionary.mapValues f options) topic
  | .subscribed request subscription => .subscribed request subscription
  | .unsubscribe request subscription => .unsubscribe request subscription
  | .unsubscribed request => .unsubscribed request
  | .event subscription publication details payload =>
    .event subscription publication (Dictionary.mapValues f details) (payload.mapValues f)
  | .call request options procedure payload =>
    .call request (Dictionary.mapValues f options) procedure (payload.mapValues f)
  | .cancel request options => .cancel request (Dictionary.mapValues f options)
  | .result request details payload =>
    .result request (Dictionary.mapValues f details) (payload.mapValues f)
  | .register request options procedure =>
    .register request (Dictionary.mapValues f options) procedure
  | .registered request registration => .registered request registration
  | .unregister request registration => .unregister request registration
  | .unregistered request => .unregistered request
  | .invocation request registration details payload =>
    .invocation request registration (Dictionary.mapValues f details) (payload.mapValues f)
  | .interrupt request options => .interrupt request (Dictionary.mapValues f options)
  | .yield request options payload =>
    .yield request (Dictionary.mapValues f options) (payload.mapValues f)
  | .unknown code fields => .unknown code (fields.map f)

/-- The message with every number in its values made anew. -/
abbrev rewrapAll : Message → Message := mapValues Value.rewrapAll

/-- Every dictionary of the message has its keys in rising order, each once. -/
def Canonical (m : Message) : Prop := (Value.list m.encode).Canonical

variable {m : Message} {f : Value → Value}

theorem valid_mapValues : (m.mapValues f).Valid ↔ m.Valid := by
  cases m <;> rfl

theorem rewrapEntries_eq_mapValues (d : Dictionary) :
    Value.rewrapEntries d = Dictionary.mapValues Value.rewrapAll d := by
  rw [Value.rewrapEntries_eq]
  rfl

theorem written_mapValues (p : Payload) :
    (p.mapValues Value.rewrapAll).written = Value.rewrapItems p.written := by
  obtain ⟨arguments, keywords⟩ := p
  cases keywords with
  | nil =>
    cases arguments with
    | nil => rfl
    | cons v rest =>
      simp [Payload.mapValues, Payload.written, Dictionary.mapValues, Value.rewrapAll,
        Value.rewrapItems_eq]
  | cons e rest =>
    simp [Payload.mapValues, Payload.written, Dictionary.mapValues, Value.rewrapAll,
      Value.rewrapItems_eq, Value.rewrapEntries, Value.rewrapEntries_eq]

/-- The list form of the message has the same values replaced, and all else as it was. -/
theorem encode_rewrapAll (m : Message) : m.rewrapAll.encode = Value.rewrapItems m.encode := by
  cases m <;> simp [encode, rewrapAll, mapValues, head, payload?, Message.code, type?, idField,
    written_mapValues, rewrapEntries_eq_mapValues, Value.rewrapItems_eq, Value.rewrapAll,
    Value.rewrap]

/-- A frame that holds the list form of a valid message holds that message. -/
theorem decodeFrame_encode (valid : m.Valid) : decodeFrame m.encode = .ok m := by
  cases typed : m.type? with
  | some type =>
    have reads := reader_written typed valid
    simp [decodeFrame, decode, encode, Value.integer?, code_of_type? typed, reads, Except.mapError]
  | none =>
    cases m with
    | unknown code fields =>
      have strange := MessageType.ofCode?_eq_none_iff.mpr valid
      simp [decodeFrame, decode, encode, Message.code, Value.integer?, strange, head, payload?,
        Except.mapError]
    | _ => simp [type?] at typed

/-- So does one with its dictionaries in any order, once its numbers are made anew. -/
theorem decodeFrame_reordered (valid : m.Valid) (canonical : m.Canonical) {fields : List Value}
    (ordered : (Value.list m.encode).Reorders (.list fields)) :
    decodeFrame (Value.rereadItems fields) = .ok m.rewrapAll := by
  have same : Value.list (Value.rereadItems fields) = .list (Value.rewrapItems m.encode) :=
    ordered.reread_rewrapAll canonical
  rw [Value.list.inj same, ← encode_rewrapAll]
  exact decodeFrame_encode (valid_mapValues.mpr valid)

end Message

end WampClient
