import WampClient.Message.Decode
import Mathlib.Data.List.Basic

/-! Reading gives back what was written. Each reader takes from the front of a list the field that
was written for it and leaves the rest alone; the payload at the end is found again in whichever of
its three forms it was written. -/
namespace WampClient

namespace MessageType

theorem mem_all (type : MessageType) : type ∈ all := by
  cases type <;> decide

@[simp] theorem ofCode?_code (type : MessageType) : ofCode? type.code = some type := by
  cases type <;> rfl

theorem code_of_ofCode? {code : UInt64} {type : MessageType} (known : ofCode? code = some type) :
    type.code = code := by
  simpa using List.find?_some known

theorem ofCode?_eq_none_iff {code : UInt64} :
    ofCode? code = none ↔ ∀ type : MessageType, type.code ≠ code := by
  simp [ofCode?, mem_all]

end MessageType

namespace Message

/-- The URIs and patterns in the message are well formed, and the code of a message of no known
type is that of no known type. -/
def Valid : Message → Prop
  | .hello realm _ => realm.isValid
  | .abort _ reason _ => reason.isValid
  | .goodbye _ reason => reason.isValid
  | .error _ _ _ reason _ => reason.isValid
  | .publish _ _ topic _ => topic.isValid
  | .subscribe _ _ topic => topic.isValid
  | .call _ _ procedure _ => procedure.isValid
  | .register _ _ procedure => procedure.isValid
  | .unknown code _ => ∀ type : MessageType, type.code ≠ code
  | _ => True

end Message

namespace FieldReader

variable {α β : Type}

/-! ### One field -/

theorem bind_apply (read : FieldReader α) (next : α → FieldReader β) (values : List Value) :
    (read >>= next) values = (read values).bind fun out => next out.1 out.2 := rfl

theorem pure_apply (a : α) (values : List Value) :
    (pure a : FieldReader α) values = .ok (a, values) := rfl

theorem map_apply (f : α → β) (read : FieldReader α) (values : List Value) :
    (f <$> read) values = (read values).bind fun out => .ok (f out.1, out.2) := rfl

theorem required_cons (field : String) {read : Value → Option α} {v : Value} {a : α}
    (reads : read v = some a) (rest : List Value) :
    required field read (v :: rest) = .ok (a, rest) := by
  rw [required, bind_apply]
  simp [next?, Except.bind, reads, pure_apply]

theorem optional_cons (field : String) (absent : α) {read : Value → Option α} {v : Value} {a : α}
    (reads : read v = some a) (rest : List Value) :
    optional field absent read (v :: rest) = .ok (a, rest) := by
  rw [optional, bind_apply]
  simp [next?, Except.bind, reads, pure_apply]

@[simp] theorem optional_nil (field : String) (absent : α) (read : Value → Option α) :
    optional field absent read [] = .ok (absent, []) := rfl

theorem asId_idField (i : Id) : asId (Message.idField i) = some i := by
  obtain ⟨n, one_le, le_max⟩ := i
  have small : n < 18446744073709551616 := by omega
  have back : (UInt64.ofNat n).toNat = n := UInt64.toNat_ofNat_of_lt' small
  simp [asId, Message.idField, Value.integer?, back, Id.ofNat, one_le, le_max, Except.toOption]

@[simp] theorem id_cons (field : String) (i : Id) (rest : List Value) :
    id field (Message.idField i :: rest) = .ok (i, rest) :=
  required_cons field (asId_idField i) rest

@[simp] theorem integer_cons (field : String) (n : UInt64) (rest : List Value) :
    integer field (.unsigned n :: rest) = .ok (n, rest) :=
  required_cons field (rfl : Value.integer? (.unsigned n) = some n) rest

@[simp] theorem text_cons (field s : String) (rest : List Value) :
    text field (.string s :: rest) = .ok (s, rest) :=
  required_cons field (rfl : Value.string? (.string s) = some s) rest

@[simp] theorem uri_cons (field : String) {u : Uri} (valid : u.isValid) (rest : List Value) :
    uri field (.string u.text :: rest) = .ok (u, rest) := by
  refine required_cons field ?_ rest
  have text : Uri.isValidText u.text = true := valid
  simp [asUri, Value.string?, Uri.ofString, text, Except.toOption]

@[simp] theorem pattern_cons (field : String) {p : UriPattern} (valid : p.isValid)
    (rest : List Value) : pattern field (.string p.text :: rest) = .ok (p, rest) := by
  refine required_cons field ?_ rest
  have text : UriPattern.isValidText p.text = true := valid
  simp [asPattern, Value.string?, UriPattern.ofString, text, Except.toOption]

@[simp] theorem dictionary_cons (field : String) (d : Dictionary) (rest : List Value) :
    dictionary field (.dictionary d :: rest) = .ok (d, rest) :=
  required_cons field (rfl : Value.dictionary? (.dictionary d) = some d) rest

@[simp] theorem optionalDictionary_cons (field : String) (d : Dictionary) (rest : List Value) :
    optionalDictionary field (.dictionary d :: rest) = .ok (d, rest) :=
  optional_cons field [] rfl rest

@[simp] theorem optionalList_cons (field : String) (items rest : List Value) :
    optionalList field (.list items :: rest) = .ok (items, rest) := optional_cons field [] rfl rest

/-! ### The payload -/

theorem payload_fields (arguments keywords : String) (p : Payload) (rest : List Value) :
    payload arguments keywords (p.fields ++ rest) = .ok (p, rest) := by
  simp [payload, Payload.fields, bind_apply, Except.bind, map_apply]

/-- An empty payload is left out, and so are empty keyword arguments. -/
@[simp] theorem payload_written (arguments keywords : String) (p : Payload) :
    payload arguments keywords p.written = .ok (p, []) := by
  obtain ⟨items, entries⟩ := p
  cases entries with
  | cons e rest => exact payload_fields arguments keywords ⟨items, e :: rest⟩ []
  | nil =>
    cases items with
    | nil => rfl
    | cons v rest =>
      simp [payload, Payload.written, optionalDictionary, bind_apply, Except.bind,
        map_apply]

@[simp] theorem plainPayload_written (p : Payload) : plainPayload p.written = .ok (p, []) :=
  payload_written _ _ p

end FieldReader

namespace Message

theorem code_of_type? {m : Message} {type : MessageType} (typed : m.type? = some type) :
    m.code = type.code := by
  cases m <;> simp_all [code, type?]

/-- The reader of a message's type reads its fields as the message. -/
theorem reader_written {m : Message} {type : MessageType} (typed : m.type? = some type)
    (valid : m.Valid) :
    FieldReader.message type (m.head ++ (m.payload?.map Payload.written).getD []) =
      .ok (m, []) := by
  cases m with
  | unknown code fields => simp [type?] at typed
  | _ =>
    obtain rfl := Option.some.inj typed
    simp_all [FieldReader.message, FieldReader.bind_apply, Except.bind, head, payload?, Valid,
      FieldReader.pure_apply, FieldReader.map_apply]

/-- What was written is read as the message that it was. -/
theorem decode_encode (m : Message) (valid : m.Valid) : decode m.encode = .ok m := by
  cases typed : m.type? with
  | some type =>
    have reads := reader_written typed valid
    simp [decode, encode, Value.integer?, code_of_type? typed, reads]
  | none =>
    cases m with
    | unknown code fields =>
      have strange := MessageType.ofCode?_eq_none_iff.mpr valid
      simp [decode, encode, Message.code, Value.integer?, strange, head, payload?]
    | _ => simp [type?] at typed

/-- An ERROR whose keyword arguments hold the place of its arguments, and a message of a code that
means nothing. -/
theorem decode_encode_error :
    let m : Message := .error 48 Id.max [("trace", .list [.signed (-1), .null])] ⟨"com.late"⟩
      ⟨[], [("after", .float ⟨0x7FF8000000000000⟩)]⟩
    let n : Message := .unknown 7 [.dictionary [], .list []]
    m.Valid ∧ n.Valid ∧ decode m.encode = .ok m ∧ decode n.encode = .ok n ∧
      m.encode.length = 7 := by
  intro m n
  have valid : m.Valid := (by decide : Uri.isValid ⟨"com.late"⟩ = true)
  have strange : n.Valid := fun type => by cases type <;> decide
  exact ⟨valid, strange, decode_encode m valid, decode_encode n strange, rfl⟩

end Message

end WampClient
