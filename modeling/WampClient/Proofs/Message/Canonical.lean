import WampClient.Proofs.Message.RoundTrip

/-! Reading and writing again puts a list into canonical form. Whole numbers are written unsigned,
options that were left out are written as an empty dictionary, and what says nothing at the end is
left out: fields that the table of the type does not have, empty keyword arguments, and then empty
arguments. All else stays as it came. -/
namespace WampClient

/-- A number that can be held unsigned is. -/
def Value.plain (v : Value) : Value :=
  match v.integer? with
  | some n => .unsigned n
  | none => v

/-- How the value of a field is written. -/
def FieldKind.canonical : FieldKind → Value → Value
  | .id, v => v.plain
  | .integer, v => v.plain
  | _, v => v

namespace MessageType

/-- The types whose last field is a dictionary of options, details or extras that may be left
out. -/
def endsInOptions : MessageType → Bool
  | .hello => true
  | .welcome => true
  | .challenge => true
  | .authenticate => true
  | .cancel => true
  | .interrupt => true
  | _ => false

/-- Whether arguments may come at the end. -/
def hasPayload (type : MessageType) : Bool := type.fields.any fun f => f.kind == .list

/-- How many fields have to be there. -/
def mandatory (type : MessageType) : Nat := type.fields.countP Field.required

end MessageType

namespace Message

/-- Leaves out keyword arguments that are empty. -/
def dropKeywords : List Value → List Value
  | [arguments, .dictionary []] => [arguments]
  | payload => payload

/-- Leaves out arguments that are empty, where nothing follows them. -/
def dropArguments : List Value → List Value
  | [.list []] => []
  | payload => payload

/-- The fields of a message of the type in canonical form. -/
def canonicalFields (type : MessageType) (fields : List Value) : List Value :=
  let defined := List.zipWith (fun f v => f.kind.canonical v) type.fields fields
  if type.hasPayload then
    defined.take type.mandatory ++ dropArguments (dropKeywords (defined.drop type.mandatory))
  else if type.endsInOptions && defined.length == type.mandatory then defined ++ [.dictionary []]
  else defined

/-- The list form of a message in canonical form. -/
def canonical : List Value → List Value
  | [] => []
  | first :: rest =>
    first.plain :: match first.integer?.bind MessageType.ofCode? with
      | some type => canonicalFields type rest
      | none => rest

end Message

namespace FieldReader

variable {α β : Type} {field : String} {s s' : List Value}

/-! ### What was read -/

theorem bind_ok {read : FieldReader α} {next : α → FieldReader β} {b : β}
    (done : (read >>= next) s = .ok (b, s')) :
    ∃ a t, read s = .ok (a, t) ∧ next a t = .ok (b, s') := by
  rw [bind_apply] at done
  cases first : read s with
  | error fault => simp [first, Except.bind] at done
  | ok out => exact ⟨out.1, out.2, rfl, by simpa [first, Except.bind] using done⟩

theorem pure_ok {a b : α} (done : (pure a : FieldReader α) s = .ok (b, s')) : a = b ∧ s = s' := by
  rw [pure_apply] at done
  exact Prod.mk.inj (Except.ok.inj done)

theorem required_ok {read : Value → Option α} {a : α}
    (done : required field read s = .ok (a, s')) : ∃ v, s = v :: s' ∧ read v = some a := by
  cases s with
  | nil => cases done
  | cons v rest =>
    cases reads : read v with
    | none =>
      rw [required, bind_apply] at done
      simp only [next?, Except.bind, reads] at done
      cases done
    | some b =>
      rw [required_cons field reads] at done
      obtain ⟨rfl, rfl⟩ : b = a ∧ rest = s' := by simpa using done
      exact ⟨v, rfl, reads⟩

theorem optional_ok {absent : α} {read : Value → Option α} {a : α}
    (done : optional field absent read s = .ok (a, s')) :
    (s = [] ∧ s' = [] ∧ a = absent) ∨ ∃ v, s = v :: s' ∧ read v = some a := by
  cases s with
  | nil =>
    obtain ⟨rfl, rfl⟩ : absent = a ∧ s' = [] := by simpa [eq_comm] using done
    exact Or.inl ⟨rfl, rfl, rfl⟩
  | cons v rest =>
    cases reads : read v with
    | none =>
      rw [optional, bind_apply] at done
      simp only [next?, Except.bind, reads] at done
      cases done
    | some b =>
      rw [optional_cons field absent reads] at done
      obtain ⟨rfl, rfl⟩ : b = a ∧ rest = s' := by simpa using done
      exact Or.inr ⟨v, rfl, reads⟩

theorem id_ok {i : Id} (done : id field s = .ok (i, s')) :
    ∃ v, s = v :: s' ∧ FieldKind.id.canonical v = Message.idField i := by
  obtain ⟨v, same, reads⟩ := required_ok done
  obtain ⟨n, whole, made⟩ := Option.bind_eq_some_iff.mp reads
  refine ⟨v, same, ?_⟩
  rw [FieldKind.canonical, Value.plain, whole, Message.idField]
  by_cases range : 1 ≤ n.toNat ∧ n.toNat ≤ 9007199254740992
  · obtain rfl : ⟨n.toNat, range.1, range.2⟩ = i := by
      simpa [Id.ofNat, range, Except.toOption] using made
    simp
  · simp [Id.ofNat, range, Except.toOption] at made

theorem integer_ok {n : UInt64} (done : integer field s = .ok (n, s')) :
    ∃ v, s = v :: s' ∧ FieldKind.integer.canonical v = .unsigned n := by
  obtain ⟨v, same, reads⟩ := required_ok done
  exact ⟨v, same, by rw [FieldKind.canonical, Value.plain, reads]⟩

theorem text_ok {t : String} (done : text field s = .ok (t, s')) : s = .string t :: s' := by
  obtain ⟨v, same, reads⟩ := required_ok done
  cases v <;> simp_all [Value.string?]

theorem uri_ok {u : Uri} (done : uri field s = .ok (u, s')) :
    s = .string u.text :: s' ∧ u.isValid := by
  obtain ⟨v, same, reads⟩ := required_ok done
  obtain ⟨t, string, made⟩ := Option.bind_eq_some_iff.mp reads
  cases valid : Uri.isValidText t with
  | false => simp [Uri.ofString, valid, Except.toOption] at made
  | true =>
    obtain rfl : ⟨t⟩ = u := by simpa [Uri.ofString, valid, Except.toOption] using made
    cases v <;> simp_all [Value.string?, Uri.isValid]

theorem pattern_ok {p : UriPattern} (done : pattern field s = .ok (p, s')) :
    s = .string p.text :: s' ∧ p.isValid := by
  obtain ⟨v, same, reads⟩ := required_ok done
  obtain ⟨t, string, made⟩ := Option.bind_eq_some_iff.mp reads
  cases valid : UriPattern.isValidText t with
  | false => simp [UriPattern.ofString, valid, Except.toOption] at made
  | true =>
    obtain rfl : ⟨t⟩ = p := by simpa [UriPattern.ofString, valid, Except.toOption] using made
    cases v <;> simp_all [Value.string?, UriPattern.isValid]

theorem dictionary_ok {d : Dictionary} (done : dictionary field s = .ok (d, s')) :
    s = .dictionary d :: s' := by
  obtain ⟨v, same, reads⟩ := required_ok done
  cases v <;> simp_all [Value.dictionary?]

theorem optionalDictionary_ok {d : Dictionary} (done : optionalDictionary field s = .ok (d, s')) :
    (s = [] ∧ s' = [] ∧ d = []) ∨ s = .dictionary d :: s' := by
  refine (optional_ok done).imp_right fun ⟨v, same, reads⟩ => ?_
  cases v <;> simp_all [Value.dictionary?]

theorem optionalList_ok {items : List Value} (done : optionalList field s = .ok (items, s')) :
    (s = [] ∧ s' = [] ∧ items = []) ∨ s = .list items :: s' := by
  refine (optional_ok done).imp_right fun ⟨v, same, reads⟩ => ?_
  cases v <;> simp_all [Value.list?]

/-- The payload is what is left of the first two values, once what is empty is left out. -/
theorem payload_ok {arguments keywords : String} {p : Payload}
    (done : payload arguments keywords s = .ok (p, s')) :
    Message.dropArguments (Message.dropKeywords (s.take 2)) = p.written := by
  obtain ⟨items, t, first, done⟩ := bind_ok done
  obtain ⟨entries, t', second, done⟩ := bind_ok done
  obtain ⟨rfl, rfl⟩ := pure_ok done
  rcases optionalList_ok first with ⟨rfl, rfl, rfl⟩ | rfl
  · rcases optionalDictionary_ok second with ⟨-, -, rfl⟩ | absent
    · rfl
    · exact nomatch absent
  · rcases optionalDictionary_ok second with ⟨rfl, -, rfl⟩ | rfl
    · cases items <;> rfl
    · cases entries with
      | cons e rest => cases items <;> rfl
      | nil => cases items <;> rfl

end FieldReader

namespace Message

/-! ### Canonical fields -/

/-- The fields of a table, as they are written. -/
def writeFields (table : List Field) (fields : List Value) : List Value :=
  List.zipWith (fun f v => f.kind.canonical v) table fields

theorem writeFields_append {table more : List Field} {first : List Value}
    (length : first.length = table.length) (rest : List Value) :
    writeFields (table ++ more) (first ++ rest) =
      writeFields table first ++ writeFields more rest := List.zipWith_append length.symm

theorem length_writeFields {table : List Field} {first : List Value}
    (length : first.length = table.length) : (writeFields table first).length = first.length := by
  simp [writeFields, length]

/-- A payload stands behind the fields that have to be there. -/
theorem canonicalFields_payload {type : MessageType} {table : List Field}
    {arguments keywords : String} {head : List Value} (first : List Value) {rest rest' : List Value}
    {p : Payload} (fields : type.fields = table ++ MessageType.payloadFields arguments keywords)
    (required : table.all Field.required = true) (length : first.length = table.length)
    (written : writeFields table first = head)
    (done : FieldReader.payload arguments keywords rest = .ok (p, rest')) :
    head ++ p.written = canonicalFields type (first ++ rest) := by
  have mandatory : type.mandatory = first.length := by
    have all := List.countP_eq_length.mpr (List.all_eq_true.mp required)
    rw [MessageType.mandatory, fields, List.countP_append, all, length]
    rfl
  have carries : type.hasPayload = true := by
    simp [MessageType.hasPayload, fields, MessageType.payloadFields]
  have payload : writeFields (MessageType.payloadFields arguments keywords) rest = rest.take 2 := by
    rcases rest with _ | ⟨v, _ | ⟨w, more⟩⟩ <;> rfl
  have size := length_writeFields length
  rw [canonicalFields, if_pos carries, mandatory, fields, ← writeFields, writeFields_append length,
    payload, List.take_left' size, List.drop_left' size, FieldReader.payload_ok done, written]

/-- Options stand behind the one field that has to be there. -/
theorem canonicalFields_options {type : MessageType} {first : Field} {options : String}
    {v w : Value} {d : Dictionary} {rest rest' : List Value}
    (table : type.fields = [first, ⟨options, .dictionary, false⟩])
    (required : first.required = true) (plain : type.hasPayload = false)
    (ends : type.endsInOptions = true) (written : first.kind.canonical v = w)
    (done : FieldReader.optionalDictionary options rest = .ok (d, rest')) :
    [w, .dictionary d] ++ [] = canonicalFields type (v :: rest) := by
  have mandatory : type.mandatory = 1 := by simp [MessageType.mandatory, table, required]
  rw [← written]
  rcases FieldReader.optionalDictionary_ok done with ⟨rfl, -, rfl⟩ | rfl
  · simp [canonicalFields, table, plain, ends, mandatory]
  · simp [canonicalFields, table, plain, mandatory, FieldKind.canonical]

/-- Where nothing may be left out, only what is too much goes. -/
theorem canonicalFields_plain {type : MessageType} {head : List Value} (first : List Value)
    {rest : List Value} (plain : type.hasPayload = false) (whole : type.endsInOptions = false)
    (length : first.length = type.fields.length)
    (written : writeFields type.fields first = head) :
    head ++ [] = canonicalFields type (first ++ rest) := by
  have kept := @writeFields_append type.fields [] first length rest
  rw [List.append_nil] at kept
  rw [canonicalFields, plain, whole, ← writeFields, kept, written]
  simp [writeFields]

/-- A message that was read is valid, and is written with the fields that were read in canonical
form. -/
theorem written_of_reader {type : MessageType} {m : Message} {s s' : List Value}
    (done : FieldReader.message type s = .ok (m, s')) :
    m.type? = some type ∧ m.Valid ∧
      m.head ++ (m.payload?.map Payload.written).getD [] = canonicalFields type s := by
  -- Types with the same fields are read alike, so there is one case for each list of fields.
  open FieldReader in
  cases type with
  | hello =>
    obtain ⟨realm, t, first, done⟩ := bind_ok done
    obtain ⟨details, t', second, done⟩ := bind_ok done
    obtain ⟨rfl, rfl⟩ := pure_ok done
    obtain ⟨rfl, valid⟩ := uri_ok first
    exact ⟨rfl, valid, canonicalFields_options rfl rfl rfl rfl rfl second⟩
  | welcome | cancel | interrupt =>
    obtain ⟨i, t, first, done⟩ := bind_ok done
    obtain ⟨options, t', second, done⟩ := bind_ok done
    obtain ⟨rfl, rfl⟩ := pure_ok done
    obtain ⟨v, rfl, number⟩ := id_ok first
    exact ⟨rfl, trivial, canonicalFields_options rfl rfl rfl rfl number second⟩
  | challenge | authenticate =>
    obtain ⟨words, t, first, done⟩ := bind_ok done
    obtain ⟨extra, t', second, done⟩ := bind_ok done
    obtain ⟨rfl, rfl⟩ := pure_ok done
    obtain rfl := text_ok first
    exact ⟨rfl, trivial, canonicalFields_options rfl rfl rfl rfl rfl second⟩
  | abort =>
    obtain ⟨details, t, first, done⟩ := bind_ok done
    obtain ⟨reason, t', second, done⟩ := bind_ok done
    obtain ⟨p, t'', third, done⟩ := bind_ok done
    obtain ⟨rfl, rfl⟩ := pure_ok done
    obtain rfl := dictionary_ok first
    obtain ⟨rfl, valid⟩ := uri_ok second
    exact ⟨rfl, valid, canonicalFields_payload [_, _] rfl rfl rfl rfl third⟩
  | goodbye =>
    obtain ⟨details, t, first, done⟩ := bind_ok done
    obtain ⟨reason, t', second, done⟩ := bind_ok done
    obtain ⟨rfl, rfl⟩ := pure_ok done
    obtain rfl := dictionary_ok first
    obtain ⟨rfl, valid⟩ := uri_ok second
    exact ⟨rfl, valid, canonicalFields_plain [_, _] rfl rfl rfl rfl⟩
  | error =>
    obtain ⟨requestType, t, first, done⟩ := bind_ok done
    obtain ⟨request, t', second, done⟩ := bind_ok done
    obtain ⟨details, t'', third, done⟩ := bind_ok done
    obtain ⟨reason, t₃, fourth, done⟩ := bind_ok done
    obtain ⟨p, t₄, fifth, done⟩ := bind_ok done
    obtain ⟨rfl, rfl⟩ := pure_ok done
    obtain ⟨v, rfl, number⟩ := integer_ok first
    obtain ⟨w, rfl, number'⟩ := id_ok second
    obtain rfl := dictionary_ok third
    obtain ⟨rfl, valid⟩ := uri_ok fourth
    refine ⟨rfl, valid, canonicalFields_payload [_, _, _, _] rfl rfl rfl ?_ fifth⟩
    exact congrArg₂ (fun a b => [a, b, .dictionary details, .string reason.text]) number number'
  | publish | call =>
    obtain ⟨request, t, first, done⟩ := bind_ok done
    obtain ⟨options, t', second, done⟩ := bind_ok done
    obtain ⟨target, t'', third, done⟩ := bind_ok done
    obtain ⟨p, t₃, fourth, done⟩ := bind_ok done
    obtain ⟨rfl, rfl⟩ := pure_ok done
    obtain ⟨v, rfl, number⟩ := id_ok first
    obtain rfl := dictionary_ok second
    obtain ⟨rfl, valid⟩ := uri_ok third
    refine ⟨rfl, valid, canonicalFields_payload [_, _, _] rfl rfl rfl ?_ fourth⟩
    exact congrArg (fun a => [a, .dictionary options, .string target.text]) number
  | subscribe | register =>
    obtain ⟨request, t, first, done⟩ := bind_ok done
    obtain ⟨options, t', second, done⟩ := bind_ok done
    obtain ⟨target, t'', third, done⟩ := bind_ok done
    obtain ⟨rfl, rfl⟩ := pure_ok done
    obtain ⟨v, rfl, number⟩ := id_ok first
    obtain rfl := dictionary_ok second
    obtain ⟨rfl, valid⟩ := pattern_ok third
    refine ⟨rfl, valid, canonicalFields_plain [_, _, _] rfl rfl rfl ?_⟩
    exact congrArg (fun a => [a, .dictionary options, .string target.text]) number
  | published | subscribed | unsubscribe | registered | unregister =>
    obtain ⟨i, t, first, done⟩ := bind_ok done
    obtain ⟨j, t', second, done⟩ := bind_ok done
    obtain ⟨rfl, rfl⟩ := pure_ok done
    obtain ⟨v, rfl, number⟩ := id_ok first
    obtain ⟨w, rfl, number'⟩ := id_ok second
    refine ⟨rfl, trivial, canonicalFields_plain [_, _] rfl rfl rfl ?_⟩
    exact congrArg₂ (fun a b => [a, b]) number number'
  | unsubscribed | unregistered =>
    obtain ⟨i, t, first, done⟩ := bind_ok done
    obtain ⟨rfl, rfl⟩ := pure_ok done
    obtain ⟨v, rfl, number⟩ := id_ok first
    refine ⟨rfl, trivial, canonicalFields_plain [_] rfl rfl rfl ?_⟩
    exact congrArg (fun a => [a]) number
  | event | invocation =>
    obtain ⟨i, t, first, done⟩ := bind_ok done
    obtain ⟨j, t', second, done⟩ := bind_ok done
    obtain ⟨details, t'', third, done⟩ := bind_ok done
    obtain ⟨p, t₃, fourth, done⟩ := bind_ok done
    obtain ⟨rfl, rfl⟩ := pure_ok done
    obtain ⟨v, rfl, number⟩ := id_ok first
    obtain ⟨w, rfl, number'⟩ := id_ok second
    obtain rfl := dictionary_ok third
    refine ⟨rfl, trivial, canonicalFields_payload [_, _, _] rfl rfl rfl ?_ fourth⟩
    exact congrArg₂ (fun a b => [a, b, .dictionary details]) number number'
  | result | yield =>
    obtain ⟨i, t, first, done⟩ := bind_ok done
    obtain ⟨details, t', second, done⟩ := bind_ok done
    obtain ⟨p, t'', third, done⟩ := bind_ok done
    obtain ⟨rfl, rfl⟩ := pure_ok done
    obtain ⟨v, rfl, number⟩ := id_ok first
    obtain rfl := dictionary_ok second
    refine ⟨rfl, trivial, canonicalFields_payload [_, _] rfl rfl rfl ?_ third⟩
    exact congrArg (fun a => [a, .dictionary details]) number

/-- A list that can be read as a message stands for a valid one, and is written again in canonical
form. -/
theorem encode_eq_canonical {values : List Value} {m : Message} (read : decode values = .ok m) :
    m.Valid ∧ m.encode = canonical values := by
  cases values with
  | nil => cases read
  | cons first rest =>
    rw [decode.eq_def] at read
    dsimp only at read
    split at read
    · cases read
    next code whole =>
      have plain : first.plain = .unsigned code := by rw [Value.plain, whole]
      split at read
      next strange =>
        obtain rfl := Except.ok.inj read
        refine ⟨MessageType.ofCode?_eq_none_iff.mp strange, ?_⟩
        simp [encode, canonical, whole, strange, plain, Message.code, head, payload?]
      next type known =>
        split at read
        next m' rest' done =>
          obtain rfl := Except.ok.inj read
          obtain ⟨typed, valid, written⟩ := written_of_reader done
          refine ⟨valid, ?_⟩
          rw [encode, written, code_of_type? typed, MessageType.code_of_ofCode? known]
          simp [canonical, whole, known, plain]
        next => cases read

/-- A RESULT with numbers written as signed, arguments but no keyword arguments, and one field too
many; and an INTERRUPT without options. -/
theorem encode_eq_canonical_result :
    let values : List Value :=
      [.signed 50, .signed 3, .dictionary [], .list [.null], .dictionary [], .bool true]
    let m : Message := .result ⟨3, by decide, by decide⟩ [] ⟨[.null], []⟩
    decode values = .ok m ∧ m.encode = canonical values ∧
      canonical values = [.unsigned 50, .unsigned 3, .dictionary [], .list [.null]] ∧
      canonical [.unsigned 69, .unsigned 3] = [.unsigned 69, .unsigned 3, .dictionary []] := by
  intro values m
  have read : decode values = .ok m := rfl
  exact ⟨read, (encode_eq_canonical read).2, rfl, rfl⟩

end Message

end WampClient
