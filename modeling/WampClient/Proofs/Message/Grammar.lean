import WampClient.Message.Schema
import WampClient.Proofs.Message.Canonical

/-! The twenty-four readers against the tables of fields. `Follows` says that a reader goes by a
table: it stops at the table's first fault, and otherwise reads what the table's fields hold, those
that were left out being empty. Each field reader goes by a table of one field, and readers one
after another by their tables one after another; so every message's reader goes by its type's. -/
namespace WampClient

namespace FieldKind

/-- What a field holds that was left out. -/
def blank : FieldKind → Value
  | .list => .list []
  | _ => .dictionary []

end FieldKind

/-- What is wrong with the value of a field, or with its absence. -/
def Field.fault? (f : Field) : Option Value → Option FieldFault
  | none => if f.required then some (.missing f.name) else none
  | some v => if f.kind.accepts v then none else some (.invalid f.name)

/-- What the fields of a table hold. -/
def fillFields : List Field → List Value → List Value
  | [], _ => []
  | f :: fs, [] => f.kind.blank :: fillFields fs []
  | f :: fs, v :: vs => f.kind.canonical v :: fillFields fs vs

namespace Message

/-- What a message says: its type and code, and all of its fields. -/
def content (m : Message) : Option MessageType × UInt64 × List Value := (m.type?, m.code, m.fields)

/-- Reads the list form of a message by the table of its type. -/
def readByTable : List Value → Except InvalidMessage (Option MessageType × UInt64 × List Value)
  | [] => .error .empty
  | first :: rest =>
    match first.integer? with
    | none => .error .invalidType
    | some code =>
      match MessageType.ofCode? code with
      | none => .ok (none, code, rest)
      | some type =>
        match firstFault type.fields rest with
        | some fault => .error (.badField type fault)
        | none => .ok (some type, code, fillFields type.fields rest)

end Message

/-! ### Tables -/

theorem firstFault_cons (f : Field) (fs : List Field) (values : List Value) :
    firstFault (f :: fs) values = (f.fault? values.head?).or (firstFault fs values.tail) := by
  cases values with
  | nil =>
    rw [firstFault]
    by_cases required : f.required <;> simp [Field.fault?, required]
  | cons v vs =>
    rw [firstFault]
    by_cases accepts : f.kind.accepts v <;> simp [Field.fault?, accepts]

theorem firstFault_append (table more : List Field) (values : List Value) :
    firstFault (table ++ more) values =
      (firstFault table values).or (firstFault more (values.drop table.length)) := by
  induction table generalizing values with
  | nil => rfl
  | cons f fs ih =>
    rw [List.cons_append, firstFault_cons, ih, firstFault_cons, Option.or_assoc]
    simp [List.drop_tail]

theorem fillFields_append (table more : List Field) (values : List Value) :
    fillFields (table ++ more) values =
      fillFields table values ++ fillFields more (values.drop table.length) := by
  induction table generalizing values with
  | nil => rfl
  | cons f fs ih => cases values <;> simp [fillFields, ih]

/-- The first fault is that of some field, and no field before it has one. -/
theorem firstFault_eq_some_iff {table : List Field} {values : List Value} {fault : FieldFault} :
    firstFault table values = some fault ↔
      ∃ (i : Nat) (f : Field), table[i]? = some f ∧ f.fault? values[i]? = some fault ∧
        ∀ j < i, ∀ g : Field, table[j]? = some g → g.fault? values[j]? = none := by
  induction table generalizing values with
  | nil => simp [firstFault]
  | cons f fs ih =>
    rw [firstFault_cons, List.head?_eq_getElem?, Option.or_eq_some_iff, ih]
    simp only [List.getElem?_tail]
    constructor
    · rintro (own | ⟨fine, i, g, there, wrong, before⟩)
      · exact ⟨0, f, rfl, own, by simp⟩
      · refine ⟨i + 1, g, there, wrong, fun j less h listed => ?_⟩
        cases j with
        | zero =>
          obtain rfl : f = h := by simpa using listed
          exact fine
        | succ j => exact before j (by omega) h listed
    · rintro ⟨i, g, there, wrong, before⟩
      cases i with
      | zero =>
        obtain rfl : f = g := by simpa using there
        exact Or.inl wrong
      | succ i =>
        exact Or.inr ⟨before 0 (Nat.succ_pos i) f rfl, i, g, there, wrong,
          fun j less h listed => before (j + 1) (by omega) h listed⟩

theorem firstFault_eq_none_iff {table : List Field} {values : List Value} :
    firstFault table values = none ↔
      ∀ (i : Nat) (f : Field), table[i]? = some f → f.fault? values[i]? = none := by
  induction table generalizing values with
  | nil => simp [firstFault]
  | cons f fs ih =>
    rw [firstFault_cons, List.head?_eq_getElem?, Option.or_eq_none_iff, ih]
    simp only [List.getElem?_tail]
    constructor
    · rintro ⟨own, later⟩ i g there
      cases i with
      | zero =>
        obtain rfl : f = g := by simpa using there
        exact own
      | succ i => exact later i g there
    · exact fun fine => ⟨fine 0 f rfl, fun i g there => fine (i + 1) g there⟩

namespace FieldReader

variable {α β : Type} {field : String} {table more : List Field} {before : List Value}

/-- The reader goes by the table. It is read behind the fields `before`. -/
def Follows (read : FieldReader α) (table : List Field) (before : List Value)
    (write : α → List Value) : Prop :=
  ∀ values, (read values).map (fun out => (write out.1, out.2)) =
    match firstFault table values with
    | some fault => .error fault
    | none => .ok (before ++ fillFields table values, values.drop table.length)

theorem Follows.of_fault {read : FieldReader α} {write : α → List Value} {values : List Value}
    {fault : FieldFault} (follows : Follows read table before write)
    (found : firstFault table values = some fault) : read values = .error fault := by
  have same := follows values
  rw [found] at same
  cases out : read values with
  | error wrong => simpa [out, Except.map] using same
  | ok done => simp [out, Except.map] at same

theorem Follows.of_fine {read : FieldReader α} {write : α → List Value} {values : List Value}
    (follows : Follows read table before write) (fine : firstFault table values = none) :
    ∃ a, read values = .ok (a, values.drop table.length) ∧
      write a = before ++ fillFields table values := by
  have same := follows values
  rw [fine] at same
  cases out : read values with
  | error wrong => simp [out, Except.map] at same
  | ok done =>
    obtain ⟨written, left⟩ : write done.1 = before ++ fillFields table values ∧
        done.2 = values.drop table.length := by simpa [out, Except.map] using same
    exact ⟨done.1, by rw [← left], written⟩

/-! ### One field -/

theorem follows_required (kind : FieldKind) {read : Value → Option α} {write : α → Value}
    (reads : ∀ v, (read v).map write = if kind.accepts v then some (kind.canonical v) else none) :
    Follows (required field read) [⟨field, kind, true⟩] [] fun a => [write a] := by
  intro values
  cases values with
  | nil => rfl
  | cons v rest =>
    have read' := reads v
    by_cases accepts : kind.accepts v = true
    · rw [if_pos accepts, Option.map_eq_some_iff] at read'
      obtain ⟨a, was, written⟩ := read'
      rw [required_cons field was]
      simp [firstFault, accepts, fillFields, written, Except.map]
    · rw [if_neg accepts, Option.map_eq_none_iff] at read'
      rw [required, bind_apply]
      simp only [next?, Except.bind, read', firstFault, accepts]
      rfl

theorem follows_optional (kind : FieldKind) {read : Value → Option α} {write : α → Value}
    {absent : α} (blank : write absent = kind.blank)
    (reads : ∀ v, (read v).map write = if kind.accepts v then some (kind.canonical v) else none) :
    Follows (optional field absent read) [⟨field, kind, false⟩] [] fun a => [write a] := by
  intro values
  cases values with
  | nil => simp [firstFault, fillFields, Except.map, blank]
  | cons v rest =>
    -- whether a field is required makes no difference where it is there
    exact follows_required kind reads (v :: rest)

theorem follows_id (field : String) :
    Follows (id field) [⟨field, .id, true⟩] [] fun i => [Message.idField i] := by
  refine follows_required .id fun v => ?_
  cases whole : v.integer? with
  | none => simp [asId, whole, FieldKind.accepts]
  | some n =>
    have max : Id.max.value = 9007199254740992 := rfl
    by_cases range : 1 ≤ n.toNat ∧ n.toNat ≤ 9007199254740992
    · simp [asId, whole, FieldKind.accepts, Id.ofNat, range, Except.toOption, max, Message.idField,
        FieldKind.canonical, Value.plain]
    · simp [asId, whole, FieldKind.accepts, Id.ofNat, range, Except.toOption, max]

theorem follows_integer (field : String) :
    Follows (integer field) [⟨field, .integer, true⟩] [] fun n => [.unsigned n] := by
  refine follows_required .integer fun v => ?_
  cases whole : v.integer? with
  | none => simp [FieldKind.accepts, whole]
  | some n => simp [FieldKind.accepts, whole, FieldKind.canonical, Value.plain]

theorem follows_text (field : String) :
    Follows (text field) [⟨field, .text, true⟩] [] fun s => [.string s] :=
  follows_required .text fun v => by cases v <;> rfl

theorem follows_uri (field : String) :
    Follows (uri field) [⟨field, .uri, true⟩] [] fun u => [.string u.text] := by
  refine follows_required .uri fun v => ?_
  cases v with
  | string s =>
    cases valid : Uri.isValidText s <;>
      simp [asUri, Value.string?, Uri.ofString, valid, Except.toOption, FieldKind.accepts,
        FieldKind.canonical]
  | _ => rfl

theorem follows_pattern (field : String) :
    Follows (pattern field) [⟨field, .pattern, true⟩] [] fun p => [.string p.text] := by
  refine follows_required .pattern fun v => ?_
  cases v with
  | string s =>
    cases valid : UriPattern.isValidText s <;>
      simp [asPattern, Value.string?, UriPattern.ofString, valid, Except.toOption,
        FieldKind.accepts, FieldKind.canonical]
  | _ => rfl

theorem follows_dictionary (field : String) :
    Follows (dictionary field) [⟨field, .dictionary, true⟩] [] fun d => [.dictionary d] :=
  follows_required .dictionary fun v => by cases v <;> rfl

theorem follows_optionalDictionary (field : String) :
    Follows (optionalDictionary field) [⟨field, .dictionary, false⟩] [] fun d => [.dictionary d] :=
  follows_optional .dictionary rfl fun v => by cases v <;> rfl

theorem follows_optionalList (field : String) :
    Follows (optionalList field) [⟨field, .list, false⟩] [] fun items => [.list items] :=
  follows_optional .list rfl fun v => by cases v <;> rfl

/-! ### One field after another -/

theorem Follows.bind {read : FieldReader α} {next : α → FieldReader β} {write : α → List Value}
    {write' : β → List Value} (first : Follows read table [] write)
    (later : ∀ a, Follows (next a) more (before ++ write a) write') :
    Follows (read >>= next) (table ++ more) before write' := by
  intro values
  rw [bind_apply, firstFault_append, fillFields_append, List.length_append, ← List.drop_drop]
  cases fault : firstFault table values with
  | some fault' =>
    rw [first.of_fault fault]
    rfl
  | none =>
    obtain ⟨a, out, written⟩ := first.of_fine fault
    have rest := later a (values.drop table.length)
    rw [written, List.nil_append, List.append_assoc] at rest
    rw [out]
    exact rest

theorem Follows.pure {a : α} {write : α → List Value} (whole : write a = before) :
    Follows (pure a) [] before write := by
  intro values
  rw [pure_apply]
  simp [Except.map, firstFault, fillFields, whole]

theorem follows_payload (arguments keywords : String) :
    Follows (payload arguments keywords) (MessageType.payloadFields arguments keywords) []
      Payload.fields :=
  (follows_optionalList arguments).bind fun _ =>
    (follows_optionalDictionary keywords).bind fun _ => .pure rfl

theorem follows_plainPayload : Follows plainPayload MessageType.plainPayload [] Payload.fields :=
  follows_payload _ _

/-- The reader of every type of message goes by the table of the type. -/
theorem follows_message (type : MessageType) :
    Follows (message type) type.fields [] Message.fields := by
  cases type with
  | hello =>
    exact (follows_uri _).bind fun _ => (follows_optionalDictionary _).bind fun _ => .pure rfl
  | welcome | cancel | interrupt =>
    exact (follows_id _).bind fun _ => (follows_optionalDictionary _).bind fun _ => .pure rfl
  | challenge | authenticate =>
    exact (follows_text _).bind fun _ => (follows_optionalDictionary _).bind fun _ => .pure rfl
  | goodbye => exact (follows_dictionary _).bind fun _ => (follows_uri _).bind fun _ => .pure rfl
  | abort =>
    exact (follows_dictionary _).bind fun _ => (follows_uri _).bind fun _ =>
      follows_plainPayload.bind fun _ => .pure rfl
  | error =>
    exact (follows_integer _).bind fun _ => (follows_id _).bind fun _ =>
      (follows_dictionary _).bind fun _ => (follows_uri _).bind fun _ =>
        follows_plainPayload.bind fun _ => .pure rfl
  | publish | call =>
    exact (follows_id _).bind fun _ => (follows_dictionary _).bind fun _ =>
      (follows_uri _).bind fun _ => follows_plainPayload.bind fun _ => .pure rfl
  | subscribe | register =>
    exact (follows_id _).bind fun _ => (follows_dictionary _).bind fun _ =>
      (follows_pattern _).bind fun _ => .pure rfl
  | published | subscribed | unsubscribe | registered | unregister =>
    exact (follows_id _).bind fun _ => (follows_id _).bind fun _ => .pure rfl
  | unsubscribed | unregistered => exact (follows_id _).bind fun _ => .pure rfl
  | event | invocation =>
    exact (follows_id _).bind fun _ => (follows_id _).bind fun _ =>
      (follows_dictionary _).bind fun _ => (follows_payload _ _).bind fun _ => .pure rfl
  | result =>
    exact (follows_id _).bind fun _ => (follows_dictionary _).bind fun _ =>
      (follows_payload _ _).bind fun _ => .pure rfl
  | yield =>
    exact (follows_id _).bind fun _ => (follows_dictionary _).bind fun _ =>
      follows_plainPayload.bind fun _ => .pure rfl

end FieldReader

namespace Message

/-- Reading a message goes by the tables. -/
theorem content_decode (values : List Value) :
    (decode values).map content = readByTable values := by
  cases values with
  | nil => rfl
  | cons first rest =>
    rw [decode.eq_def, readByTable.eq_def]
    dsimp only
    cases whole : first.integer? with
    | none => rfl
    | some code =>
      dsimp only
      cases known : MessageType.ofCode? code with
      | none => simp [Except.map, content, type?, Message.code, fields, head, payload?]
      | some type =>
        have follows := FieldReader.follows_message type
        dsimp only
        cases fault : firstFault type.fields rest with
        | some fault' =>
          rw [follows.of_fault fault]
          rfl
        | none =>
          obtain ⟨m, out, held⟩ := follows.of_fine fault
          have typed := (written_of_reader out).1
          rw [out]
          simp only [Except.map, content, typed, code_of_type? typed, held, List.nil_append,
            MessageType.code_of_ofCode? known]

/-- The faults of the list form are those that the tables find. -/
theorem decode_eq_error_iff {values : List Value} {wrong : InvalidMessage} :
    decode values = .error wrong ↔ messageFault values = some wrong := by
  have same := content_decode values
  have found : readByTable values = .error wrong ↔ messageFault values = some wrong := by
    cases values with
    | nil => simp [readByTable, messageFault, eq_comm]
    | cons first rest =>
      rw [readByTable.eq_def, messageFault.eq_def]
      dsimp only
      cases first.integer? with
      | none => simp
      | some code =>
        dsimp only
        cases MessageType.ofCode? code with
        | none => simp
        | some type =>
          cases fault : firstFault type.fields rest <;> simp [fault]
  rw [← found, ← same]
  cases decode values <;> simp [Except.map]

theorem messageFault_cons {first : Value} {rest : List Value} {wrong : InvalidMessage} :
    messageFault (first :: rest) = some wrong ↔
      first.integer? = none ∧ wrong = .invalidType ∨
        ∃ type : MessageType, first.integer? = some type.code ∧
          ∃ fault, firstFault type.fields rest = some fault ∧ wrong = .badField type fault := by
  rw [messageFault]
  cases whole : first.integer? with
  | none => simp [eq_comm]
  | some code =>
    cases known : MessageType.ofCode? code with
    | none =>
      have strange := MessageType.ofCode?_eq_none_iff.mp known
      simp [known, fun type => Ne.symm (strange type)]
    | some type =>
      obtain rfl := MessageType.code_of_ofCode? known
      have alone : ∀ other : MessageType, type.code = other.code ↔ other = type := fun other =>
        ⟨fun same => by simpa using congrArg MessageType.ofCode? same.symm,
          fun same => congrArg MessageType.code same.symm⟩
      cases fault : firstFault type.fields rest <;> simp [alone, fault, eq_comm]

/-- A list with the code of a type is read as a message of that type exactly if the table finds no
fault. -/
theorem decode_ok_iff {type : MessageType} {first : Value} {rest : List Value}
    (whole : first.integer? = some type.code) :
    (∃ m, decode (first :: rest) = .ok m ∧ m.type? = some type) ↔
      firstFault type.fields rest = none := by
  have same := content_decode (first :: rest)
  simp only [readByTable, whole, MessageType.ofCode?_code] at same
  cases fault : firstFault type.fields rest with
  | some fault' =>
    rw [fault] at same
    cases out : decode (first :: rest) <;> simp [out, Except.map] at same ⊢
  | none =>
    rw [fault] at same
    cases out : decode (first :: rest) with
    | error wrong => simp [out, Except.map] at same
    | ok m =>
      have typed : m.type? = some type := by
        have held := Except.ok.inj (out ▸ same : Except.ok m.content = _)
        exact congrArg Prod.fst held
      simp [typed]

/-- The list form of a message is read by the table of its type, field after field. An empty list
and one that does not begin with an unsigned number are told apart from all others; a list with the
code of a type is refused exactly if some field of the table is required and absent or holds a value
of another kind, and then for the first such field, whatever comes behind it; a list with any other
code is taken as it is. -/
theorem decode_by_grammar (values : List Value) :
    (decode values).map content = readByTable values ∧
    (decode values = .error .empty ↔ values = []) ∧
    (decode values = .error .invalidType ↔
      ∃ first rest, values = first :: rest ∧ first.integer? = none) ∧
    (∀ (type : MessageType) (fault : FieldFault),
      decode values = .error (.badField type fault) ↔
        ∃ first rest, values = first :: rest ∧ first.integer? = some type.code ∧
          ∃ (i : Nat) (f : Field), type.fields[i]? = some f ∧ f.fault? rest[i]? = some fault ∧
            ∀ j < i, ∀ g : Field, type.fields[j]? = some g → g.fault? rest[j]? = none) ∧
    (∀ (type : MessageType) (first : Value) (rest : List Value), values = first :: rest →
      first.integer? = some type.code →
        ((∃ m, decode values = .ok m ∧ m.type? = some type) ↔
          ∀ (i : Nat) (f : Field), type.fields[i]? = some f → f.fault? rest[i]? = none)) ∧
    (∀ (first : Value) (code : UInt64) (rest : List Value), values = first :: rest →
      first.integer? = some code → (∀ type : MessageType, type.code ≠ code) →
        decode values = .ok (.unknown code rest)) := by
  refine ⟨content_decode values, ?_, ?_, fun type fault => ?_, fun type first rest same whole => ?_,
    fun first code rest same whole strange => ?_⟩
  · cases values with
    | nil => simp [decode]
    | cons first rest => simp [decode_eq_error_iff, messageFault_cons]
  · cases values with
    | nil => simp [decode]
    | cons first rest => simp [decode_eq_error_iff, messageFault_cons]
  · cases values with
    | nil => simp [decode]
    | cons first rest =>
      simp [decode_eq_error_iff, messageFault_cons, ← firstFault_eq_some_iff]
  · subst same
    rw [← firstFault_eq_none_iff]
    exact decode_ok_iff whole
  · subst same
    have unknown := MessageType.ofCode?_eq_none_iff.mpr strange
    simp [decode, whole, unknown]

/-- Of two fields of the wrong kind the first is reported. -/
example : decode [.unsigned 50, .signed 1, .dictionary [], .string "oops", .null] =
    .error (.badField .result (.invalid "yield_arguments")) := rfl

end Message

end WampClient
