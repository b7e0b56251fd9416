import WampClient.Message.Basic

/-! Reading a message from its list form. Fields are read in order, and the first one that is
absent or of the wrong kind is reported; fields beyond the last known one are passed over. -/
namespace WampClient

/-- Why a field could not be read. -/
inductive FieldFault where
  | missing (field : String)
  | invalid (field : String)
  deriving DecidableEq, Repr

/-- Why a list is not a message. -/
inductive InvalidMessage where
  | empty
  | invalidType
  | badField (type : MessageType) (fault : FieldFault)
  deriving DecidableEq, Repr

def InvalidMessage.message : InvalidMessage → String
  | .empty => "message is empty"
  | .invalidType => "message type must be an unsigned integer"
  | .badField type (.missing field) => type.name ++ " message is missing " ++ field
  | .badField type (.invalid field) => type.name ++ " message has an invalid " ++ field

/-- Takes fields from the front of a list. -/
abbrev FieldReader := StateT (List Value) (Except FieldFault)

namespace FieldReader

def next? : FieldReader (Option Value) := fun
  | [] => .ok (none, [])
  | v :: rest => .ok (some v, rest)

def required (field : String) (read : Value → Option α) : FieldReader α := do
  match ← next? with
  | none => throw (.missing field)
  | some v =>
    match read v with
    | some a => pure a
    | none => throw (.invalid field)

def optional (field : String) (absent : α) (read : Value → Option α) : FieldReader α := do
  match ← next? with
  | none => pure absent
  | some v =>
    match read v with
    | some a => pure a
    | none => throw (.invalid field)

def asId (v : Value) : Option Id := v.integer?.bind fun n => (Id.ofNat n.toNat).toOption

def asUri (v : Value) : Option Uri := v.string?.bind fun s => (Uri.ofString s).toOption

def asPattern (v : Value) : Option UriPattern :=
  v.string?.bind fun s => (UriPattern.ofString s).toOption

def integer (field : String) : FieldReader UInt64 := required field Value.integer?

def id (field : String) : FieldReader Id := required field asId

def text (field : String) : FieldReader String := required field Value.string?

def uri (field : String) : FieldReader Uri := required field asUri

def pattern (field : String) : FieldReader UriPattern := required field asPattern

def dictionary (field : String) : FieldReader Dictionary := required field Value.dictionary?

def optionalDictionary (field : String) : FieldReader Dictionary :=
  optional field [] Value.dictionary?

def optionalList (field : String) : FieldReader (List Value) := optional field [] Value.list?

def payload (arguments keywords : String) : FieldReader Payload := do
  return ⟨← optionalList arguments, ← optionalDictionary keywords⟩

def plainPayload : FieldReader Payload := payload "arguments" "arguments_keyword"

/-- The fields of a message of the given type. -/
def message : MessageType → FieldReader Message
  | .hello => do return .hello (← uri "realm") (← optionalDictionary "details")
  | .welcome => do return .welcome (← id "session") (← optionalDictionary "details")
  | .abort => do return .abort (← dictionary "details") (← uri "reason") (← plainPayload)
  | .challenge => do return .challenge (← text "auth_method") (← optionalDictionary "extra")
  | .authenticate => do return .authenticate (← text "signature") (← optionalDictionary "extra")
  | .goodbye => do return .goodbye (← dictionary "details") (← uri "reason")
  | .error => do
    return .error (← integer "request_type") (← id "request") (← dictionary "details")
      (← uri "error") (← plainPayload)
  | .publish => do
    return .publish (← id "request") (← dictionary "options") (← uri "topic") (← plainPayload)
  | .published => do return .published (← id "publish_request") (← id "publication")
  | .subscribe => do
    return .subscribe (← id "request") (← dictionary "options") (← pattern "topic")
  | .subscribed => do return .subscribed (← id "subscribe_request") (← id "subscription")
  | .unsubscribe => do return .unsubscribe (← id "request") (← id "subscribed_subscription")
  | .unsubscribed => do return .unsubscribed (← id "unsubscribe_request")
  | .event => do
    return .event (← id "subscribed_subscription") (← id "published_publication")
      (← dictionary "details") (← payload "publish_arguments" "publish_arguments_keyword")
  | .call => do
    return .call (← id "request") (← dictionary "options") (← uri "procedure") (← plainPayload)
  | .cancel => do return .cancel (← id "call_request") (← optionalDictionary "options")
  | .result => do
    return .result (← id "call_request") (← dictionary "details")
      (← payload "yield_arguments" "yield_arguments_keyword")
  | .register => do
    return .register (← id "request") (← dictionary "options") (← pattern "procedure")
  | .registered => do return .registered (← id "register_request") (← id "registration")
  | .unregister => do return .unregister (← id "request") (← id "registered_registration")
  | .unregistered => do return .unregistered (← id "unregister_request")
  | .invocation => do
    return .invocation (← id "request") (← id "registered_registration") (← dictionary "details")
      (← payload "call_arguments" "call_arguments_keyword")
  | .interrupt => do return .interrupt (← id "invocation_request") (← optionalDictionary "options")
  | .yield => do
    return .yield (← id "invocation_request") (← dictionary "options") (← plainPayload)

end FieldReader

namespace Message

/-- Reads the list form of a message. A code of no known type keeps its fields as they are. -/
def decode : List Value → Except InvalidMessage Message
  | [] => .error .empty
  | first :: rest =>
    match first.integer? with
    | none => .error .invalidType
    | some code =>
      match MessageType.ofCode? code with
      | none => .ok (.unknown code rest)
      | some type =>
        match FieldReader.message type rest with
        | .ok (m, _) => .ok m
        | .error fault => .error (.badField type fault)

end Message

end WampClient
