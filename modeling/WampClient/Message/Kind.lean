/-! The twenty-four types of message, their codes and names, and the fields of each in the order in
which they are written. -/
namespace WampClient

inductive MessageType where
  | hello | welcome | abort | challenge | authenticate | goodbye | error
  | publish | published | subscribe | subscribed | unsubscribe | unsubscribed | event
  | call | cancel | result | register | registered | unregister | unregistered
  | invocation | interrupt | yield
  deriving DecidableEq, Repr, Inhabited

/-- What a field holds. An id may be written as a signed number; a pattern is a URI with empty
components allowed. -/
inductive FieldKind where
  | id | integer | uri | pattern | text | dictionary | list
  deriving DecidableEq, Repr

/-- A field of a message; one that is not required is empty when it is left out. -/
structure Field where
  name : String
  kind : FieldKind
  required : Bool
  deriving DecidableEq, Repr

namespace MessageType

def all : List MessageType :=
  [.hello, .welcome, .abort, .challenge, .authenticate, .goodbye, .error, .publish, .published,
   .subscribe, .subscribed, .unsubscribe, .unsubscribed, .event, .call, .cancel, .result,
   .register, .registered, .unregister, .unregistered, .invocation, .interrupt, .yield]

def code : MessageType → UInt64
  | .hello => 1
  | .welcome => 2
  | .abort => 3
  | .challenge => 4
  | .authenticate => 5
  | .goodbye => 6
  | .error => 8
  | .publish => 16
  | .published => 17
  | .subscribe => 32
  | .subscribed => 33
  | .unsubscribe => 34
  | .unsubscribed => 35
  | .event => 36
  | .call => 48
  | .cancel => 49
  | .result => 50
  | .register => 64
  | .registered => 65
  | .unregister => 66
  | .unregistered => 67
  | .invocation => 68
  | .interrupt => 69
  | .yield => 70

def ofCode? (code : UInt64) : Option MessageType := all.find? fun t => t.code == code

def name : MessageType → String
  | .hello => "HELLO"
  | .welcome => "WELCOME"
  | .abort => "ABORT"
  | .challenge => "CHALLENGE"
  | .authenticate => "AUTHENTICATE"
  | .goodbye => "GOODBYE"
  | .error => "ERROR"
  | .publish => "PUBLISH"
  | .published => "PUBLISHED"
  | .subscribe => "SUBSCRIBE"
  | .subscribed => "SUBSCRIBED"
  | .unsubscribe => "UNSUBSCRIBE"
  | .unsubscribed => "UNSUBSCRIBED"
  | .event => "EVENT"
  | .call => "CALL"
  | .cancel => "CANCEL"
  | .result => "RESULT"
  | .register => "REGISTER"
  | .registered => "REGISTERED"
  | .unregister => "UNREGISTER"
  | .unregistered => "UNREGISTERED"
  | .invocation => "INVOCATION"
  | .interrupt => "INTERRUPT"
  | .yield => "YIELD"

/-- The two fields that close a message with a payload. -/
def payloadFields (arguments keywords : String) : List Field :=
  [⟨arguments, .list, false⟩, ⟨keywords, .dictionary, false⟩]

def plainPayload : List Field := payloadFields "arguments" "arguments_keyword"

def fields : MessageType → List Field
  | .hello => [⟨"realm", .uri, true⟩, ⟨"details", .dictionary, false⟩]
  | .welcome => [⟨"session", .id, true⟩, ⟨"details", .dictionary, false⟩]
  | .abort => [⟨"details", .dictionary, true⟩, ⟨"reason", .uri, true⟩] ++ plainPayload
  | .challenge => [⟨"auth_method", .text, true⟩, ⟨"extra", .dictionary, false⟩]
  | .authenticate => [⟨"signature", .text, true⟩, ⟨"extra", .dictionary, false⟩]
  | .goodbye => [⟨"details", .dictionary, true⟩, ⟨"reason", .uri, true⟩]
  | .error =>
    [⟨"request_type", .integer, true⟩, ⟨"request", .id, true⟩, ⟨"details", .dictionary, true⟩,
     ⟨"error", .uri, true⟩] ++ plainPayload
  | .publish =>
    [⟨"request", .id, true⟩, ⟨"options", .dictionary, true⟩, ⟨"topic", .uri, true⟩] ++ plainPayload
  | .published => [⟨"publish_request", .id, true⟩, ⟨"publication", .id, true⟩]
  | .subscribe =>
    [⟨"request", .id, true⟩, ⟨"options", .dictionary, true⟩, ⟨"topic", .pattern, true⟩]
  | .subscribed => [⟨"subscribe_request", .id, true⟩, ⟨"subscription", .id, true⟩]
  | .unsubscribe => [⟨"request", .id, true⟩, ⟨"subscribed_subscription", .id, true⟩]
  | .unsubscribed => [⟨"unsubscribe_request", .id, true⟩]
  | .event =>
    [⟨"subscribed_subscription", .id, true⟩, ⟨"published_publication", .id, true⟩,
     ⟨"details", .dictionary, true⟩] ++
    payloadFields "publish_arguments" "publish_arguments_keyword"
  | .call =>
    [⟨"request", .id, true⟩, ⟨"options", .dictionary, true⟩, ⟨"procedure", .uri, true⟩] ++
    plainPayload
  | .cancel => [⟨"call_request", .id, true⟩, ⟨"options", .dictionary, false⟩]
  | .result =>
    [⟨"call_request", .id, true⟩, ⟨"details", .dictionary, true⟩] ++
    payloadFields "yield_arguments" "yield_arguments_keyword"
  | .register =>
    [⟨"request", .id, true⟩, ⟨"options", .dictionary, true⟩, ⟨"procedure", .pattern, true⟩]
  | .registered => [⟨"register_request", .id, true⟩, ⟨"registration", .id, true⟩]
  | .unregister => [⟨"request", .id, true⟩, ⟨"registered_registration", .id, true⟩]
  | .unregistered => [⟨"unregister_request", .id, true⟩]
  | .invocation =>
    [⟨"request", .id, true⟩, ⟨"registered_registration", .id, true⟩,
     ⟨"details", .dictionary, true⟩] ++ payloadFields "call_arguments" "call_arguments_keyword"
  | .interrupt => [⟨"invocation_request", .id, true⟩, ⟨"options", .dictionary, false⟩]
  | .yield =>
    [⟨"invocation_request", .id, true⟩, ⟨"options", .dictionary, true⟩] ++ plainPayload

end MessageType

end WampClient
