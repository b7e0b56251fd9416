import WampClient.Message.Basic

/-! The keys under which messages find the routes that wait for them. -/
namespace WampClient

/-- Messages with a given code, or ERROR messages about requests with a given code. -/
inductive RouteKind where
  | message (code : UInt64)
  | error (code : UInt64)
  deriving DecidableEq, Repr

/-- A key without an id stands for every message of its kind. -/
structure RouteKey where
  kind : RouteKind
  id : Option Id
  deriving DecidableEq, Repr

namespace RouteKey

def ofCode (code : UInt64) : RouteKey := ⟨.message code, none⟩

def ofReply (type : MessageType) (id : Id) : RouteKey := ⟨.message type.code, some id⟩

def ofRefusal (type : MessageType) (request : Id) : RouteKey := ⟨.error type.code, some request⟩

/-- The key of a message that came in. An invocation is looked up by its registration, an event by
its subscription, and everything else by the request that it answers. -/
def ofMessage (m : Message) : RouteKey :=
  match m with
  | .invocation _ registration _ _ => ofReply .invocation registration
  | .event subscription _ _ _ => ofReply .event subscription
  | .error requestType request _ _ _ => ⟨.error requestType, some request⟩
  | m => ⟨.message m.code, m.requestId?⟩

/-- Whether a route with this key takes messages that come in under `key`. -/
def covers (own key : RouteKey) : Bool :=
  own.kind == key.kind && (own.id.isNone || own.id == key.id)

end RouteKey

end WampClient
