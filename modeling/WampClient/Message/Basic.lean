import WampClient.Id
import WampClient.Message.Kind
import WampClient.Uri
import WampClient.Value

/-! Messages, one constructor for each type and one for types that are not known. A message is
written as a list: its code, then its fields in order, where an empty payload at the end is left
out. -/
namespace WampClient

/-- Positional and keyword arguments. -/
structure Payload where
  arguments : List Value
  keywords : Dictionary
  deriving Repr, Inhabited

inductive Message where
  | hello (realm : Uri) (details : Dictionary)
  | welcome (session : Id) (details : Dictionary)
  | abort (details : Dictionary) (reason : Uri) (payload : Payload)
  | challenge (method : String) (extra : Dictionary)
  | authenticate (signature : String) (extra : Dictionary)
  | goodbye (details : Dictionary) (reason : Uri)
  | error (requestType : UInt64) (request : Id) (details : Dictionary) (reason : Uri)
      (payload : Payload)
  | publish (request : Id) (options : Dictionary) (topic : Uri) (payload : Payload)
  | published (request publication : Id)
  | subscribe (request : Id) (options : Dictionary) (topic : UriPattern)
  | subscribed (request subscription : Id)
  | unsubscribe (request subscription : Id)
  | unsubscribed (request : Id)
  | event (subscription publication : Id) (details : Dictionary) (payload : Payload)
  | call (request : Id) (options : Dictionary) (procedure : Uri) (payload : Payload)
  | cancel (request : Id) (options : Dictionary)
  | result (request : Id) (details : Dictionary) (payload : Payload)
  | register (request : Id) (options : Dictionary) (procedure : UriPattern)
  | registered (request registration : Id)
  | unregister (request registration : Id)
  | unregistered (request : Id)
  | invocation (request registration : Id) (details : Dictionary) (payload : Payload)
  | interrupt (request : Id) (options : Dictionary)
  | yield (request : Id) (options : Dictionary) (payload : Payload)
  | unknown (code : UInt64) (fields : List Value)
  deriving Repr, Inhabited

namespace Payload

def empty : Payload := ⟨[], []⟩

/-- Both fields, empty or not. -/
def fields (p : Payload) : List Value := [.list p.arguments, .dictionary p.keywords]

/-- What is written of a payload. Keyword arguments have a place of their own, so an empty list
holds the one before it. -/
def written (p : Payload) : List Value :=
  if p.keywords.isEmpty then
    if p.arguments.isEmpty then [] else [.list p.arguments]
  else [.list p.arguments, .dictionary p.keywords]

end Payload

namespace Message

/-- The type of a message, where it is one of the known ones. -/
def type? : Message → Option MessageType
  | .hello .. => some .hello
  | .welcome .. => some .welcome
  | .abort .. => some .abort
  | .challenge .. => some .challenge
  | .authenticate .. => some .authenticate
  | .goodbye .. => some .goodbye
  | .error .. => some .error
  | .publish .. => some .publish
  | .published .. => some .published
  | .subscribe .. => some .subscribe
  | .subscribed .. => some .subscribed
  | .unsubscribe .. => some .unsubscribe
  | .unsubscribed .. => some .unsubscribed
  | .event .. => some .event
  | .call .. => some .call
  | .cancel .. => some .cancel
  | .result .. => some .result
  | .register .. => some .register
  | .registered .. => some .registered
  | .unregister .. => some .unregister
  | .unregistered .. => some .unregistered
  | .invocation .. => some .invocation
  | .interrupt .. => some .interrupt
  | .yield .. => some .yield
  | .unknown .. => none

def code : Message → UInt64
  | .unknown code _ => code
  | m => (m.type?.map MessageType.code).getD 0

def name (m : Message) : String := (m.type?.map MessageType.name).getD "UNKNOWN"

/-- The request that a message makes or answers. -/
def requestId? : Message → Option Id
  | .error _ request _ _ _ => some request
  | .publish request _ _ _ => some request
  | .published request _ => some request
  | .subscribe request _ _ => some request
  | .subscribed request _ => some request
  | .unsubscribe request _ => some request
  | .unsubscribed request => some request
  | .call request _ _ _ => some request
  | .cancel request _ => some request
  | .result request _ _ => some request
  | .register request _ _ => some request
  | .registered request _ => some request
  | .unregister request _ => some request
  | .unregistered request => some request
  | .invocation request _ _ _ => some request
  | .interrupt request _ => some request
  | .yield request _ _ => some request
  | _ => none

def details? : Message → Option Dictionary
  | .hello _ details => some details
  | .welcome _ details => some details
  | .abort details _ _ => some details
  | .goodbye details _ => some details
  | .error _ _ details _ _ => some details
  | .event _ _ details _ => some details
  | .result _ details _ => some details
  | .invocation _ _ details _ => some details
  | _ => none

def reason? : Message → Option Uri
  | .abort _ reason _ => some reason
  | .goodbye _ reason => some reason
  | .error _ _ _ reason _ => some reason
  | _ => none

/-- The arguments that come with a refusal. -/
def refusal? : Message → Option Payload
  | .error _ _ _ _ payload => some payload
  | .abort _ _ payload => some payload
  | _ => none

def idField (i : Id) : Value := .unsigned (UInt64.ofNat i.value)

/-- The fields before the payload. -/
def head : Message → List Value
  | .hello realm details => [.string realm.text, .dictionary details]
  | .welcome session details => [idField session, .dictionary details]
  | .abort details reason _ => [.dictionary details, .string reason.text]
  | .challenge method extra => [.string method, .dictionary extra]
  | .authenticate signature extra => [.string signature, .dictionary extra]
  | .goodbye details reason => [.dictionary details, .string reason.text]
  | .error requestType request details reason _ =>
    [.unsigned requestType, idField request, .dictionary details, .string reason.text]
  | .publish request options topic _ => [idField request, .dictionary options, .string topic.text]
  | .published request publication => [idField request, idField publication]
  | .subscribe request options topic => [idField request, .dictionary options, .string topic.text]
  | .subscribed request subscription => [idField request, idField subscription]
  | .unsubscribe request subscription => [idField request, idField subscription]
  | .unsubscribed request => [idField request]
  | .event subscription publication details _ =>
    [idField subscription, idField publication, .dictionary details]
  | .call request options procedure _ =>
    [idField request, .dictionary options, .string procedure.text]
  | .cancel request options => [idField request, .dictionary options]
  | .result request details _ => [idField request, .dictionary details]
  | .register request options procedure =>
    [idField request, .dictionary options, .string procedure.text]
  | .registered request registration => [idField request, idField registration]
  | .unregister request registration => [idField request, idField registration]
  | .unregistered request => [idField request]
  | .invocation request registration details _ =>
    [idField request, idField registration, .dictionary details]
  | .interrupt request options => [idField request, .dictionary options]
  | .yield request options _ => [idField request, .dictionary options]
  | .unknown _ fields => fields

def payload? : Message → Option Payload
  | .abort _ _ payload => some payload
  | .error _ _ _ _ payload => some payload
  | .publish _ _ _ payload => some payload
  | .event _ _ _ payload => some payload
  | .call _ _ _ payload => some payload
  | .result _ _ payload => some payload
  | .invocation _ _ _ payload => some payload
  | .yield _ _ payload => some payload
  | _ => none

/-- Every field, the empty ones too. -/
def fields (m : Message) : List Value := m.head ++ (m.payload?.map Payload.fields).getD []

/-- The list form of a message. -/
def encode (m : Message) : List Value :=
  .unsigned m.code :: (m.head ++ (m.payload?.map Payload.written).getD [])

/-- Equality of messages, their values compared as `Value.same` does. -/
def same (m n : Message) : Bool :=
  m.type? == n.type? && m.code == n.code && Value.sameItems m.fields n.fields

end Message

end WampClient
