import WampClient.Client.Options
import WampClient.Session.Basic

/-! Tickets: what a client holds of the calls, registrations, subscriptions and invocations that it
has to do with. -/
namespace WampClient

/-- A call that was made. What comes back for it lies in its box; `read` counts what was taken. -/
structure CallTicket where
  id : Id
  procedure : Uri
  route : Handle
  box : Box
  read : Nat
  /-- The last result was taken. -/
  settled : Bool
  cancelSent : Bool
  deriving Repr

structure CallResult where
  payload : Payload
  details : Dictionary
  /-- More results follow. -/
  progress : Bool
  deriving Repr

namespace CallTicket

def opened (id : Id) (procedure : Uri) (route : Handle) (box : Box) : CallTicket :=
  ⟨id, procedure, route, box, 0, false, false⟩

def failed (t : CallTicket) (f : Failure) : Failure := f.during .call t.procedure.text

/-- What the caller makes of something that came back. -/
def judge (t : CallTicket) : Except Failure Message → Except Failure CallResult
  | .ok (.result _ details payload) => .ok ⟨payload, details, details.flag "progress"⟩
  | .ok m => .error (Failure.ofReply .call t.procedure.text m)
  | .error f => .error (t.failed f)

/-- Whether this was the last of the call. -/
def isLast : Except Failure CallResult → Bool
  | .ok r => !r.progress
  | .error _ => true

/-- Takes one more result. -/
def take (t : CallTicket) (came : Except Failure Message) :
    CallTicket × Except Failure CallResult :=
  let result := t.judge came
  ({ t with read := t.read + 1, settled := isLast result }, result)

/-- The first result among these posts that is the last of the call. -/
def lastAmong (t : CallTicket) : List Post → Option (Except Failure CallResult)
  | [] => none
  | .outcome came :: rest =>
    let result := t.judge came
    if isLast result then some result else lastAmong t rest
  | _ :: rest => lastAmong t rest

end CallTicket

/-- Registrations and subscriptions are made, used and given up in the same way. -/
inductive FeedKind where
  | registration
  | subscription
  deriving DecidableEq, Repr

namespace FeedKind

def entering : FeedKind → Operation
  | .registration => .register
  | .subscription => .subscribe

def leaving : FeedKind → Operation
  | .registration => .unregister
  | .subscription => .unsubscribe

def feed (box : Box) : FeedKind → Feed
  | .registration => .invocations box
  | .subscription => .events box

def enrolment (request : Id) (options : Dictionary) (pattern : UriPattern) : FeedKind → Message
  | .registration => .register request options pattern
  | .subscription => .subscribe request options pattern

def enrolmentKeys (request : Id) : FeedKind → List RouteKey
  | .registration => [RouteKey.ofReply .registered request, RouteKey.ofRefusal .register request]
  | .subscription => [RouteKey.ofReply .subscribed request, RouteKey.ofRefusal .subscribe request]

/-- The id under which the router has made the entry. -/
def enrolled? (m : Message) : FeedKind → Option Id
  | .registration => match m with
    | .registered _ id => some id
    | _ => none
  | .subscription => match m with
    | .subscribed _ id => some id
    | _ => none

def departure (request id : Id) : FeedKind → Message
  | .registration => .unregister request id
  | .subscription => .unsubscribe request id

def departureKeys (request : Id) : FeedKind → List RouteKey
  | .registration =>
    [RouteKey.ofReply .unregistered request, RouteKey.ofRefusal .unregister request]
  | .subscription =>
    [RouteKey.ofReply .unsubscribed request, RouteKey.ofRefusal .unsubscribe request]

def goneReason : FeedKind → String
  | .registration => Message.noSuchRegistration
  | .subscription => Message.noSuchSubscription

/-- Whether a reply means that the router's entry is gone, now or already before. -/
def departed (m : Message) : FeedKind → Bool
  | .registration => match m with
    | .unregistered _ => true
    | .error _ _ _ reason _ => reason.text == goneReason .registration
    | _ => false
  | .subscription => match m with
    | .unsubscribed _ => true
    | .error _ _ _ reason _ => reason.text == goneReason .subscription
    | _ => false

end FeedKind

/-- A registration or subscription. -/
structure FeedTicket where
  kind : FeedKind
  id : Id
  pattern : UriPattern
  route : Handle
  box : Box
  read : Nat
  closed : Bool
  deriving Repr

/-- An event as a subscriber sees it. -/
structure EventInfo where
  publication : Id
  payload : Payload
  details : Dictionary
  topic : Option Uri
  deriving Repr

namespace FeedTicket

def opened (kind : FeedKind) (id : Id) (pattern : UriPattern) (route : Handle) (box : Box) :
    FeedTicket := ⟨kind, id, pattern, route, box, 0, false⟩

/-- The URI that the details name under a key, or else the one asked for, where it is one. -/
def concrete (pattern : UriPattern) (key : String) (details : Dictionary) : Option Uri :=
  match details.text? key with
  | some text => (Uri.ofString text).toOption
  | none => pattern.toUri.toOption

def event (t : FeedTicket) (e : Event) : EventInfo :=
  ⟨e.publication, e.payload, e.details, concrete t.pattern "topic" e.details⟩

end FeedTicket

/-- A call that the client is to answer. -/
structure InvocationTicket where
  invocation : Invocation
  registered : UriPattern
  cell : Cell
  /-- The final answer was given. -/
  handled : Bool
  deriving Repr

namespace InvocationTicket

def id (t : InvocationTicket) : Id := t.invocation.request

/-- The procedure that was called; for a pattern the router names it. -/
def procedure? (t : InvocationTicket) : Option Uri :=
  FeedTicket.concrete t.registered "procedure" t.invocation.details

def caller? (t : InvocationTicket) : Option Id :=
  ((t.invocation.details.get? "caller").bind Value.integer?).bind fun n =>
    (Id.ofNat n.toNat).toOption

def receivesProgress (t : InvocationTicket) : Bool := t.invocation.details.flag "receive_progress"

/-- What a failure to answer is said to be about. -/
def target (t : InvocationTicket) : String := (t.procedure?.map Uri.text).getD t.registered.text

def failed (t : InvocationTicket) (f : Failure) : Failure := f.during .yield t.target

def result (t : InvocationTicket) (payload : Payload) : Message := .yield t.id [] payload

def progress (t : InvocationTicket) (payload : Payload) : Message :=
  .yield t.id [("progress", .bool true)] payload

def error (t : InvocationTicket) (e : CalleeError) : Message :=
  .error MessageType.invocation.code t.id e.details e.reason e.payload

/-- The answer to an invocation that the client has let go of. -/
def abandonment (t : InvocationTicket) : Message :=
  t.error ((CalleeError.ofReason Complaint.runtimeError.uri).withMessage
    "invocation dropped without a result")

end InvocationTicket

inductive Ticket where
  | call (t : CallTicket)
  /-- A call whose results are read as a stream, which is gone after its end. -/
  | results (t : CallTicket)
  | feed (t : FeedTicket)
  | invocation (t : InvocationTicket)
  deriving Repr

end WampClient
