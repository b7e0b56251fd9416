import WampClient.Message.Basic
import WampClient.Operation

/-! Failures of a session's operations: what happened, the reason and the message that the peer
gave, and what was being attempted. The kind and the wording follow from what happened. -/
namespace WampClient

/-- What an ERROR in reply to a request says, as far as its reason is a known one. -/
inductive Refusal where
  | callCanceled
  | callTimedOut
  | noSuchProcedure
  | procedureExists
  | noSuchRegistration
  | noSuchSubscription
  | invalidUri
  | notAuthorized
  | authorizationFailed
  | noEligibleCallee
  | optionNotAllowed
  | optionDisallowed (reason : Uri)
  | protocolViolation
  | byCallee (reason : Uri)
  | byPeer (reason : Uri)
  deriving DecidableEq, Repr

namespace Refusal

def disallowedOption : String := "wamp.error.option_disallowed."

/-- Cancellation and timeout are told apart for calls only; a reason that is not known is the
callee's for a call and the router's for everything else. -/
def ofReason (operation : Operation) (reason : Uri) : Refusal :=
  let text := reason.text
  if operation = .call ∧ text = "wamp.error.canceled" then .callCanceled
  else if operation = .call ∧ text = "wamp.error.timeout" then .callTimedOut
  else if text = "wamp.error.no_such_procedure" then .noSuchProcedure
  else if text = "wamp.error.procedure_already_exists" then .procedureExists
  else if text = "wamp.error.no_such_registration" then .noSuchRegistration
  else if text = "wamp.error.no_such_subscription" then .noSuchSubscription
  else if text = "wamp.error.invalid_uri" then .invalidUri
  else if text = "wamp.error.not_authorized" then .notAuthorized
  else if text = "wamp.error.authorization_failed" then .authorizationFailed
  else if text = "wamp.error.no_eligible_callee" then .noEligibleCallee
  else if text = "wamp.error.option_not_allowed" then .optionNotAllowed
  else if disallowedOption.toList.isPrefixOf text.toList then .optionDisallowed reason
  else if text = "wamp.error.protocol_violation" then .protocolViolation
  else if operation = .call then .byCallee reason
  else .byPeer reason

def kind : Refusal → FailureKind
  | .callCanceled => .invocationCanceled
  | .callTimedOut => .invocationCanceled
  | .protocolViolation => .network
  | .byCallee _ => .invocation
  | _ => .illegalOperation

def describe : Refusal → String
  | .callCanceled => "the call was canceled"
  | .callTimedOut => "the call timed out"
  | .noSuchProcedure => "the procedure does not exist"
  | .procedureExists => "the procedure is already registered"
  | .noSuchRegistration => "the registration does not exist"
  | .noSuchSubscription => "the subscription does not exist"
  | .invalidUri => "the URI is invalid"
  | .notAuthorized => "the session is not authorized"
  | .authorizationFailed => "authorization failed"
  | .noEligibleCallee => "no eligible callee exists"
  | .optionNotAllowed => "an option is not allowed"
  | .optionDisallowed reason => "an option is not allowed (" ++ reason.text ++ ")"
  | .protocolViolation => "the peer reported a protocol violation"
  | .byCallee reason => "the callee replied with " ++ reason.text
  | .byPeer reason => "the peer replied with " ++ reason.text

end Refusal

/-- What happened. -/
inductive Cause where
  | stated (kind : FailureKind) (text : String)
  | sessionClosed
  | transportClosed
  | transportFailed (description : String)
  | closedByPeer (reason : Uri)
  | abortedByPeer (reason : Uri)
  | sendFailed (message description : String)
  | invalidConfig (problem : String)
  | connectFailed (description : String)
  | handshakeFailed (problem : String)
  | authenticationFailed (description : String)
  | noAuthenticator
  | noSuchRealm
  | joinViolation (explanation : Option String)
  | joinRefused (reason : Uri) (explanation : Option String)
  | unexpectedReply (operation : Operation) (target message : String)
  | refused (operation : Operation) (target : String) (refusal : Refusal)
      (explanation : Option String)
  | callSettled
  | resultSent
  | progressNotRequested
  deriving DecidableEq, Repr

namespace Cause

def kind : Cause → FailureKind
  | .stated kind _ => kind
  | .sessionClosed => .network
  | .transportClosed => .network
  | .transportFailed _ => .network
  | .closedByPeer _ => .network
  | .abortedByPeer _ => .network
  | .sendFailed _ _ => .network
  | .invalidConfig _ => .illegalOperation
  | .connectFailed _ => .network
  | .handshakeFailed _ => .network
  | .authenticationFailed _ => .illegalOperation
  | .noAuthenticator => .illegalOperation
  | .noSuchRealm => .illegalOperation
  | .joinViolation _ => .network
  | .joinRefused _ _ => .illegalOperation
  | .unexpectedReply _ _ _ => .network
  | .refused _ _ refusal _ => refusal.kind
  | .callSettled => .illegalOperation
  | .resultSent => .illegalOperation
  | .progressNotRequested => .illegalOperation

/-- A description with the peer's own explanation behind it. -/
def explained (description : String) : Option String → String
  | none => description
  | some explanation => description ++ ": " ++ explanation

def message : Cause → String
  | .stated _ text => text
  | .sessionClosed => "session is closed"
  | .transportClosed => "transport closed"
  | .transportFailed description => "transport failed: " ++ description
  | .closedByPeer reason => "session closed by peer (" ++ reason.text ++ ")"
  | .abortedByPeer reason => "session aborted by peer (" ++ reason.text ++ ")"
  | .sendFailed message description => "failed to send " ++ message ++ " message: " ++ description
  | .invalidConfig problem => "invalid session configuration: " ++ problem
  | .connectFailed description => "failed to connect: " ++ description
  | .handshakeFailed problem => "handshake failed: " ++ problem
  | .authenticationFailed description => "authentication failed: " ++ description
  | .noAuthenticator => "authentication required but no authenticator configured"
  | .noSuchRealm => "realm does not exist"
  | .joinViolation explanation => explained "protocol violation" explanation
  | .joinRefused reason explanation =>
    explained ("unrecognized abort (" ++ reason.text ++ ")") explanation
  | .unexpectedReply operation target message =>
    operation.attempt target ++ ", but the peer replied with an unexpected " ++ message ++
      " message"
  | .refused operation target refusal explanation =>
    explained (operation.attempt target ++ ", but " ++ refusal.describe) explanation
  | .callSettled => "call is already settled"
  | .resultSent => "result already sent"
  | .progressNotRequested => "caller did not request progressive results"

end Cause

/-- A failure. The context names the operation and its target, and whatever else was put in. -/
structure Failure where
  cause : Cause
  reason : Option Uri
  source : Option Message
  context : List (String × String)
  deriving Repr

namespace Failure

def of (cause : Cause) : Failure := ⟨cause, none, none, []⟩

def kind (f : Failure) : FailureKind := f.cause.kind

def message (f : Failure) : String := f.cause.message

def display (f : Failure) : String := f.kind.name ++ " error: " ++ f.message

def withReason (f : Failure) (reason : Uri) : Failure := { f with reason := some reason }

def withSource (f : Failure) (source : Message) : Failure := { f with source := some source }

def context? (f : Failure) (key : String) : Option String :=
  (f.context.find? fun e => e.1 == key).map Prod.snd

/-- Puts an entry into the context, in place of the one that stood there. -/
def withContext (f : Failure) (key value : String) : Failure :=
  { f with context := (f.context.filter fun e => e.1 != key) ++ [(key, value)] }

/-- Puts an entry into the context unless there is one. -/
def orContext (f : Failure) (key value : String) : Failure :=
  if (f.context? key).isSome then f else f.withContext key value

/-- Names what was attempted; what was named closer to the failure stands. -/
def during (f : Failure) (operation : Operation) (target : String) : Failure :=
  (f.orContext "operation" operation.name).orContext "target" target

/-- The positional arguments of the refusal that the failure comes from. -/
def arguments? (f : Failure) : Option (List Value) :=
  (f.source.bind Message.refusal?).map Payload.arguments

def keywords? (f : Failure) : Option Dictionary :=
  (f.source.bind Message.refusal?).map Payload.keywords

def sessionClosed : Failure := of .sessionClosed

end Failure

/-- What the peer says of a refusal in its own words: in the details, or else in front of the
arguments. -/
def Message.explanation? (m : Message) : Option String :=
  (m.details?.bind (Dictionary.text? "message")).or
    ((m.refusal?.bind fun p => p.arguments.head?).bind Value.string?)

namespace Failure

/-- The failure that a reply to a request amounts to when it is not the reply asked for. -/
def ofReply (operation : Operation) (target : String) (reply : Message) : Failure :=
  let failure := match reply with
    | .error _ _ _ reason _ =>
      (of (.refused operation target (Refusal.ofReason operation reason)
        reply.explanation?)).withReason reason
    | _ => of (.unexpectedReply operation target reply.name)
  (failure.withSource reply).during operation target

/-- The failure that an ABORT in answer to HELLO amounts to. -/
def ofAbort (realm : String) (reply : Message) : Failure :=
  let failure := match reply.reason? with
    | none => of (.handshakeFailed ("unexpected " ++ reply.name ++ " message"))
    | some reason =>
      let cause : Cause :=
        if reason.text = "wamp.error.no_such_realm" then .noSuchRealm
        else if reason.text = "wamp.error.protocol_violation" then .joinViolation reply.explanation?
        else .joinRefused reason reply.explanation?
      (of cause).withReason reason
  (failure.withSource reply).during .join realm

end Failure

end WampClient
