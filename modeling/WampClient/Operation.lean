/-! What a client can attempt, and the four kinds of failure that an attempt may end in. -/
namespace WampClient

inductive Operation where
  | join | call | cancel | register | unregister | subscribe | unsubscribe | publish | yield | close
  deriving DecidableEq, Repr

namespace Operation

def all : List Operation :=
  [.join, .call, .cancel, .register, .unregister, .subscribe, .unsubscribe, .publish, .yield,
   .close]

def name : Operation → String
  | .join => "join"
  | .call => "call"
  | .cancel => "cancel"
  | .register => "register"
  | .unregister => "unregister"
  | .subscribe => "subscribe"
  | .unsubscribe => "unsubscribe"
  | .publish => "publish"
  | .yield => "yield"
  | .close => "close"

/-- Tells what was tried on the target. -/
def attempt (target : String) : Operation → String
  | .join => "tried to join realm " ++ target
  | .call => "tried to call procedure " ++ target
  | .cancel => "tried to cancel call to procedure " ++ target
  | .register => "tried to register procedure " ++ target
  | .unregister => "tried to unregister procedure " ++ target
  | .subscribe => "tried to subscribe to topic " ++ target
  | .unsubscribe => "tried to unsubscribe from topic " ++ target
  | .publish => "tried to publish to topic " ++ target
  | .yield => "tried to answer invocation of procedure " ++ target
  | .close => "tried to close session " ++ target

end Operation

inductive FailureKind where
  /-- The transport failed, the session is closed, or the peer broke the protocol. -/
  | network
  /-- The router refused a request, or the client may not do what was tried. -/
  | illegalOperation
  /-- The callee answered a call with an error of its own. -/
  | invocation
  /-- The call was canceled or timed out. -/
  | invocationCanceled
  deriving DecidableEq, Repr

namespace FailureKind

def all : List FailureKind := [.network, .illegalOperation, .invocation, .invocationCanceled]

def name : FailureKind → String
  | .network => "network"
  | .illegalOperation => "illegal operation"
  | .invocation => "invocation"
  | .invocationCanceled => "invocation canceled"

end FailureKind

end WampClient
