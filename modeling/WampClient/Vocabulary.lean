import WampClient.Message.Basic

/-! Words with a fixed meaning on the wire: ways to cancel a call, to match a pattern and to choose
a callee, the roles of a client, the reasons of closing, and the reasons of errors that the client
itself gives. -/
namespace WampClient

/-- How a call is canceled. -/
inductive CancelMode where
  /-- The caller is answered at once and the callee goes on. -/
  | skip
  /-- The callee is interrupted, and its answer is passed on. -/
  | kill
  /-- The callee is interrupted, and its answer is thrown away. -/
  | killNoWait
  deriving DecidableEq, Repr

namespace CancelMode

def all : List CancelMode := [.skip, .kill, .killNoWait]

instance : Inhabited CancelMode := ⟨.skip⟩

def name : CancelMode → String
  | .skip => "skip"
  | .kill => "kill"
  | .killNoWait => "killnowait"

def ofName? (name : String) : Option CancelMode := all.find? fun m => m.name == name

def unknown (name : String) : String := "invalid call cancel mode: " ++ name

end CancelMode

/-- How a pattern is matched. -/
inductive MatchStyle where
  | leading
  | wildcard
  deriving DecidableEq, Repr

namespace MatchStyle

def all : List MatchStyle := [.leading, .wildcard]

def name : MatchStyle → String
  | .leading => "prefix"
  | .wildcard => "wildcard"

def ofName? (name : String) : Option MatchStyle := all.find? fun m => m.name == name

def unknown (name : String) : String := "invalid match style: " ++ name

end MatchStyle

/-- How a callee is chosen where a procedure has several. -/
inductive InvocationPolicy where
  | single | roundRobin | random | first | last
  deriving DecidableEq, Repr

namespace InvocationPolicy

def all : List InvocationPolicy := [.single, .roundRobin, .random, .first, .last]

instance : Inhabited InvocationPolicy := ⟨.single⟩

def name : InvocationPolicy → String
  | .single => "single"
  | .roundRobin => "roundrobin"
  | .random => "random"
  | .first => "first"
  | .last => "last"

def ofName? (name : String) : Option InvocationPolicy := all.find? fun p => p.name == name

def unknown (name : String) : String := "invalid invocation policy: " ++ name

end InvocationPolicy

/-- What a client can do in a realm. -/
inductive Role where
  | caller | callee | publisher | subscriber
  deriving DecidableEq, Repr

namespace Role

def all : List Role := [.caller, .callee, .publisher, .subscriber]

def name : Role → String
  | .caller => "caller"
  | .callee => "callee"
  | .publisher => "publisher"
  | .subscriber => "subscriber"

def ofName? (name : String) : Option Role := all.find? fun r => r.name == name

def unknown (name : String) : String := "invalid peer role: " ++ name

/-- The features that HELLO announces for the role. -/
def features : Role → List String
  | .caller => ["call_canceling", "progressive_call_results"]
  | .callee => ["call_canceling", "progressive_call_results"]
  | .publisher => ["publisher_exclusion", "subscriber_blackwhite_listing"]
  | .subscriber => ["pattern_based_subscription"]

def details (r : Role) : Dictionary :=
  [("features", .dictionary (Dictionary.ofList (r.features.map fun f => (f, .bool true))))]

end Role

inductive CloseReason where
  | normal | systemShutdown | closeRealm | goodbyeAndOut
  deriving DecidableEq, Repr

namespace CloseReason

def all : List CloseReason := [.normal, .systemShutdown, .closeRealm, .goodbyeAndOut]

instance : Inhabited CloseReason := ⟨.normal⟩

def word : CloseReason → String
  | .normal => "normal"
  | .systemShutdown => "system_shutdown"
  | .closeRealm => "close_realm"
  | .goodbyeAndOut => "goodbye_and_out"

def uri (r : CloseReason) : Uri := ⟨"wamp.close." ++ r.word⟩

def goodbye (r : CloseReason) : Message := .goodbye [] r.uri

end CloseReason

/-- The reasons of errors that the client itself gives. -/
inductive Complaint where
  | protocolViolation | authenticationFailed | noSuchRegistration | runtimeError | canceled
  deriving DecidableEq, Repr

namespace Complaint

def all : List Complaint :=
  [.protocolViolation, .authenticationFailed, .noSuchRegistration, .runtimeError, .canceled]

def word : Complaint → String
  | .protocolViolation => "protocol_violation"
  | .authenticationFailed => "authentication_failed"
  | .noSuchRegistration => "no_such_registration"
  | .runtimeError => "runtime_error"
  | .canceled => "canceled"

def uri (c : Complaint) : Uri := ⟨"wamp.error." ++ c.word⟩

end Complaint

namespace Message

/-- An ABORT that says why in words. -/
def abortWith (reason : Uri) (text : String) : Message :=
  .abort [("message", .string text)] reason Payload.empty

/-- The answer to an invocation that nobody will handle. -/
def rejection (request : Id) : Message :=
  .error MessageType.invocation.code request [] Complaint.noSuchRegistration.uri Payload.empty

end Message

end WampClient
