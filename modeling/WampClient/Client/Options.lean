import WampClient.Vocabulary

/-! What may be said about a call, a registration, a subscription or a publication when asking for
it. What is not said is left out of the message. -/
namespace WampClient

namespace Options

/-- The entries that are there, as a dictionary. -/
def gather (entries : List (Option (String × Value))) : Dictionary :=
  Dictionary.ofList (entries.filterMap id)

/-- An entry that is made only if it is wanted. -/
def whenTrue (key : String) (wanted : Bool) : Option (String × Value) :=
  if wanted then some (key, .bool true) else none

/-- A list of ids, unless there are none. -/
def idList (key : String) (ids : List Id) : Option (String × Value) :=
  if ids.isEmpty then none else some (key, .list (ids.map Message.idField))

end Options

structure CallOptions where
  progress : Bool
  /-- In microseconds. -/
  timeout : Option Nat
  deriving Repr

namespace CallOptions

/-- A timeout in whole milliseconds, as far as they can be written. -/
def milliseconds (microseconds : Nat) : UInt64 :=
  UInt64.ofNat (min (microseconds / 1000) 0xFFFFFFFFFFFFFFFF)

def details (o : CallOptions) : Dictionary :=
  Options.gather [Options.whenTrue "receive_progress" o.progress,
    o.timeout.map fun t => ("timeout", .unsigned (milliseconds t))]

end CallOptions

structure EnrolOptions where
  matchStyle : Option MatchStyle
  policy : Option InvocationPolicy
  discloseCaller : Bool
  deriving Repr

namespace EnrolOptions

def none : EnrolOptions := ⟨.none, .none, false⟩

def details (o : EnrolOptions) : Dictionary :=
  Options.gather [o.matchStyle.map fun s => ("match", .string s.name),
    o.policy.map fun p => ("invoke", .string p.name),
    Options.whenTrue "disclose_caller" o.discloseCaller]

end EnrolOptions

structure PublishOptions where
  acknowledge : Bool
  excludeMe : Option Bool
  exclude : List Id
  eligible : List Id
  deriving Repr

def PublishOptions.details (o : PublishOptions) : Dictionary :=
  Options.gather [Options.whenTrue "acknowledge" o.acknowledge,
    o.excludeMe.map fun b => ("exclude_me", .bool b),
    Options.idList "exclude" o.exclude, Options.idList "eligible" o.eligible]

/-- The error with which a callee answers a call. -/
structure CalleeError where
  reason : Uri
  details : Dictionary
  payload : Payload
  deriving Repr

namespace CalleeError

def ofReason (reason : Uri) : CalleeError := ⟨reason, [], Payload.empty⟩

/-- The answer to a call whose cancellation is honoured. -/
def canceled : CalleeError := ofReason Complaint.canceled.uri

/-- Adds an explanation in words, in place of an earlier one. -/
def withMessage (e : CalleeError) (text : String) : CalleeError :=
  { e with details := e.details.insert "message" (.string text) }

/-- An error with all that it may say; without a reason it honours a cancellation. -/
def compose (reason : Option String) (details : Dictionary) (payload : Payload)
    (messages : List String) : Except InvalidUri CalleeError := do
  let reason ← match reason with
    | none => .ok canceled.reason
    | some text => Uri.ofString text
  return messages.foldl withMessage ⟨reason, details, payload⟩

end CalleeError

end WampClient
