import WampClient.Failure
import WampClient.Route.Router
import WampClient.Vocabulary

/-! What a session hands to those who wait for it. Each waiter has a box of its own, and what is
put into a box stays there in order. A call's cancellation is shown in a cell, which keeps what was
written last. -/
namespace WampClient

abbrev Box := Nat

abbrev Cell := Nat

/-- A call that the router passed on to one of the client's registrations. -/
structure Invocation where
  request : Id
  registration : Id
  details : Dictionary
  payload : Payload
  deriving Repr

structure Event where
  subscription : Id
  publication : Id
  details : Dictionary
  payload : Payload
  deriving Repr

inductive Post where
  /-- A message is out, or could not be sent. -/
  | sent (result : Except Failure Unit)
  /-- A request is out and its route installed, or it was refused. -/
  | accepted (result : Except Failure Handle)
  /-- The reply to a request, with the route that was installed because of it. -/
  | reply (result : Except Failure (Message × Option Handle))
  /-- What came back for a call. -/
  | outcome (result : Except Failure Message)
  | invocation (i : Invocation) (cell : Cell)
  | event (e : Event)
  /-- The session has left the realm. -/
  | left
  deriving Repr

/-- A message that nothing was waiting for. -/
structure Anomaly where
  description : String
  message : Message
  deriving Repr

end WampClient
