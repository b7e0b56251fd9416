import WampClient.Client.Stage
import WampClient.Frame

/-! Scripts for a session: what its router does, what its client does, and what is seen of it. -/
namespace WampClient.Script

/-- How the session and its router are connected: in one process, or by frames of bytes. -/
inductive Link where
  | direct
  | framed (format : WireFormat)
  deriving DecidableEq, Repr

/-- How the session gets its stream. -/
inductive Approach where
  | given
  | connecting (failure : Option String)
  /-- By a web socket for which no wire format was chosen. -/
  | webSocketWithoutFormats
  deriving DecidableEq, Repr

inductive Step where
  | send (messages : List Message)
  | sendFrame (bytes : Bytes)
  | sendPing (data : Bytes)
  | breakDown (description : String)
  | closeRouter
  | dropRouter
  /-- From now on the session's sends fail, or no longer do. -/
  | failSends (description : Option String)
  /-- Time goes by, in milliseconds. -/
  | advance (time : Nat)
  | client (a : Action)
  deriving Repr

/-- What a step shows at once. -/
inductive Notice where
  | client (n : WampClient.Notice)
  /-- The router has nobody to send to, or can no longer send. -/
  | disconnected
  | stream (e : StreamError)
  deriving Repr

/-- What is seen of a step. -/
structure Entry where
  notice : Option Notice
  /-- The operations that ended, in the order of their numbers. -/
  done : List (Nat × Outcome)
  out : List StreamItem
  streamClosed : Bool
  /-- How many anomalies were lost because there were too many at once. -/
  lagged : Nat
  anomalies : List Anomaly
  phase : Option Phase
  deriving Repr

end WampClient.Script
