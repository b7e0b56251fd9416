import WampClient.Session.Config
import WampClient.Session.Phase
import WampClient.Session.Wire
import WampClient.Failure

/-! Joining a realm. The client says HELLO and answers pings and challenges until the router says
WELCOME. Whatever else happens ends the attempt; where the client is the one who ends it, it says
ABORT first. The time that the whole may take is fixed at the start; the clock goes as far as that
deadline, however long the timeout. -/
namespace WampClient

structure Handshake where
  config : Config
  wire : Wire
  now : Nat
  deadline : Nat

inductive Verdict where
  | waiting
  | joined (session : Id) (details : Dictionary)
  | failed (f : Failure)
  deriving Repr

/-- How far a session has come when its handshake stands like this. -/
def Verdict.lifecycle : Verdict → Lifecycle
  | .waiting => .joining
  | .joined _ _ => .joined
  | .failed _ => .notJoined

namespace Handshake

def realm (h : Handshake) : String := h.config.realm.text

/-- The failure that a configuration leads to before anything is sent. -/
def invalid (config : Config) (problem : ConfigProblem) : Failure :=
  (Failure.of (.invalidConfig problem.message)).during .join config.realm.text

/-- The failure to get a stream to the router. -/
def unconnected (config : Config) (description : String) : Failure :=
  (Failure.of (.connectFailed description)).during .join config.realm.text

/-- Gives up: the stream is closed. -/
def fail (h : Handshake) (f : Failure) : Handshake × Verdict :=
  ({ h with wire := h.wire.close }, .failed (f.during .join h.realm))

def failWith (h : Handshake) (problem : String) : Handshake × Verdict :=
  h.fail (Failure.of (.handshakeFailed problem))

/-- Sends an item and does not care whether it gets out. -/
def transmitAnyway (h : Handshake) (i : StreamItem) : Handshake :=
  { h with wire := (h.wire.send i).1 }

/-- Tells the router why the client gives up. -/
def sayAbort (h : Handshake) (complaint : Complaint) (text : String) : Handshake :=
  h.transmitAnyway (.message (Message.abortWith complaint.uri text))

/-- Sends a message without which there is no going on. -/
def sendOrFail (h : Handshake) (m : Message) : Handshake × Verdict :=
  let (wire, trouble) := h.wire.send (.message m)
  let h := { h with wire }
  match trouble with
  | none => (h, .waiting)
  | some description => h.failWith ("failed to send " ++ m.name ++ ": " ++ description)

def start (config : Config) (wire : Wire) (now : Nat) : Handshake × Verdict :=
  sendOrFail ⟨config, wire, now, now + config.handshakeTimeout⟩
    (.hello config.realm config.introduction)

/-- Refuses what the router sent about the client's identity. -/
def refuse (h : Handshake) (cause : Cause) (m : Message) : Handshake × Verdict :=
  (h.sayAbort .authenticationFailed cause.message).fail ((Failure.of cause).withSource m)

def receiveWelcome (h : Handshake) (session : Id) (details : Dictionary) : Handshake × Verdict :=
  match h.config.authenticator with
  | none => (h, .joined session details)
  | some a =>
    match a.verifyWelcome session details with
    | .ok () => (h, .joined session details)
    | .error description => h.refuse (.authenticationFailed description) (.welcome session details)

def receiveChallenge (h : Handshake) (method : String) (extra : Dictionary) : Handshake × Verdict :=
  match h.config.authenticator with
  | none => h.refuse .noAuthenticator (.challenge method extra)
  | some a =>
    match a.answer method extra with
    | .ok (signature, answer) =>
      let config := { h.config with authenticator := some (a.afterwards method extra) }
      { h with config, now := h.now + a.delay method extra }.sendOrFail
        (.authenticate signature answer)
    | .error description => h.refuse (.authenticationFailed description) (.challenge method extra)

def unexpected (m : Message) : String := "unexpected " ++ m.name ++ " message"

def receive (h : Handshake) (m : Message) : Handshake × Verdict :=
  match m with
  | .welcome session details => h.receiveWelcome session details
  | .abort .. => h.fail (Failure.ofAbort h.realm m)
  | .challenge method extra => h.receiveChallenge method extra
  | m =>
    (h.sayAbort .protocolViolation (unexpected m)).fail
      ((Failure.of (.handshakeFailed (unexpected m))).withSource m)

def arrive (h : Handshake) : Arrival → Handshake × Verdict
  | .item (.message m) => h.receive m
  | .item (.ping data) => (h.transmitAnyway (.ping data), .waiting)
  | .failed description => h.failWith description
  | .ended => h.failWith "transport closed"

def expire (h : Handshake) : Handshake × Verdict :=
  (h.sayAbort .protocolViolation "handshake timed out").failWith "timed out"

/-- Time goes by with nothing to read; nothing is waited for any more once the deadline is
reached. -/
def elapse (h : Handshake) (time : Nat) : Handshake × Verdict :=
  let h := { h with now := h.now + time }
  if h.deadline ≤ h.now then h.expire else (h, .waiting)

end Handshake

end WampClient
