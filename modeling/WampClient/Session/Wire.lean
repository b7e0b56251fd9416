import WampClient.Duplex
import WampClient.Text.Utf8

/-! A session's end of the stream to its router. Every send may fail; once the end is closed, all
of them do. A send does not have to wait for the stream: it is out at once, or has failed. -/
namespace WampClient

/-- What a stream carries. A ping is to be sent back as it is. -/
inductive StreamItem where
  | message (m : Message)
  | ping (data : Bytes)
  deriving Repr

/-- What a session finds when it reads from the stream. -/
inductive Arrival where
  | item (i : StreamItem)
  | failed (description : String)
  | ended
  deriving Repr

structure Wire where
  /-- What goes wrong with the send of a given number, counted from zero, if anything does. -/
  fate : Nat → Option String
  tried : Nat
  sent : List StreamItem
  closed : Bool

namespace Wire

def fresh (fate : Nat → Option String) : Wire := ⟨fate, 0, [], false⟩

/-- Sends an item, or tells why it could not be sent. -/
def send (w : Wire) (i : StreamItem) : Wire × Option String :=
  let next := { w with tried := w.tried + 1 }
  if w.closed then (next, some StreamError.closed.message)
  else match w.fate w.tried with
    | some description => (next, some description)
    | none => ({ next with sent := w.sent ++ [i] }, none)

def close (w : Wire) : Wire := { w with closed := true }

/-- From now on every send meets the same fate. -/
def withTrouble (w : Wire) (trouble : Option String) : Wire := { w with fate := fun _ => trouble }

end Wire

end WampClient
