import WampClient.Message.Basic

/-! Two streams in one process, each the other's peer. What one side sends waits at the other until
it is received, also after the sending side has closed; either side can stop sending without
keeping the other from it. -/
namespace WampClient

/-- One side of a pair. -/
structure StreamEnd where
  inbox : List Message
  /-- Neither closed nor dropped. -/
  sending : Bool
  dropped : Bool
  deriving Repr

namespace StreamEnd

def fresh : StreamEnd := ⟨[], true, false⟩

end StreamEnd

structure Duplex where
  left : StreamEnd
  right : StreamEnd
  deriving Repr

inductive Side where
  | left
  | right
  deriving DecidableEq, Repr

def Side.other : Side → Side
  | .left => .right
  | .right => .left

/-- Why a message could not be sent. -/
inductive StreamError where
  | peerGone
  | closed
  deriving DecidableEq, Repr

def StreamError.message : StreamError → String
  | .peerGone => "direct stream peer is gone"
  | .closed => "direct stream is closed"

/-- What a receiver finds. -/
inductive Received where
  | message (m : Message)
  | pending
  | ended

namespace Duplex

def fresh : Duplex := ⟨.fresh, .fresh⟩

def get (d : Duplex) : Side → StreamEnd
  | .left => d.left
  | .right => d.right

def set (d : Duplex) (side : Side) (e : StreamEnd) : Duplex :=
  match side with
  | .left => { d with left := e }
  | .right => { d with right := e }

def send (d : Duplex) (side : Side) (m : Message) : Duplex × Except StreamError Unit :=
  if !(d.get side).sending then (d, .error .closed)
  else
    let peer := d.get side.other
    if peer.dropped then (d, .error .peerGone)
    else (d.set side.other { peer with inbox := peer.inbox ++ [m] }, .ok ())

/-- There is no connection whose health a ping could check; it is taken and forgotten. -/
def ping (d : Duplex) (_ : Side) : Duplex := d

def receive (d : Duplex) (side : Side) : Duplex × Received :=
  let own := d.get side
  match own.inbox with
  | m :: rest => (d.set side { own with inbox := rest }, .message m)
  | [] => (d, if (d.get side.other).sending then .pending else .ended)

def close (d : Duplex) (side : Side) : Duplex := d.set side { d.get side with sending := false }

def drop (d : Duplex) (side : Side) : Duplex := d.set side ⟨[], false, true⟩

end Duplex

end WampClient
