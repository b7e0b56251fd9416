/-! The phases of a session's life. A session goes through them in order, may leave some of them
out, and never leaves the last one. -/
namespace WampClient

inductive Phase where
  | connecting | handshaking | established | closing | closed
  deriving DecidableEq, Repr

namespace Phase

def name : Phase → String
  | .connecting => "connecting"
  | .handshaking => "handshaking"
  | .established => "established"
  | .closing => "closing"
  | .closed => "closed"

/-- Whether a session in the first phase may enter the second one next. -/
def mayEnter : Phase → Phase → Bool
  | .connecting, .handshaking => true
  | .connecting, .closed => true
  | .handshaking, .established => true
  | .handshaking, .closed => true
  | .established, .closing => true
  | .established, .closed => true
  | .closing, .closed => true
  | _, _ => false

end Phase

/-- How a session has come through its phases. -/
structure Lifecycle where
  phase : Phase
  /-- The phases gone through, up to and including the present one. -/
  published : List Phase
  /-- The phases that it was to enter but could not, each with the one that it was in. -/
  ignored : List (Phase × Phase)
  deriving DecidableEq, Repr

namespace Lifecycle

def begun : Lifecycle := ⟨.connecting, [.connecting], []⟩

/-- Enters a phase if it may follow the present one, and otherwise stays where it is. -/
def enter (l : Lifecycle) (next : Phase) : Lifecycle :=
  if l.phase.mayEnter next then { l with phase := next, published := l.published ++ [next] }
  else { l with ignored := l.ignored ++ [(l.phase, next)] }

/-- While the realm is being joined. -/
def joining : Lifecycle := begun.enter .handshaking

def joined : Lifecycle := joining.enter .established

def notJoined : Lifecycle := joining.enter .closed

end Lifecycle

end WampClient
