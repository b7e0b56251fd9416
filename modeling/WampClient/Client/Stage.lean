import WampClient.Client.Run
import WampClient.Session.Handshake

/-! A session's whole life: it sets out to join its realm, and if that goes well there is a client
from then on, until the session has ended. What happens after the attempt is decided is for the
client; while the attempt goes on there is nobody yet who could act. -/
namespace WampClient

namespace Handshake

def take (h : Handshake) : Move → Handshake × Verdict
  | .arrive a => h.arrive a
  | .elapse time => h.elapse time
  | _ => (h, .waiting)

/-- Goes on until the attempt is decided. What is left of the moves then is not looked at. -/
def attend (h : Handshake) : List Move → (Handshake × Verdict) × List Move
  | [] => ((h, .waiting), [])
  | m :: rest =>
    match h.take m with
    | (h, .waiting) => h.attend rest
    | decided => (decided, rest)

/-- Sets out to join a realm, and goes on until that is decided. -/
def join (config : Config) (wire : Wire) (now : Nat) (moves : List Move) :
    (Handshake × Verdict) × List Move :=
  match start config wire now with
  | (h, .waiting) => h.attend moves
  | decided => (decided, moves)

end Handshake

inductive Stage where
  | joining (h : Handshake)
  | joined (c : Client)
  /-- The realm was not joined, and will not be. There may not even have been an attempt. -/
  | unjoined (wire : Wire) (lifecycle : Option Lifecycle)

/-- What happens in the course of a session's life. -/
inductive Happening where
  | moves (m : Move)
  /-- Nobody is left who could give commands. -/
  | orphaned
  /-- The program drops the attempt to join. -/
  | abandoned
  deriving Repr

namespace Stage

def wire : Stage → Wire
  | .joining h => h.wire
  | .joined c => c.session.wire
  | .unjoined wire _ => wire

def lifecycle? : Stage → Option Lifecycle
  | .joining _ => some .joining
  | .joined c => some c.session.toLifecycle
  | .unjoined _ lifecycle => lifecycle

/-- Goes on with the handshake, or from it. -/
def proceed : Handshake × Verdict → Stage
  | (h, .waiting) => .joining h
  | (h, .joined id details) =>
    let session := Session.established h.wire h.now h.config.closeTimeout
    .joined (Client.joined session (IdSource.startingAt h.config.firstId) id h.config.realm details)
  | (h, .failed f) => .unjoined h.wire (some (Verdict.failed f).lifecycle)

/-- Sets out to join a realm, if the configuration allows it. -/
def begin (config : Config) (wire : Wire) (now : Nat) : Stage :=
  match config.problem? with
  | some _ => .unjoined wire none
  | none => proceed (Handshake.start config wire now)

def move : Stage → Move → Stage
  | .joining h, m => proceed (h.take m)
  | .joined c, m => .joined (c.move m)
  | .unjoined wire lifecycle, _ => .unjoined wire lifecycle

def happen : Stage → Happening → Stage
  | s, .moves m => s.move m
  | .joined c, .orphaned => .joined (c.take .orphaned)
  | .joining h, .abandoned => .unjoined h.wire (some .joining)
  | s, _ => s

def run (s : Stage) (happenings : List Happening) : Stage := happenings.foldl happen s

end Stage

end WampClient
