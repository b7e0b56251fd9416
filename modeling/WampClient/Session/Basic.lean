import WampClient.Session.Phase
import WampClient.Session.Target
import WampClient.Session.Wire

/-! The session after the handshake. It owns the stream and the routes, and takes in one event at a
time: something that came in, a command from the client, the passing of time. A message is dealt
with in full, down to the routes that it changes, before the next event.

An event is dealt with in one step. Whatever is told in the course of it is seen when it is over,
together with the phase that the session is in by then; nobody sees what is between. -/
namespace WampClient

/-- What the client asks of the session. The box, where there is one, takes the answer. -/
inductive Command where
  | send (message : Message) (answer : Option Box)
  /-- Installs a route, then sends the request whose replies it takes. -/
  | request (message : Message) (keys : List RouteKey) (target : Target) (answer : Option Box)
  | removeRoute (route : Handle)
  | close (answer : Option Box)
  deriving Repr

/-- Whether something may still be put into the box by way of this command. -/
def Command.feeds (box : Box) : Command → Bool
  | .send _ answer => answer == some box
  | .request _ _ target answer => answer == some box || target.feeds box
  | .removeRoute _ => false
  | .close answer => answer == some box

/-- What a session takes in. -/
inductive Input where
  | arrival (a : Arrival)
  | command (c : Command)
  /-- Time goes by, in milliseconds. -/
  | elapse (time : Nat)
  /-- Nobody is left who could give commands. -/
  | orphaned
  /-- Nobody looks into the box any more. -/
  | forget (box : Box)
  deriving Repr

structure Session extends Lifecycle where
  wire : Wire
  router : Router Target
  /-- For each invocation that may be interrupted, the route of its interrupts. -/
  interrupts : List (Id × Handle)
  now : Nat
  closeTimeout : Nat
  deadline : Option Nat
  closeWaiters : List Box
  gone : List Box
  nextCell : Cell
  posts : List (Box × Post)
  signals : List (Cell × CancelMode)
  anomalies : List Anomaly

namespace Session

/-- The session that follows a handshake over the wire. -/
def established (wire : Wire) (now closeTimeout : Nat) : Session where
  toLifecycle := Lifecycle.joined
  wire := wire
  router := Router.empty
  interrupts := []
  now := now
  closeTimeout := closeTimeout
  deadline := none
  closeWaiters := []
  gone := []
  nextCell := 0
  posts := []
  signals := []
  anomalies := []

def enter (s : Session) (next : Phase) : Session :=
  { s with toLifecycle := s.toLifecycle.enter next }

/-- Puts something into a box; nothing reaches a box that is gone. -/
def post (s : Session) (box : Box) (p : Post) : Session :=
  if s.gone.contains box then s else { s with posts := s.posts ++ [(box, p)] }

def answer (s : Session) (box : Option Box) (p : Post) : Session :=
  match box with
  | none => s
  | some box => s.post box p

def report (s : Session) (description : String) (m : Message) : Session :=
  { s with anomalies := s.anomalies ++ [⟨description, m⟩] }

def transmit (s : Session) (i : StreamItem) : Session × Option String :=
  let (wire, trouble) := s.wire.send i
  ({ s with wire }, trouble)

/-- Sends an item and does not care whether it gets out. -/
def transmitAnyway (s : Session) (i : StreamItem) : Session := (s.transmit i).1

def eraseRoute (s : Session) (route : Handle) : Session := { s with router := s.router.erase route }

/-- Tells everyone who waits for a reply or a result that the session has ended. -/
def bidFarewell (s : Session) (f : Failure) : Session :=
  (s.router.routes.filterMap fun r => r.handler.farewell f).foldl (fun s e => s.post e.1 e.2) s

/-- Ends the session: nothing waits for anything any more, and the stream is closed. Those who wait
are told first, but they do not see it before the session is closed. -/
def terminate (s : Session) (f : Failure) : Session :=
  if s.phase = .closed then s
  else
    let s := s.bidFarewell f
    let s := { s with router := s.router.clear, interrupts := [], deadline := none }.enter .closed
    let s := s.closeWaiters.foldl (fun s box => s.post box .left) s
    { s with closeWaiters := [], wire := s.wire.close }

/-- An invocation that is settled can no longer be interrupted. -/
def retire (s : Session) (request : Id) : Session :=
  match Assoc.get? request s.interrupts with
  | none => s
  | some route => { s with interrupts := Assoc.erase request s.interrupts }.eraseRoute route

/-- Sends a message. The session ends with a message that does not get out. -/
def sendOrTerminate (s : Session) (m : Message) : Session × Except Failure Unit :=
  let s := m.settles?.elim s s.retire
  match s.transmit (.message m) with
  | (s, none) => (s, .ok ())
  | (s, some description) =>
    let f := Failure.of (.sendFailed m.name description)
    (s.terminate f, .error f)

/-- Sends a message on the session's own account. -/
def sendOwn (s : Session) (m : Message) : Session := (s.sendOrTerminate m).1

/-- Lets a reply have its effect on the routes, and tells which route it installed. -/
def changeRoutes (s : Session) (reply : Message) : Option RouteChange → Session × Option Handle
  | some (.install feed) =>
    match reply.enrolledKey? with
    | none => (s, none)
    | some key =>
      let (router, route) := s.router.add [key] (.feed feed)
      ({ s with router }, some route)
  | some (.remove route) => (if reply.confirmsGone then s.eraseRoute route else s, none)
  | none => (s, none)

/-- Hands a reply over. If nobody takes it, nothing will use the route that came with it. -/
def handOver (s : Session) (box : Option Box) (reply : Message) (change : Option RouteChange) :
    Session :=
  let (s, route) := s.changeRoutes reply change
  match box with
  | none => s
  | some box =>
    if s.gone.contains box then route.elim s s.eraseRoute
    else s.post box (.reply (.ok (reply, route)))

/-- Installs the route of an invocation's interrupts, in place of an earlier one. -/
def watch (s : Session) (request : Id) (cell : Cell) : Session :=
  let previous := Assoc.get? request s.interrupts
  let (router, route) := s.router.add [RouteKey.ofReply .interrupt request] (.interrupt cell)
  let s := { s with router, interrupts := Assoc.alter request (fun _ => some route) s.interrupts }
  previous.elim s s.eraseRoute

def runErrand (s : Session) : Errand → Session
  | .handOver box reply change => s.handOver box reply change
  | .watch request cell => s.watch request cell
  | .turnAway request => s.sendOwn (Message.rejection request)

def unmatched : String := "no pending operation matched the message"

def late : String := "session message received after the handshake"

/-- The remote caller of an invocation that no registration takes would otherwise wait for ever. -/
def noteUnmatched (s : Session) (m : Message) : Session :=
  let s := match m with
    | .invocation request _ _ _ => s.sendOwn (Message.rejection request)
    | _ => s
  s.report unmatched m

/-- Hands a message to the targets of its routes, then sees to what they put off. -/
def distribute (s : Session) (m : Message) : Session :=
  let (router, matched, tray) :=
    s.router.dispatch (RouteKey.ofMessage m) (Target.deliver s.gone m) ⟨[], [], s.nextCell, []⟩
  let s := { s with router, nextCell := tray.nextCell, posts := s.posts ++ tray.posts,
                    signals := s.signals ++ tray.signals }
  let s := tray.errands.foldl runErrand s
  if matched then s else s.noteUnmatched m

/-- The peer leaves the realm: GOODBYE is answered, and the session ends. -/
def partFrom (s : Session) (reason : Uri) (m : Message) : Session :=
  let f := ((Failure.of (.closedByPeer reason)).withReason reason).withSource m
  ((s.enter .closing).transmitAnyway (.message CloseReason.goodbyeAndOut.goodbye)).terminate f

def receive (s : Session) (m : Message) : Session :=
  match m with
  | .goodbye _ reason =>
    if s.phase = .established then s.partFrom reason m
    else if s.phase = .closing then s.terminate Failure.sessionClosed
    else s.distribute m
  | .abort _ reason _ =>
    s.terminate (((Failure.of (.abortedByPeer reason)).withReason reason).withSource m)
  | .hello .. => s.report late m
  | .welcome .. => s.report late m
  | .challenge .. => s.report late m
  | .authenticate .. => s.report late m
  | m => s.distribute m

def arrive (s : Session) : Arrival → Session
  | .item (.message m) => s.receive m
  | .item (.ping data) => s.transmitAnyway (.ping data)
  | .failed description =>
    let abort := Message.abortWith Complaint.protocolViolation.uri description
    (s.transmitAnyway (.message abort)).terminate (Failure.of (.transportFailed description))
  | .ended => s.terminate (Failure.of .transportClosed)

/-- Leaves the realm: says GOODBYE and waits for the peer's, but not for ever. The clock goes as far
as the deadline, however long the timeout. -/
def startLeaving (s : Session) (box : Option Box) : Session :=
  match s.phase with
  | .established =>
    let s := { s with closeWaiters := s.closeWaiters ++ box.toList }.enter .closing
    { s with deadline := some (s.now + s.closeTimeout) }.sendOwn CloseReason.closeRealm.goodbye
  | .closing => { s with closeWaiters := s.closeWaiters ++ box.toList }
  | _ => s.answer box .left

def obey (s : Session) : Command → Session
  | .send m box =>
    if s.phase = .established ∨ s.phase = .closing then
      let (s, result) := s.sendOrTerminate m
      s.answer box (.sent result)
    else s.answer box (.sent (.error Failure.sessionClosed))
  | .request m keys target box =>
    if s.phase = .established then
      let (router, route) := s.router.add keys target
      match { s with router }.sendOrTerminate m with
      | (s, .ok ()) => s.answer box (.accepted (.ok route))
      | (s, .error f) => (s.eraseRoute route).answer box (.accepted (.error f))
    else s.answer box (.accepted (.error Failure.sessionClosed))
  | .removeRoute route => s.eraseRoute route
  | .close box => s.startLeaving box

/-- Time goes by; the peer's GOODBYE is no longer waited for once the deadline is reached. -/
def elapse (s : Session) (time : Nat) : Session :=
  let s := { s with now := s.now + time }
  match s.deadline with
  | none => s
  | some deadline => if deadline ≤ s.now then s.terminate Failure.sessionClosed else s

/-- Takes in one event. A session that is closed no longer listens. -/
def step (s : Session) : Input → Session
  | .forget box => { s with gone := box :: s.gone }
  | input =>
    if s.phase = .closed then s
    else match input with
      | .arrival a => s.arrive a
      | .command command => s.obey command
      | .elapse time => s.elapse time
      | .orphaned => s.startLeaving none
      | .forget _ => s

def run (s : Session) (inputs : List Input) : Session := inputs.foldl step s

/-- What was put into a box, in order. -/
def postsTo (s : Session) (box : Box) : List Post :=
  s.posts.filterMap fun e => if e.1 = box then some e.2 else none

/-- What was last written into a cell. -/
def signal? (s : Session) (cell : Cell) : Option CancelMode :=
  (s.signals.filterMap fun e => if e.1 = cell then some e.2 else none).getLast?

/-- Whether the session may still put something into the box. A closed session does not, whatever
routes the message that it ended with may have left behind. -/
def feeds (s : Session) (box : Box) : Bool :=
  s.phase != .closed &&
    (s.router.routes.any (fun r => r.handler.feeds box) || s.closeWaiters.contains box)

/-- Whether an interrupt may still be written into the cell. -/
def listens (s : Session) (cell : Cell) : Bool :=
  s.phase != .closed && s.router.routes.any fun r => r.handler == .interrupt cell

end Session

end WampClient
