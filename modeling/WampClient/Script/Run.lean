import WampClient.Script.Step

/-! Running a script. Each step is followed by everything that can happen because of it, and time
passes only where a step says so. -/
namespace WampClient

namespace Stage

/-- The anomalies that a program sees which holds the session. -/
def anomalies : Stage → List Anomaly
  | .joined c => if c.held then c.session.anomalies else []
  | _ => []

/-- Whether nobody reads from the session's end of the stream any more. -/
def isGone : Stage → Bool
  | .joining _ => false
  | .joined c => c.session.phase == .closed
  | .unjoined _ _ => true

def isOver : Stage → Bool
  | .unjoined _ _ => true
  | _ => false

/-- The phase that a program sees which holds the session. -/
def phase? : Stage → Option Phase
  | .joined c => if c.held then some c.session.phase else none
  | _ => none

end Stage

namespace Script

structure State where
  link : Link
  routerClosed : Bool
  routerDropped : Bool
  stage : Stage
  /-- What the attempt to join has come to, until it is shown. -/
  verdict : Option Outcome

namespace State

/-- What an attempt to join has come to, if it is decided. -/
def outcome? : Handshake × Verdict → Option Outcome
  | (_, .waiting) => none
  | (h, .joined id details) => some (.joined id h.config.realm details)
  | (_, .failed f) => some (.failed f)

/-- Goes on with the handshake, or from it. -/
def proceed (s : State) (out : Handshake × Verdict) : State :=
  { s with stage := Stage.proceed out, verdict := (outcome? out).or s.verdict }

/-- Begins to join, if the configuration allows it and there is a stream. -/
def start (link : Link) (approach : Approach) (config : Config) : State :=
  let wire := Wire.fresh fun _ => none
  let s : State := ⟨link, false, false, .unjoined wire none, none⟩
  let fail (f : Failure) : State := { s with verdict := some (.failed f) }
  match config.problem?, approach with
  | some problem, _ => fail (Handshake.invalid config problem)
  | none, .connecting (some description) => fail (Handshake.unconnected config description)
  | none, .webSocketWithoutFormats =>
    fail (Handshake.unconnected config "at least one serializer is required")
  | none, _ => s.proceed (Handshake.start config wire 0)

/-- The session, or the attempt to join, takes something in. -/
def move (s : State) (m : Move) : State :=
  match s.stage with
  | .joining h => s.proceed (h.take m)
  | stage => { s with stage := stage.move m }

/-! ### The router -/

/-- What has come over the stream is taken in. -/
def arrive (s : State) (a : Arrival) : State := s.move (.arrive a)

def arrivalOfFrame (format : WireFormat) (bytes : Bytes) : Arrival :=
  match Message.ofFrame format bytes with
  | .ok m => .item (.message m)
  | .error .malformed => .failed "malformed frame"
  | .error (.invalid e) => .failed e.message

/-- What a message looks like at the other end of the link. -/
def arrivalOf (link : Link) (m : Message) : Arrival :=
  match link with
  | .direct => .item (.message m)
  | .framed format => arrivalOfFrame format (m.toFrame format)

/-- Why the router cannot send, if it cannot. -/
def disconnection? (s : State) : Option Notice :=
  match s.link with
  | .framed _ => if s.routerClosed || s.stage.isGone then some .disconnected else none
  | .direct =>
    if s.routerDropped then some .disconnected
    else if s.routerClosed then some (.stream .closed)
    else if s.stage.isGone then some (.stream .peerGone)
    else none

/-- Everything arrives before anyone who waits goes on. -/
def routerSends (s : State) (arrivals : List Arrival) : State × Option Notice :=
  match s.disconnection? with
  | some notice => (s, some notice)
  | none => (arrivals.foldl arrive s, none)

def withWire (s : State) (f : Wire → Wire) : State :=
  { s with stage := match s.stage with
    | .joining h => .joining { h with wire := f h.wire }
    | .joined c => .joined { c with session := { c.session with wire := f c.session.wire } }
    | .unjoined wire lifecycle => .unjoined (f wire) lifecycle }

def advance (s : State) (time : Nat) : State := s.move (.elapse time)

/-! ### The client -/

/-- What an action comes to where no session was joined. -/
def unjoined : Action → WampClient.Notice
  | .onSession _ => .noSession
  | .onTicket _ _ => .noTicket
  | .abandon _ => .nothingPending
  | .desist _ => .nothingPending

/-- Lets the program act. Before the session is joined it can only drop the attempt. -/
def clientActs (s : State) (number : Nat) (a : Action) : State × Option Notice :=
  match s.stage, a with
  | .joined c, a =>
    let (c, notice) := c.act number a
    ({ s with stage := .joined c }, notice.map .client)
  | .joining h, .abandon 0 =>
    ({ s with stage := (Stage.joining h).happen .abandoned }, some (.client .abandoned))
  | _, a => (s, some (.client (unjoined a)))

/-! ### Steps -/

def act (s : State) (number : Nat) : Step → State × Option Notice
  | .send messages => s.routerSends (messages.map (arrivalOf s.link))
  | .sendFrame bytes =>
    match s.link with
    | .direct => (s, some .disconnected)
    | .framed format => s.routerSends [arrivalOfFrame format bytes]
  | .sendPing data => s.routerSends [.item (.ping data)]
  | .breakDown description => s.routerSends [.failed description]
  | .closeRouter => ({ s.arrive .ended with routerClosed := true }, none)
  | .dropRouter =>
    let s := s.withWire fun w => w.withTrouble (some StreamError.peerGone.message)
    ({ s.arrive .ended with routerDropped := true }, none)
  | .failSends description => (s.withWire fun w => w.withTrouble description, none)
  | .advance time => (s.advance time, none)
  | .client a => s.clientActs number a

def settle (s : State) : State :=
  match s.stage with
  | .joined c => { s with stage := .joined c.settle }
  | _ => s

/-- Takes down the operations that have ended. -/
def collect (s : State) : State × List (Nat × Outcome) :=
  let first := (s.verdict.map fun o => (0, o)).toList
  match s.stage with
  | .joined c =>
    ({ s with verdict := none, stage := .joined { c with finished := [] } },
     (first ++ c.finished).mergeSort fun a b => a.1 ≤ b.1)
  | _ => ({ s with verdict := none }, first)

/-- What the other end of the link makes of something that was sent. -/
def seen (link : Link) (i : StreamItem) : StreamItem :=
  match i with
  | .ping _ => i
  | .message m =>
    match arrivalOf link m with
    | .item i => i
    | _ => i

/-- The router sees that the session's end is closed; in one process also that it was let go of. -/
def streamClosed (s : State) : Bool :=
  !s.routerDropped && (s.stage.wire.closed || (s.link == .direct && s.stage.isOver))

/-- How many anomalies are kept for a program that does not look at them. -/
def anomalyLimit : Nat := 64

/-- What is seen once everything has come to rest, given how much had been sent and reported
before. -/
def entry (s : State) (notice : Option Notice) (sent reported : Nat) : State × Entry :=
  let (s, done) := s.collect
  let anomalies := s.stage.anomalies.drop reported
  let lagged := anomalies.length - anomalyLimit
  (s, { notice, done, out := (s.stage.wire.sent.drop sent).map (seen s.link),
        streamClosed := s.streamClosed, lagged, anomalies := anomalies.drop lagged,
        phase := s.stage.phase? })

def step (s : State) (number : Nat) (step : Step) : State × Entry :=
  let sent := s.stage.wire.sent.length
  let reported := s.stage.anomalies.length
  let (s, notice) := s.act number step
  s.settle.entry notice sent reported

/-- The operations that have not ended. -/
def pending (s : State) : List Nat :=
  match s.stage with
  | .joining _ => [0]
  | .joined c => (c.tasks.map Task.number).mergeSort
  | .unjoined _ _ => []

end State

/-- What is seen of the steps, and the operations that are left. -/
def runFrom (s : State) (number : Nat) : List Step → List Entry × List Nat
  | [] => ([], s.pending)
  | step :: rest =>
    let (s, entry) := s.step number step
    let (entries, pending) := runFrom s (number + 1) rest
    (entry :: entries, pending)

/-- Joins, then takes the steps one by one. -/
def run (link : Link) (approach : Approach) (config : Config) (steps : List Step) :
    List Entry × List Nat :=
  let (s, entry) := (State.start link approach config).settle.entry none 0 0
  let (entries, pending) := runFrom s 1 steps
  (entry :: entries, pending)

end Script

end WampClient
