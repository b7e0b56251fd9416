import WampClient.Client.Ticket

/-! The client's side of a session. Its program begins operations and holds tickets; an operation
that cannot end at once waits until the session has put into its boxes what it needs. Commands to
the session queue up and are served one at a time.

A program may give its session a way of its own to draw the ids of requests; here they are drawn in
order by an `IdSource`, and drawing one takes no time. Nor does what is left to be done in the
background when a ticket is let go of: there is a runtime to do it, and it comes before whatever the
program does next. -/
namespace WampClient

/-- What an operation comes to. -/
inductive Outcome where
  | failed (f : Failure)
  | done
  /-- A ticket, and how its invocation was canceled if it was. -/
  | ticket (t : Ticket) (canceled : Option CancelMode)
  | result (r : CallResult)
  | event (e : EventInfo)
  /-- There is nothing more to come. -/
  | exhausted
  | published (publication : Option Id)
  | canceled (mode : Option CancelMode)
  | closed
  | joined (id : Id) (realm : Uri) (details : Dictionary)
  deriving Repr

/-- What an operation waits for. A ticket that it uses is kept here until it is done. -/
inductive Waiting where
  /-- That a call is accepted; its ticket is then kept under a name, or used up for its result. -/
  | call (request : Id) (procedure : Uri) (accepted box : Box) (keep : Option String)
  | lastOutcome (t : CallTicket)
  | nextOutcome (name : String) (t : CallTicket) (stream : Bool)
  | enrolment (kind : FeedKind) (name : String) (pattern : UriPattern) (accepted reply box : Box)
  | publication (topic : Uri) (accepted reply : Box)
  /-- That a message is out. -/
  | sent (box : Box) (operation : Operation) (target : String) (back : Option (String × Ticket))
      (outcome : Outcome)
  | departure (name : String) (t : FeedTicket) (accepted reply : Box)
  /-- That an invocation or event comes. The ticket of an invocation is kept under a name. -/
  | nextItem (name : String) (t : FeedTicket) (keep : Option String)
  | leave (box : Box)
  | ending
  | cancellation (name : String) (t : InvocationTicket)
  deriving Repr

/-- An operation that has begun, under the number it was given. -/
structure Task where
  number : Nat
  /-- It was begun on the session itself, not on a ticket. -/
  onSession : Bool
  waiting : Waiting
  deriving Repr

structure Client where
  session : Session
  commands : List Command
  ids : IdSource
  nextBox : Box
  /-- The id that the router gave to the session. -/
  id : Id
  realm : Uri
  details : Dictionary
  /-- The program still holds the session. -/
  held : Bool
  tickets : List (String × Ticket)
  tasks : List Task
  /-- The operations that have ended, in that order. -/
  finished : List (Nat × Outcome)

namespace Client

/-- The client of a session that was just joined. -/
def joined (session : Session) (ids : IdSource) (id : Id) (realm : Uri) (details : Dictionary) :
    Client := ⟨session, [], ids, 0, id, realm, details, true, [], [], []⟩

def issue (c : Client) (command : Command) : Client :=
  { c with commands := c.commands ++ [command] }

def drawId (c : Client) : Id × Client :=
  let (id, ids) := c.ids.draw
  (id, { c with ids })

def newBox (c : Client) : Box × Client := (c.nextBox, { c with nextBox := c.nextBox + 1 })

def forget (c : Client) (box : Box) : Client := { c with session := c.session.step (.forget box) }

/-- The session takes up the command that has waited longest. -/
def serve (c : Client) : Client :=
  match c.commands with
  | [] => c
  | command :: rest => { c with session := c.session.step (.command command), commands := rest }

def conclude (c : Client) (number : Nat) (outcome : Outcome) : Client :=
  { c with finished := c.finished ++ [(number, outcome)] }

def await (c : Client) (number : Nat) (onSession : Bool) (waiting : Waiting) : Client :=
  { c with tasks := c.tasks ++ [⟨number, onSession, waiting⟩] }

/-! ### Reading boxes -/

/-- Whether something may still come into the box. A closed session takes up no more commands. -/
def feeds (c : Client) (box : Box) : Bool :=
  c.session.feeds box ||
    (c.session.phase != .closed && c.commands.any fun command => command.feeds box)

/-- The post at a place in a box: `none` as long as it may still come, and `some none` once it
will not. -/
def postAt (c : Client) (box : Box) (place : Nat) : Option (Option Post) :=
  match (c.session.postsTo box)[place]? with
  | some p => some (some p)
  | none => if c.feeds box then none else some none

def wasAccepted (c : Client) (box : Box) : Option (Except Failure Handle) :=
  (c.postAt box 0).map fun
    | some (.accepted result) => result
    | _ => .error Failure.sessionClosed

def wasSent (c : Client) (box : Box) : Option (Except Failure Unit) :=
  (c.postAt box 0).map fun
    | some (.sent result) => result
    | _ => .error Failure.sessionClosed

/-- The reply to a request that was accepted. -/
def replied (c : Client) (accepted reply : Box) :
    Option (Except Failure (Message × Option Handle)) :=
  match c.wasAccepted accepted with
  | none => none
  | some (.error f) => some (.error f)
  | some (.ok _) =>
    (c.postAt reply 0).map fun
      | some (.reply result) => result
      | _ => .error Failure.sessionClosed

/-- The next thing that came back for a call. -/
def cameBack (c : Client) (t : CallTicket) : Option (Except Failure Message) :=
  (c.postAt t.box t.read).map fun
    | some (.outcome came) => came
    | _ => .error Failure.sessionClosed

/-! ### Letting go -/

/-- Asks the router to end a registration or subscription, and waits for nothing. This is done in
the background. Where no runtime is there to do that, only the route would be taken out, which is
not described here. -/
def departDetached (c : Client) (t : FeedTicket) : Client :=
  let (request, c) := c.drawId
  c.issue (.request (t.kind.departure request t.id) (t.kind.departureKeys request)
    (.reply none (some (.remove t.route))) none)

/-- Lets go of a ticket. A call is no longer listened to; an open registration or subscription is
given up; an invocation that was not answered is answered with an error. -/
def release (c : Client) (t : Ticket) : Client :=
  let releaseCall (t : CallTicket) : Client :=
    (if t.settled then c else c.issue (.removeRoute t.route)).forget t.box
  match t with
  | .call t => releaseCall t
  | .results t => releaseCall t
  | .feed t =>
    (if t.closed || c.session.phase != .established then c else c.departDetached t).forget t.box
  | .invocation t =>
    if t.handled || c.session.phase != .established then c else c.issue (.send t.abandonment none)

def ticket? (c : Client) (name : String) : Option Ticket := Assoc.get? name c.tickets

/-- Takes a ticket out of the program's hands, for an operation to use. -/
def takeOut (c : Client) (name : String) : Client :=
  { c with tickets := Assoc.erase name c.tickets }

/-- Keeps a ticket under a name; the one that was kept under it is let go of. -/
def keep (c : Client) (name : String) (t : Ticket) : Client :=
  let old := c.ticket? name
  let c := { c with tickets := Assoc.alter name (fun _ => some t) c.tickets }
  old.elim c c.release

def dropTicket (c : Client) (name : String) : Client :=
  match c.ticket? name with
  | none => c
  | some t => (c.takeOut name).release t

/-- Lets go of what an operation holds while it waits. -/
def giveUp (c : Client) : Waiting → Client
  | .call _ _ accepted box _ => (c.forget accepted).forget box
  | .lastOutcome t => c.release (.call t)
  | .nextOutcome _ t _ => c.release (.call t)
  | .enrolment _ _ _ accepted reply box => ((c.forget accepted).forget reply).forget box
  | .publication _ accepted reply => (c.forget accepted).forget reply
  | .sent box _ _ back _ => back.elim (c.forget box) fun e => (c.forget box).release e.2
  | .departure _ t accepted reply => ((c.forget accepted).forget reply).release (.feed t)
  | .nextItem _ t _ => c.release (.feed t)
  | .leave box => c.forget box
  | .ending => c
  | .cancellation _ t => c.release (.invocation t)

/-- Drops an operation that has not ended, with the ticket that it uses. -/
def abandon (c : Client) (number : Nat) : Option Client :=
  match c.tasks.find? fun t => t.number == number with
  | none => none
  | some task =>
    some ({ c with tasks := c.tasks.filter fun t => t.number != number }.giveUp task.waiting)

/-- Lets go of what an operation waits for, and gives the program back the ticket that was lent to
it. A ticket that the operation uses up is let go of. -/
def handBack (c : Client) : Waiting → Client
  | .nextOutcome name t stream => c.keep name (if stream then .results t else .call t)
  | .sent box _ _ (some (name, t)) _ => (c.forget box).keep name t
  | .departure name t accepted reply => ((c.forget accepted).forget reply).keep name (.feed t)
  | .nextItem name t _ => c.keep name (.feed t)
  | .cancellation name t => c.keep name (.invocation t)
  | w => c.giveUp w

/-- Drops an operation that has not ended, and keeps its ticket as the operation has left it. -/
def desist (c : Client) (number : Nat) : Option Client :=
  match c.tasks.find? fun t => t.number == number with
  | none => none
  | some task =>
    some ({ c with tasks := c.tasks.filter fun t => t.number != number }.handBack task.waiting)

/-- Whether an operation on the session itself is still going on. -/
def isBusy (c : Client) : Bool := c.tasks.any Task.onSession

/-- The program lets go of the session, which then leaves the realm. -/
def dropSession (c : Client) : Client := { c.issue (.close none) with held := false }

end Client

end WampClient
