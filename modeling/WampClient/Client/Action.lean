import WampClient.Client.Begin

/-! What a program can do with a session that it has joined and with the tickets that it holds. An
action either begins an operation, which has the number it was given, or has its effect at once. -/
namespace WampClient

inductive SessionAction where
  /-- Without a name for its ticket the call is waited for. -/
  | call (uri : String) (payload : Payload) (options : CallOptions) (keep : Option String)
  /-- Only where options are given may the URI be a pattern. -/
  | enrol (kind : FeedKind) (uri : String) (options : Option EnrolOptions) (keep : String)
  | publish (uri : String) (payload : Payload) (options : PublishOptions)
  | leave
  | awaitEnd
  | inspect
  | drop
  deriving Repr

inductive TicketAction where
  | nextOutcome
  | lastOutcome
  | cancel (mode : CancelMode)
  | stream
  /-- The next invocation, whose ticket is kept under a name. -/
  | nextInvocation (keep : String)
  | nextEvent
  | depart
  | result (payload : Payload)
  | progress (payload : Payload)
  /-- What the error is made of is as in `CalleeError.compose`. -/
  | error (reason : Option String) (details : Dictionary) (payload : Payload)
      (messages : List String)
  | awaitCancellation
  | inspect
  | drop
  deriving Repr

inductive Action where
  | onSession (a : SessionAction)
  | onTicket (name : String) (a : TicketAction)
  /-- Drops the operation of a given number, if it has not ended, with the ticket that it uses. -/
  | abandon (number : Nat)
  /-- Drops the operation of a given number, if it has not ended, and keeps the ticket. -/
  | desist (number : Nat)
  deriving Repr

/-- What is to be said of an action at once. -/
inductive Notice where
  | noSession
  | noTicket
  /-- The ticket is of a kind with which this cannot be done. -/
  | otherTicket
  | busy
  | nothingPending
  | invalidUri (e : InvalidUri)
  | session (id : Id) (realm : Uri) (details : Dictionary)
  | ticket (t : Ticket) (canceled : Option CancelMode)
  | dropped
  | abandoned
  | done
  deriving Repr

namespace Client

/-- Registers or subscribes, if the URI is one of the kind that is asked for. -/
def beginEnrolment (c : Client) (number : Nat) (kind : FeedKind) (keep uri : String) :
    Option EnrolOptions → Except InvalidUri Client
  | none => do return c.enrol number kind (← Uri.ofString uri).toPattern EnrolOptions.none keep
  | some options => do return c.enrol number kind (← UriPattern.ofString uri) options keep

def unlessInvalid (c : Client) : Except InvalidUri Client → Client × Option Notice
  | .ok c => (c, none)
  | .error e => (c, some (.invalidUri e))

def onSession (c : Client) (number : Nat) : SessionAction → Client × Option Notice
  | .call uri payload options keep => unlessInvalid c do
    return c.call number (← Uri.ofString uri) payload options keep
  | .enrol kind uri options keep => unlessInvalid c (beginEnrolment c number kind keep uri options)
  | .publish uri payload options => unlessInvalid c do
    return c.publish number (← Uri.ofString uri) payload options
  | .leave => (c.leave number, none)
  | .awaitEnd => (c.awaitEnd number, none)
  | .inspect => (c, some (.session c.id c.realm c.details))
  | .drop => if c.isBusy then (c, some .busy) else (c.dropSession, some .dropped)

/-- How the invocation of a ticket was canceled, if it is one and was. -/
def cancellation? (c : Client) : Ticket → Option CancelMode
  | .invocation t => c.session.signal? t.cell
  | _ => none

def onTicket (c : Client) (number : Nat) (name : String) :
    Ticket → TicketAction → Client × Option Notice
  | t, .inspect => (c, some (.ticket t (c.cancellation? t)))
  | _, .drop => (c.dropTicket name, some .dropped)
  | .call t, .nextOutcome => (c.awaitOn number name (.nextOutcome name t false), none)
  | .results t, .nextOutcome => (c.awaitOn number name (.nextOutcome name t true), none)
  | .call t, .lastOutcome => (c.awaitOn number name (.lastOutcome t), none)
  | .call t, .cancel mode => (c.cancel number name t mode, none)
  | .call t, .stream => (c.stream name t, some .done)
  | .feed t, .depart => (c.depart number name t, none)
  | .feed t, .nextInvocation keep =>
    if t.kind = .registration then (c.awaitOn number name (.nextItem name t (some keep)), none)
    else (c, some .otherTicket)
  | .feed t, .nextEvent =>
    if t.kind = .subscription then (c.awaitOn number name (.nextItem name t none), none)
    else (c, some .otherTicket)
  | .invocation t, .result payload => (c.answer number name t (t.result payload) true, none)
  | .invocation t, .progress payload => (c.answer number name t (t.progress payload) false, none)
  | .invocation t, .error reason details payload messages => unlessInvalid c do
    let e ← CalleeError.compose reason details payload messages
    return c.answer number name t (t.error e) true
  | .invocation t, .awaitCancellation => (c.awaitOn number name (.cancellation name t), none)
  | _, _ => (c, some .otherTicket)

/-- Does what the program wants done. -/
def act (c : Client) (number : Nat) : Action → Client × Option Notice
  | .onSession a => if c.held then c.onSession number a else (c, some .noSession)
  | .onTicket name a =>
    match c.ticket? name with
    | some t => c.onTicket number name t a
    | none => (c, some .noTicket)
  | .abandon other =>
    match c.abandon other with
    | some c => (c, some .abandoned)
    | none => (c, some .nothingPending)
  | .desist other =>
    match c.desist other with
    | some c => (c, some .abandoned)
    | none => (c, some .nothingPending)

end Client

end WampClient
