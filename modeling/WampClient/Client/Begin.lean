import WampClient.Client.Basic

/-! How operations begin. What only an established session can do fails at once in any other; a
request gets a fresh id and goes to the session together with the route of its replies. -/
namespace WampClient.Client

def callKeys (request : Id) : List RouteKey :=
  [RouteKey.ofReply .result request, RouteKey.ofRefusal .call request]

def publishKeys (request : Id) : List RouteKey :=
  [RouteKey.ofReply .published request, RouteKey.ofRefusal .publish request]

/-- Goes on if the session is established, and otherwise fails. -/
def whenEstablished (c : Client) (number : Nat) (operation : Operation) (target : String)
    (go : Client → Client) : Client :=
  if c.session.phase = .established then go c
  else c.conclude number (.failed (Failure.sessionClosed.during operation target))

/-- Sends a message; the operation ends when it is out. -/
def sendFor (c : Client) (number : Nat) (onSession : Bool) (m : Message) (operation : Operation)
    (target : String) (back : Option (String × Ticket)) (outcome : Outcome) : Client :=
  let (box, c) := c.newBox
  (c.issue (.send m (some box))).await number onSession (.sent box operation target back outcome)

def call (c : Client) (number : Nat) (procedure : Uri) (payload : Payload) (options : CallOptions)
    (keep : Option String) : Client :=
  c.whenEstablished number .call procedure.text fun c =>
    let (request, c) := c.drawId
    let (accepted, c) := c.newBox
    let (box, c) := c.newBox
    let m := Message.call request options.details procedure payload
    (c.issue (.request m (callKeys request) (.call box) (some accepted))).await number true
      (.call request procedure accepted box keep)

/-- Registers a procedure or subscribes to a topic. -/
def enrol (c : Client) (number : Nat) (kind : FeedKind) (pattern : UriPattern)
    (options : EnrolOptions) (name : String) : Client :=
  c.whenEstablished number kind.entering pattern.text fun c =>
    let (request, c) := c.drawId
    let (accepted, c) := c.newBox
    let (reply, c) := c.newBox
    let (box, c) := c.newBox
    (c.issue (.request (kind.enrolment request options.details pattern) (kind.enrolmentKeys request)
      (.reply (some reply) (some (.install (kind.feed box)))) (some accepted))).await number true
        (.enrolment kind name pattern accepted reply box)

/-- Publishes an event; only a publication that is to be acknowledged has a reply. -/
def publish (c : Client) (number : Nat) (topic : Uri) (payload : Payload)
    (options : PublishOptions) : Client :=
  c.whenEstablished number .publish topic.text fun c =>
    let (request, c) := c.drawId
    let m := Message.publish request options.details topic payload
    if options.acknowledge then
      let (accepted, c) := c.newBox
      let (reply, c) := c.newBox
      (c.issue (.request m (publishKeys request) (.reply (some reply) none) (some accepted))).await
        number true (.publication topic accepted reply)
    else c.sendFor number true m .publish topic.text none (.published none)

def leave (c : Client) (number : Nat) : Client :=
  if c.session.phase = .closed then c.conclude number .done
  else
    let (box, c) := c.newBox
    (c.issue (.close (some box))).await number true (.leave box)

def awaitEnd (c : Client) (number : Nat) : Client := c.await number true .ending

/-! ### On tickets -/

/-- A ticket is taken out of the program's hands while an operation waits on it. -/
def awaitOn (c : Client) (number : Nat) (name : String) (waiting : Waiting) : Client :=
  (c.takeOut name).await number false waiting

/-- Asks the router to cancel a call, once. -/
def cancel (c : Client) (number : Nat) (name : String) (t : CallTicket) (mode : CancelMode) :
    Client :=
  if t.settled || t.cancelSent then c.conclude number .done
  else
    (c.takeOut name).sendFor number false (.cancel t.id [("mode", .string mode.name)]) .cancel
      t.procedure.text (some (name, .call { t with cancelSent := true })) .done

/-- Gives up a registration or subscription, once. -/
def depart (c : Client) (number : Nat) (name : String) (t : FeedTicket) : Client :=
  if t.closed then c.conclude number .done
  else
    let t := { t with closed := true }
    if c.session.phase = .established then
      let (request, c) := c.drawId
      let (accepted, c) := c.newBox
      let (reply, c) := c.newBox
      (c.issue (.request (t.kind.departure request t.id) (t.kind.departureKeys request)
        (.reply (some reply) (some (.remove t.route))) (some accepted))).awaitOn number name
          (.departure name t accepted reply)
    else ((c.takeOut name).keep name (.feed t)).conclude number .done

/-- Sends an answer to an invocation, unless the final one was given before. -/
def answer (c : Client) (number : Nat) (name : String) (t : InvocationTicket) (m : Message)
    (final : Bool) : Client :=
  if t.handled then c.conclude number (.failed (t.failed (Failure.of .resultSent)))
  else if !final && !t.receivesProgress then
    c.conclude number (.failed (t.failed (Failure.of .progressNotRequested)))
  else
    (c.takeOut name).sendFor number false m .yield t.target
      (some (name, .invocation { t with handled := final })) .done

/-- Goes on reading the results of a call as a stream. -/
def stream (c : Client) (name : String) (t : CallTicket) : Client :=
  (c.takeOut name).keep name (.results t)

end WampClient.Client
