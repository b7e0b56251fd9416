import WampClient.Session.Post

/-! What stands at the end of a route, and how a message is handed to it. What changes the routes
themselves is put off until the message has reached all of its targets. -/
namespace WampClient

/-- Where the invocations of a registration, or the events of a subscription, are put. -/
inductive Feed where
  | invocations (box : Box)
  | events (box : Box)
  deriving DecidableEq, Repr

def Feed.box : Feed → Box
  | .invocations box => box
  | .events box => box

/-- What a reply does to the routes before the next message is read. -/
inductive RouteChange where
  /-- Installs a route for the registration or subscription that the reply confirms. -/
  | install (feed : Feed)
  /-- Removes a route if the reply confirms that the router no longer uses it. -/
  | remove (route : Handle)
  deriving DecidableEq, Repr

inductive Target where
  /-- Takes one reply. Without a box nobody waits for it, but the routes still follow it. -/
  | reply (box : Option Box) (change : Option RouteChange)
  /-- Takes progressive results up to the last one. -/
  | call (box : Box)
  | feed (feed : Feed)
  | interrupt (cell : Cell)
  deriving DecidableEq, Repr

inductive Errand where
  | handOver (box : Option Box) (reply : Message) (change : Option RouteChange)
  /-- An invocation was put into its box: interrupts of it go to the cell. -/
  | watch (request : Id) (cell : Cell)
  /-- An invocation came for a box that is gone. -/
  | turnAway (request : Id)
  deriving Repr

/-- What handing a message around has brought about so far. -/
structure Tray where
  posts : List (Box × Post)
  signals : List (Cell × CancelMode)
  nextCell : Cell
  errands : List Errand
  deriving Repr

namespace Tray

def post (t : Tray) (box : Box) (p : Post) : Tray := { t with posts := t.posts ++ [(box, p)] }

def signal (t : Tray) (cell : Cell) (mode : CancelMode) : Tray :=
  { t with signals := t.signals ++ [(cell, mode)] }

def defer (t : Tray) (action : Errand) : Tray := { t with errands := t.errands ++ [action] }

end Tray

namespace Message

/-- Whether more results follow this one. -/
def moreFollows : Message → Bool
  | .result _ details _ => details.flag "progress"
  | _ => false

/-- How an INTERRUPT wants the invocation to end; `kill` where it gives no known mode. -/
def interruptMode (options : Dictionary) : CancelMode :=
  ((options.text? "mode").bind CancelMode.ofName?).getD .kill

/-- The key of the route that a reply calls for: of the invocations of a new registration, or of
the events of a new subscription. -/
def enrolledKey? : Message → Option RouteKey
  | .registered _ registration => some (RouteKey.ofReply .invocation registration)
  | .subscribed _ subscription => some (RouteKey.ofReply .event subscription)
  | _ => none

def noSuchRegistration : String := "wamp.error.no_such_registration"

def noSuchSubscription : String := "wamp.error.no_such_subscription"

/-- Whether a reply confirms that a registration or subscription is gone. -/
def confirmsGone : Message → Bool
  | .unregistered _ => true
  | .unsubscribed _ => true
  | .error _ _ _ reason _ => reason.text == noSuchRegistration || reason.text == noSuchSubscription
  | _ => false

/-- The invocation that a message of the callee settles. -/
def settles? : Message → Option Id
  | .yield request options _ => if options.flag "progress" then none else some request
  | .error requestType request _ _ _ =>
    if requestType = MessageType.invocation.code then some request else none
  | _ => none

end Message

namespace Target

def deliver (gone : List Box) (m : Message) (_ : Handle) (t : Target) (tray : Tray) :
    Router.Visit Target Tray :=
  match t with
  | .reply box change => ⟨.reply none none, false, tray.defer (.handOver box m change)⟩
  | .call box =>
    if gone.contains box then ⟨t, false, tray⟩
    else ⟨t, m.moreFollows, tray.post box (.outcome (.ok m))⟩
  | .feed (.invocations box) =>
    match m with
    | .invocation request registration details payload =>
      if gone.contains box then ⟨t, true, tray.defer (.turnAway request)⟩
      else
        let cell := tray.nextCell
        let tray := tray.post box (.invocation ⟨request, registration, details, payload⟩ cell)
        ⟨t, true, { tray with nextCell := cell + 1 }.defer (.watch request cell)⟩
    | _ => ⟨t, true, tray⟩
  | .feed (.events box) =>
    match m with
    | .event subscription publication details payload =>
      if gone.contains box then ⟨t, true, tray⟩
      else ⟨t, true, tray.post box (.event ⟨subscription, publication, details, payload⟩)⟩
    | _ => ⟨t, true, tray⟩
  | .interrupt cell =>
    match m with
    | .interrupt _ options => ⟨t, true, tray.signal cell (Message.interruptMode options)⟩
    | _ => ⟨t, true, tray⟩

/-- What a waiter is told when the session ends; sequences just end. -/
def farewell (f : Failure) : Target → Option (Box × Post)
  | .reply (some box) _ => some (box, .reply (.error f))
  | .call box => some (box, .outcome (.error f))
  | _ => none

/-- Whether something may still be put into the box by way of this target. -/
def feeds (box : Box) : Target → Bool
  | .reply own change =>
    own == some box || match change with
      | some (.install f) => f.box == box
      | _ => false
  | .call own => own == box
  | .feed f => f.box == box
  | .interrupt _ => false

end Target

end WampClient
