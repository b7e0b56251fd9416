import WampClient.Proofs.Client.Purposes
import WampClient.Proofs.Client.Readings

/-! What a program gets to see of a registration or subscription: every invocation or event under
its id, once and in order, from the reply that confirms it on, until it is left by its own doing or
the session ends. -/
namespace WampClient

/-- The message tells that the registration or subscription is gone that the request was to leave,
now or already before. -/
inductive FeedKind.EndedBy (request : Id) : FeedKind → Message → Prop where
  | unregistered : EndedBy request .registration (.unregistered request)
  | unsubscribed : EndedBy request .subscription (.unsubscribed request)
  | notRegistered {details : Dictionary} {reason : Uri} {payload : Payload}
      (gone : reason.text = Message.noSuchRegistration ∨ reason.text = Message.noSuchSubscription) :
      EndedBy request .registration
        (.error MessageType.unregister.code request details reason payload)
  | notSubscribed {details : Dictionary} {reason : Uri} {payload : Payload}
      (gone : reason.text = Message.noSuchRegistration ∨ reason.text = Message.noSuchSubscription) :
      EndedBy request .subscription
        (.error MessageType.unsubscribe.code request details reason payload)

theorem FeedKind.endedBy_iff {kind : FeedKind} {request : Id} {m : Message} {h : Handle}
    {target : Target} : kind.EndedBy request m ↔ m.confirmsGone = true ∧
      (⟨h, kind.departureKeys request, target⟩ : Route Target).takes (RouteKey.ofMessage m) =
        true := by
  constructor
  · intro ended
    cases ended <;>
      simp_all [Message.confirmsGone, Route.takes, FeedKind.departureKeys, RouteKey.covers,
        RouteKey.ofReply, RouteKey.ofRefusal, RouteKey.ofMessage, Message.code, Message.type?,
        Message.requestId?]
  · rintro ⟨gone, takes⟩
    cases m with
    | unregistered own =>
      cases kind <;>
        simp [Route.takes, FeedKind.departureKeys, RouteKey.covers, RouteKey.ofReply,
          RouteKey.ofRefusal, RouteKey.ofMessage, Message.code, Message.type?, Message.requestId?,
          MessageType.code] at takes
      obtain rfl := takes
      exact .unregistered
    | unsubscribed own =>
      cases kind <;>
        simp [Route.takes, FeedKind.departureKeys, RouteKey.covers, RouteKey.ofReply,
          RouteKey.ofRefusal, RouteKey.ofMessage, Message.code, Message.type?, Message.requestId?,
          MessageType.code] at takes
      obtain rfl := takes
      exact .unsubscribed
    | error type own details reason payload =>
      have known : reason.text = Message.noSuchRegistration ∨
          reason.text = Message.noSuchSubscription := by simpa [Message.confirmsGone] using gone
      cases kind <;>
        simp [Route.takes, FeedKind.departureKeys, RouteKey.covers, RouteKey.ofReply,
          RouteKey.ofRefusal, RouteKey.ofMessage] at takes
      · obtain ⟨rfl, rfl⟩ := takes
        exact .notRegistered known
      · obtain ⟨rfl, rfl⟩ := takes
        exact .notSubscribed known
    | _ => cases gone

namespace FeedTicket

/-- The route of what comes in for the registration or subscription. -/
def itemRoute (t : FeedTicket) : Route Target :=
  ⟨t.route, [t.kind.itemKey t.id], .feed (t.kind.feed t.box)⟩

/-- The outcome is the invocation or event as the program sees it. -/
def Presents (t : FeedTicket) (outcome : Outcome) : Item → Prop
  | .invocation i =>
    ∃ cell canceled, outcome = .ticket (.invocation ⟨i, t.pattern, cell, false⟩) canceled
  | .event e => outcome = .event (t.event e)
  | .outcome _ => False

theorem presents_of_shows {t : FeedTicket} {p : Post} {outcome : Outcome} {item : Item}
    (shows : t.Shows p outcome) (made : p.item? = some item) : t.Presents outcome item := by
  cases p with
  | invocation i cell =>
    obtain rfl := Option.some.inj made
    obtain ⟨canceled, rfl⟩ := shows
    exact ⟨cell, canceled, rfl⟩
  | event e =>
    obtain rfl := Option.some.inj made
    exact shows
  | _ => exact shows.elim

theorem presents_of_shown {t : FeedTicket} {posts : List Post} {seen : List Outcome}
    {items : List Item} (shown : List.Forall₂ t.Shows posts seen)
    (made : posts.map Post.item? = items.map some) : List.Forall₂ t.Presents seen items := by
  induction shown generalizing items with
  | nil =>
    obtain rfl : items = [] := by simpa using made.symm
    exact .nil
  | @cons p outcome posts seen first later ih =>
    cases items with
    | nil => simp at made
    | cons item others =>
      obtain ⟨own, rest⟩ := List.cons.inj made
      exact .cons (presents_of_shows first own) (ih rest)

/-- How a registration or subscription stands that the program still holds, given the items that
were handled for it, whether its route was cut off, and what was read. -/
structure Account (t : FeedTicket) (items : List Item) (cut : Bool) (log : List Outcome)
    (c : Client) : Prop where
  /-- The items were read in order, and then that there are no more. -/
  reads : ∃ seen k, log = seen ++ List.replicate k .exhausted ∧
    List.Forall₂ t.Presents seen (items.take t.read) ∧
      (k = 0 ∨ t.read = items.length ∧ (c.session.phase = .closed ∨ cut = true))
  within : t.read ≤ items.length
  /-- What comes of reading on when something is left. -/
  next : ∀ name keep item, items[t.read]? = some item →
    ∃ d outcome, c.advance (.nextItem name t keep) = some (d, .inr outcome) ∧
      t.Presents outcome item
  /-- What comes of reading on when nothing is left. -/
  drained : ∀ name keep, items[t.read]? = none →
    (c.advance (.nextItem name t keep)).map Prod.snd =
      if c.session.phase = .closed ∨ cut = true then some (.inr .exhausted) else none
  route : c.session.phase ≠ .closed → (t.itemRoute ∈ c.session.router.routes ↔ cut = false)

/-- In this move the session handles the reply to a request to leave the registration or
subscription, which was asked for with its route and which confirms that it is gone, or it takes
out its route. -/
inductive Leaves (t : FeedTicket) (asked : List Command) (c : Client) : Move → Prop where
  | replied {h : Handle} {request : Id} {reply answer : Option Box} {came : Message}
      (own : .request (t.kind.departure request t.id) (t.kind.departureKeys request)
        (.reply reply (some (.remove t.route))) answer ∈ asked)
      (waits : ⟨h, t.kind.departureKeys request, .reply reply (some (.remove t.route))⟩ ∈
        c.session.router.routes)
      (ends : t.kind.EndedBy request came) : Leaves t asked c (.arrive (.item (.message came)))
  | removed {rest : List Command} (next : c.commands = .removeRoute t.route :: rest) :
      Leaves t asked c .serve

/-- What a run has brought for a registration or subscription, from the reply on that confirmed
it. -/
structure Course (t : FeedTicket) (c : Client) (before : List Move) (reply : Message)
    (after : List Move) : Prop where
  confirmed : t.Confirmed reply (c.served before) (c.run before)
    ((c.run before).move (.arrive (.item (.message reply))))
  /-- What was handled for it up to the move in which its route was cut off, and how it stands. -/
  account :
    let start := (c.run before).move (.arrive (.item (.message reply)))
    let all := before ++ .arrive (.item (.message reply)) :: after
    t.Account ((start.window t.itemRoute after).filterMap fun m => t.kind.item? t.id m)
      (start.isCut t.itemRoute after) (c.yielded t.box all) (c.run all)
  /-- As long as the session goes on, its route is cut off just when the program leaves it. -/
  leaves : ∀ early m late, after = early ++ m :: late →
    let now := before ++ .arrive (.item (.message reply)) :: early
    (c.run now).cuts t.itemRoute m = true ↔
      (c.run now).session.phase ≠ .closed ∧ t.Leaves (c.served now) (c.run now) m
  stays : t.closed = false →
    ((c.run before).move (.arrive (.item (.message reply)))).isCut t.itemRoute after = false

end FeedTicket

namespace Client

variable {c : Client} {ms : List Move} {m : Move} {t : FeedTicket} {items : List Item}
  {cut : Bool} {log : List Outcome} {x : Route Target}

/-! ### What is in the box -/

theorem account_of_stands (stands : t.Stands items cut c) (fits : (Ticket.feed t).Fits c)
    (logged : (Ticket.feed t).Logged t.box log c) : t.Account items cut log c := by
  have ended : c.session.feeds t.box = false ↔ c.session.phase = .closed ∨ cut = true := by
    rw [← Bool.not_eq_true, stands.fed, not_and_or, not_not, Bool.not_eq_false]
  have long : (c.session.postsTo t.box).length = items.length := by
    have same := congrArg List.length stands.contents
    rwa [List.length_map, List.length_map] at same
  have place (i : Nat) : ((c.session.postsTo t.box)[i]?).map Post.item? = items[i]?.map some := by
    rw [← List.getElem?_map, stands.contents, List.getElem?_map]
  refine ⟨?_, ?_, fun name keep item lies => ?_, fun name keep none' => ?_, stands.route⟩
  · obtain ⟨seen, k, rfl, shown, drained⟩ := logged.shown
    refine ⟨seen, k, rfl, FeedTicket.presents_of_shown shown ?_, ?_⟩
    · rw [List.map_take, stands.contents, ← List.map_take]
      rfl
    · refine drained.imp_right fun ⟨unfed, all⟩ => ⟨all.symm.trans long, ended.mp unfed⟩
  · exact Nat.le_trans logged.within (Nat.le_of_eq long)
  · have here := place t.read
    rw [lies] at here
    obtain ⟨p, found, made⟩ := Option.map_eq_some_iff.mp here
    have next := stands.aside.postAt t.read
    rw [found] at next
    rcases fits p (List.mem_of_getElem? found) with ⟨i, cell, rfl⟩ | ⟨e, rfl⟩
    · obtain rfl := Option.some.inj made
      exact ⟨_, _, by rw [advance, next]; rfl, cell, _, rfl⟩
    · obtain rfl := Option.some.inj made
      exact ⟨_, _, by rw [advance, next]; rfl, rfl⟩
  · have here := place t.read
    rw [none'] at here
    have next := stands.aside.postAt t.read
    rw [Option.map_eq_none_iff.mp here] at next
    rw [advance, next]
    by_cases done : c.session.phase = .closed ∨ cut = true
    · rw [if_pos done, ended.mpr done]
      rfl
    · have fed : c.session.feeds t.box = true := by
        by_contra unfed
        exact done (ended.mp (by simpa using unfed))
      rw [if_neg done, fed]
      rfl

/-! ### The end of a route -/

theorem cuts_of_feed {feed : Feed} (handler : x.handler = .feed feed) (c : Client) (m : Move) :
    c.cuts x m = (c.session.phase != .closed &&
      (c.input? m).any (c.session.withdraws x.handle)) := by
  have keeps : ∀ came, x.handler.keeps came = true := fun came => by
    rw [handler]
    rfl
  simp [cuts, keeps]

/-- What takes the route of a registration or subscription out is the program that leaves it. -/
theorem Fresh.leaves_of_withdraws (fresh : Fresh c) {later : List Move}
    (names : Names ((c.run ms).run later).session.posts t.kind t.id t.route) {input : Input}
    (takes : (c.run ms).input? m = some input)
    (withdrawn : (c.run ms).session.withdraws t.route input = true) :
    t.Leaves (c.served ms) (c.run ms) m := by
  have settled := fresh.settled.run ms
  cases m with
  | arrive a =>
    obtain rfl := Option.some.inj takes
    cases a with
    | item i =>
      cases i with
      | message came =>
        obtain ⟨gone, some'⟩ := Bool.and_eq_true_iff.mp withdrawn
        obtain ⟨y, there, removes⟩ := List.any_eq_true.mp some'
        obtain ⟨removes, taken⟩ := Bool.and_eq_true_iff.mp removes
        obtain ⟨kind, id, request, reply, answer, names', keys, waits, asked⟩ :=
          fresh.depart_of_removes there removes
        -- the request that is replied to was made for this registration or subscription
        obtain ⟨rfl, rfl⟩ := (settled.run later).books.names_unique
          (names'.mono fun _ => told_run settled.books.sound later) names
        obtain ⟨h, _, _⟩ := y
        obtain rfl : _ = t.kind.departureKeys request := keys
        obtain rfl : _ = Target.reply reply (some (.remove t.route)) := waits
        exact .replied asked there (FeedKind.endedBy_iff.mpr ⟨gone, taken⟩)
      | ping data => cases withdrawn
    | _ => cases withdrawn
  | elapse time =>
    obtain rfl := Option.some.inj takes
    cases withdrawn
  | serve =>
    obtain ⟨command, head, rfl⟩ := Option.map_eq_some_iff.mp takes
    obtain ⟨rest, next⟩ := List.head?_eq_some_iff.mp head
    cases command with
    | removeRoute route =>
      obtain rfl : route = t.route := by simpa [Session.withdraws] using withdrawn
      exact .removed next
    | _ => cases withdrawn
  | _ => simp [input?] at takes

/-- Nothing else cuts off a registration or subscription. -/
theorem Fresh.cuts_iff (fresh : Fresh c) {before after : List Move} {feed : Feed}
    (held : .feed t ∈ (c.run (before ++ m :: after)).heldTickets)
    (handler : x.handler = .feed feed) (own : x.handle = t.route) :
    (c.run before).cuts x m = true ↔
      (c.run before).session.phase ≠ .closed ∧ t.Leaves (c.served before) (c.run before) m := by
  rw [cuts_of_feed handler, own, Bool.and_eq_true, bne_iff_ne, ne_eq]
  refine and_congr_right fun live => ⟨fun withdrawn => ?_, fun leaves => ?_⟩
  · have arises : t.Arises _ _ := fresh.arises held
    have names := arises.names
    rw [run_append] at names
    obtain ⟨input, takes, withdraws⟩ := (Option.any_eq_true _ _).mp withdrawn
    exact fresh.leaves_of_withdraws names takes withdraws
  · cases leaves with
    | replied asked waits ends =>
      obtain ⟨gone, takes⟩ := FeedKind.endedBy_iff.mp ends
      simp only [input?, Option.any_some, Session.withdraws, gone, Bool.true_and]
      exact List.any_eq_true.mpr
        ⟨_, waits, Bool.and_eq_true_iff.mpr ⟨by simp [Target.removes], takes⟩⟩
    | removed next => simp [input?, next, Session.withdraws]

/-- Whoever has left a registration or subscription has a ticket that says so. -/
theorem Fresh.closed_of_leaves (fresh : Fresh c) {before after : List Move}
    (held : .feed t ∈ (c.run (before ++ m :: after)).heldTickets)
    (leaves : t.Leaves (c.served before) (c.run before) m) : t.closed = true := by
  by_contra opened
  have spares := (fresh.settled.run (before ++ m :: after)).spares held (by simpa using opened)
  have removed : ∃ command ∈ c.served (before ++ m :: after), command.removes t.route = true := by
    cases leaves with
    | replied asked waits ends =>
      rw [served_append]
      exact ⟨_, List.mem_append_left _ asked, by simp [Command.removes, Target.removes]⟩
    | removed next => exact ⟨_, mem_served_of_next after next, by simp [Command.removes]⟩
  obtain ⟨command, there, removes⟩ := removed
  cases removes.symm.trans (spares command (List.mem_append_left _ there))

/-! ### Runs -/

theorem Fresh.feed_course (fresh : Fresh c) (held : .feed t ∈ (c.run ms).heldTickets) :
    ∃ before after reply, ms = before ++ .arrive (.item (.message reply)) :: after ∧
      t.Course c before reply after := by
  have own : (Ticket.feed t).owns t.box = true := by simp
  have arises : t.Arises _ _ := fresh.arises held
  obtain ⟨before, after, reply, rfl, confirmed, stands⟩ :=
    fresh.feed_stands arises (fresh.heard held own)
  have logged := (fresh.reads t.box _).tickets _ (mem_tickets.mpr (Or.inr held)) own
  have stays : ∀ early m late, after = early ++ m :: late → .feed t ∈ (c.run
      ((before ++ .arrive (.item (.message reply)) :: early) ++ m :: late)).heldTickets := by
    rintro early m late rfl
    simpa using held
  refine ⟨before, after, reply, rfl, confirmed,
    account_of_stands stands (fresh.fits held own).1 logged,
    fun early m late same => fresh.cuts_iff (stays early m late same) rfl rfl, fun opened => ?_⟩
  by_contra cut
  obtain ⟨early, m, late, same, cuts⟩ := exists_cuts (by simpa using cut)
  have held' := stays early m late same
  have since : c.run (before ++ .arrive (.item (.message reply)) :: early) =
      ((c.run before).move (.arrive (.item (.message reply)))).run early := run_append c before _
  rw [← since] at cuts
  have closed := fresh.closed_of_leaves held' ((fresh.cuts_iff held' rfl rfl).mp cuts).2
  exact absurd closed (by simp [opened])

/-- Whoever holds a registration or subscription gets every invocation or event that comes in for it
once and in order, from the reply that confirmed it on, those included that come in right behind
it. That ends with the session, or once the program has left it and the reply to that is handled, or
its route taken out: while it is open, nothing that happens to others cuts it off. -/
theorem feed_items (wire : Wire) (now closeTimeout : Nat) (ids : IdSource) (id : Id) (realm : Uri)
    (details : Dictionary) (ms : List Move) {t : FeedTicket} :
    let c := joined (Session.established wire now closeTimeout) ids id realm details
    .feed t ∈ (c.run ms).heldTickets →
    (∃ before after reply, ms = before ++ .arrive (.item (.message reply)) :: after ∧
      t.Course c before reply after) ∧
      ∀ u ∈ (c.run ms).heldTickets, u.route? = some t.route → u = .feed t := by
  intro c held
  have fresh : Fresh c := fresh_joined wire now closeTimeout ids id realm details
  exact ⟨fresh.feed_course held, fun u there same =>
    (fresh.settled.run ms).eq_of_route there held same rfl⟩

/-- An event comes in for the first subscription. -/
def publication (id : Id) : Move := .arrive (.item (.message (.event Id.min id [] Payload.empty)))

/-- A subscription with an event right behind the reply that confirms it, one while it is being
left, and one after that; then all of them are read. -/
def feedLeft : List Move :=
  [.act 0 (.onSession (.enrol .subscription "a" none "t")), .serve,
    .arrive (.item (.message (.subscribed Id.min Id.min))), publication Id.min, .poll 0,
    .act 1 (.onTicket "t" .depart), .serve, publication Id.min.next,
    .arrive (.item (.message (.unsubscribed Id.min.next))), publication Id.min.next.next, .poll 1,
    .act 2 (.onTicket "t" .nextEvent), .poll 2, .act 3 (.onTicket "t" .nextEvent), .poll 3,
    .act 4 (.onTicket "t" .nextEvent), .poll 4]

theorem feed_items_left :
    let t : FeedTicket := ⟨.subscription, Id.min, ⟨"a"⟩, 2, 2, 2, true⟩
    ((newcomer.run feedLeft).heldTickets = [.feed t] ∧ newcomer.yielded t.box feedLeft =
      [.event ⟨Id.min, Payload.empty, [], some ⟨"a"⟩⟩,
        .event ⟨Id.min.next, Payload.empty, [], some ⟨"a"⟩⟩, .exhausted]) ∧
    (∃ before after reply, feedLeft = before ++ .arrive (.item (.message reply)) :: after ∧
      t.Course newcomer before reply after) ∧
      ∀ u ∈ (newcomer.run feedLeft).heldTickets, u.route? = some t.route → u = .feed t := by
  intro t
  have held : (newcomer.run feedLeft).heldTickets = [.feed t] := rfl
  refine ⟨⟨held, rfl⟩, ?_⟩
  exact feed_items (Wire.fresh fun _ => none) 0 1000 IdSource.initial Id.min ⟨"realm"⟩ [] feedLeft
    (held ▸ List.mem_singleton_self _)

end Client

end WampClient
