import WampClient.Proofs.Client.Lineage

/-! What tickets stem from, and who has routes taken out. A ticket stems from a request that was
issued and from what the session has put into its boxes. A route belongs with one box, and the
session is asked to take it out only once the ticket of that box is given up or gone. -/
namespace WampClient

def Ticket.route? : Ticket → Option Handle
  | .call t => some t.route
  | .results t => some t.route
  | .feed t => some t.route
  | .invocation _ => none

/-- Whether it is the ticket of a registration or subscription that was given up. -/
def Ticket.isClosed : Ticket → Bool
  | .feed t => t.closed
  | _ => false

/-- The call was issued with these keys and this box, and accepted with this route. -/
def CallTicket.Arises (commands : List Command) (posts : List (Box × Post)) (t : CallTicket) :
    Prop :=
  ∃ m accepted,
    .request m (Client.callKeys t.id) (.call t.box) (some accepted) ∈ commands ∧
      (accepted, .accepted (.ok t.route)) ∈ posts

/-- The registration or subscription was asked for with this box, and a reply has confirmed it
under this id, with this route. -/
def FeedTicket.Arises (commands : List Command) (posts : List (Box × Post)) (t : FeedTicket) :
    Prop :=
  ∃ m request accepted reply route came, (accepted < reply ∧ reply < t.box) ∧
    .request m (t.kind.enrolmentKeys request)
        (.reply (some reply) (some (.install (t.kind.feed t.box)))) (some accepted) ∈ commands ∧
      (accepted, .accepted (.ok route)) ∈ posts ∧
        (reply, .reply (.ok (came, some t.route))) ∈ posts ∧ t.kind.enrolled? came = some t.id

def Ticket.Arises (commands : List Command) (posts : List (Box × Post)) : Ticket → Prop
  | .call t => t.Arises commands posts
  | .results t => t.Arises commands posts
  | .feed t => t.Arises commands posts
  | .invocation _ => True

/-- The route was made known to the one who issued a request with this box for what comes by it. -/
inductive Comes (commands : List Command) (posts : List (Box × Post)) : Handle → Box → Prop where
  | call {m : Message} {keys : List RouteKey} {b a : Box} {h : Handle}
      (asked : .request m keys (.call b) (some a) ∈ commands)
      (told : (a, .accepted (.ok h)) ∈ posts) : Comes commands posts h b
  | feed {m : Message} {keys : List RouteKey} {r : Box} {feed : Feed} {a : Option Box} {h : Handle}
      {came : Message}
      (asked : .request m keys (.reply (some r) (some (.install feed))) a ∈ commands)
      (told : (r, .reply (.ok (came, some h))) ∈ posts) : Comes commands posts h feed.box

/-- A registration or subscription was confirmed under this id, with this route. -/
def Names (posts : List (Box × Post)) (kind : FeedKind) (id : Id) (route : Handle) : Prop :=
  ∃ reply came, (reply, .reply (.ok (came, some route))) ∈ posts ∧ kind.enrolled? came = some id

/-- What a client may ask of its session, where this is said of the registrations and subscriptions
that are known. -/
inductive Command.Formed (known : FeedKind → Id → Handle → Prop) : Command → Prop where
  | send (m : Message) (answer : Option Box) : Formed known (.send m answer)
  | close (answer : Option Box) : Formed known (.close answer)
  | removeRoute (route : Handle) : Formed known (.removeRoute route)
  | call (request : Id) (options : Dictionary) (procedure : Uri) (payload : Payload) (box : Box)
      (answer : Option Box) :
      Formed known (.request (.call request options procedure payload) (Client.callKeys request)
        (.call box) answer)
  | publish (request : Id) (options : Dictionary) (topic : Uri) (payload : Payload)
      (reply answer : Option Box) :
      Formed known (.request (.publish request options topic payload) (Client.publishKeys request)
        (.reply reply none) answer)
  | enrol (kind : FeedKind) (request : Id) (options : Dictionary) (pattern : UriPattern)
      (reply box : Box) (answer : Option Box) :
      Formed known (.request (kind.enrolment request options pattern) (kind.enrolmentKeys request)
        (.reply (some reply) (some (.install (kind.feed box)))) answer)
  | depart {kind : FeedKind} {id : Id} {route : Handle} (own : known kind id route) (request : Id)
      (reply answer : Option Box) :
      Formed known (.request (kind.departure request id) (kind.departureKeys request)
        (.reply reply (some (.remove route))) answer)

theorem Command.Formed.mono {known known' : FeedKind → Id → Handle → Prop} {command : Command}
    (formed : command.Formed known)
    (old : ∀ kind id route, known kind id route → known' kind id route) :
    command.Formed known' := by
  cases formed with
  | send m answer => exact .send m answer
  | close answer => exact .close answer
  | removeRoute route => exact .removeRoute route
  | call request options procedure payload box answer => exact .call _ _ _ _ _ _
  | publish request options topic payload reply answer => exact .publish _ _ _ _ _ _
  | enrol kind request options pattern reply box answer => exact .enrol _ _ _ _ _ _ _
  | depart own request reply answer => exact .depart (old _ _ _ own) request reply answer

section

variable {commands more : List Command} {posts later : List (Box × Post)} {h : Handle} {b : Box}

theorem Names.mono {kind : FeedKind} {id : Id} (names : Names posts kind id h)
    (told : ∀ e ∈ posts, e ∈ later) : Names later kind id h := by
  obtain ⟨reply, came, put, confirms⟩ := names
  exact ⟨reply, came, told _ put, confirms⟩

theorem FeedTicket.Arises.names {t : FeedTicket} (arises : t.Arises commands posts) :
    Names posts t.kind t.id t.route := by
  obtain ⟨m, request, accepted, reply, route, came, -, -, -, put, confirms⟩ := arises
  exact ⟨reply, came, put, confirms⟩

theorem Ticket.Arises.mono {t : Ticket} (arises : t.Arises commands posts)
    (old : ∀ command ∈ commands, command ∈ more) (told : ∀ e ∈ posts, e ∈ later) :
    t.Arises more later := by
  have call : ∀ t : CallTicket, t.Arises commands posts → t.Arises more later :=
    fun t ⟨m, accepted, asked, put⟩ => ⟨m, accepted, old _ asked, told _ put⟩
  cases t with
  | call t => exact call t arises
  | results t => exact call t arises
  | feed t =>
    obtain ⟨m, request, accepted, reply, route, came, boxes, asked, put, put', confirms⟩ := arises
    exact ⟨m, request, accepted, reply, route, came, boxes, old _ asked, told _ put, told _ put',
      confirms⟩
  | invocation t => trivial

theorem Comes.mono (comes : Comes commands posts h b)
    (old : ∀ command ∈ commands, command ∈ more) (told : ∀ e ∈ posts, e ∈ later) :
    Comes more later h b := by
  cases comes with
  | call asked put => exact .call (old _ asked) (told _ put)
  | feed asked put => exact .feed (old _ asked) (told _ put)

theorem Ticket.Arises.comes {t : Ticket} (arises : t.Arises commands posts)
    (route : t.route? = some h) : ∃ b, t.box? = some b ∧ Comes commands posts h b := by
  have call : ∀ t : CallTicket, t.Arises commands posts → t.route = h →
      Comes commands posts h t.box := fun t ⟨m, accepted, asked, put⟩ same =>
    .call asked (same ▸ put)
  cases t with
  | call t => exact ⟨t.box, rfl, call t arises (Option.some.inj route)⟩
  | results t => exact ⟨t.box, rfl, call t arises (Option.some.inj route)⟩
  | feed t =>
    obtain rfl : t.route = h := Option.some.inj route
    obtain ⟨m, request, accepted, reply, route', came, -, asked, -, put, -⟩ := arises
    have comes : Comes commands posts t.route (t.kind.feed t.box).box := .feed asked put
    rw [FeedKind.box_feed] at comes
    exact ⟨t.box, rfl, comes⟩
  | invocation t => exact nomatch route

theorem Ticket.Descends.owns {t u : Ticket} (descends : t.Descends u) : u.owns b = t.owns b := by
  cases descends with
  | call t stream stream' cancelSent => rw [CallTicket.owns_kept, CallTicket.owns_kept]
  | feed t stays => rfl
  | invocation t u => rfl

theorem Ticket.Descends.closed {t u : Ticket} (descends : t.Descends u)
    (closed : t.isClosed = true) : u.isClosed = true := by
  cases descends with
  | call t stream stream' cancelSent => cases stream <;> exact nomatch closed
  | feed t stays => exact stays closed
  | invocation t u => exact closed

theorem CallTicket.arises_kept {t : CallTicket} (stream : Bool) :
    (t.kept stream).Arises commands posts ↔ t.Arises commands posts := by
  cases stream <;> exact Iff.rfl

theorem Ticket.Descends.arises {t u : Ticket} (descends : t.Descends u)
    (arises : t.Arises commands posts) : u.Arises commands posts := by
  cases descends with
  | call t stream stream' cancelSent =>
    rw [CallTicket.arises_kept] at arises ⊢
    exact arises
  | feed t stays => exact arises
  | invocation t u => trivial

end

namespace Client

variable {c d : Client} {w w' : Work} {past cmds : List Command} {b : Box} {h : Handle}

/-- A route belongs with one box. -/
theorem Books.comes_unique (books : Books past c) {b' : Box}
    (comes : Comes (past ++ c.commands) c.session.posts h b)
    (comes' : Comes (past ++ c.commands) c.session.posts h b') : b = b' := by
  cases comes with
  | @call m keys b a h asked told =>
    cases comes' with
    | @call m' keys' b' a' h' asked' told' =>
      have same := books.telling.once _ told _ told' h rfl rfl
      obtain ⟨rfl, -⟩ := Prod.mk.inj same
      have command := books.unique (b := a) asked asked' (by simp [Command.feeds])
        (by simp [Command.feeds])
      obtain ⟨-, -, target, -⟩ := Command.request.inj command
      exact Target.call.inj target
    | feed asked' told' => cases books.telling.once _ told _ told' h rfl rfl
  | @feed m keys r feed a h came asked told =>
    cases comes' with
    | call asked' told' => cases books.telling.once _ told _ told' h rfl rfl
    | @feed m' keys' r' feed' a' h' came' asked' told' =>
      have same := books.telling.once _ told _ told' h rfl rfl
      obtain ⟨rfl, -⟩ := Prod.mk.inj same
      have command := books.unique (b := r) asked asked' (by simp [Command.feeds, Target.feeds])
        (by simp [Command.feeds, Target.feeds])
      obtain ⟨-, -, target, -⟩ := Command.request.inj command
      obtain ⟨-, change⟩ := Target.reply.inj target
      rw [RouteChange.install.inj (Option.some.inj change)]

/-- A route that belongs with a box was given out. -/
theorem Books.comes_le (books : Books past c)
    (comes : Comes (past ++ c.commands) c.session.posts h b) : h ≤ c.session.router.lastHandle := by
  cases comes with
  | call asked told => exact books.telling.bounded _ told h rfl
  | feed asked told => exact books.telling.bounded _ told h rfl

/-! ### Boxes that are done with -/

/-- Whoever has the box now has given it up. -/
structure Work.Spent (b : Box) (w : Work) : Prop where
  given : b < w.client.nextBox
  tickets : ∀ t ∈ w.tickets, t.owns b = true → t.isClosed = true
  boxes : ∀ task ∈ w.client.tasks, b ∉ task.waiting.boxes

theorem Work.Spent.part (spent : w.Spent b) (part : Part w w') : w'.Spent b where
  given := Nat.lt_of_lt_of_le spent.given part.grows.boxes
  tickets u there own := by
    obtain ⟨t, among, descends⟩ := part.descends u there
    exact descends.closed (spent.tickets t among (descends.owns ▸ own))
  boxes task there own := by
    rcases part.begun task there with old | ⟨-, fresh⟩
    · exact spent.boxes task old own
    · exact absurd spent.given (Nat.not_lt_of_le (fresh b own))

/-- A box that was let go of, or whose ticket was given up. -/
theorem Work.Owned.spent (owned : w.Owned b) (done : b ∈ w.client.session.gone ∨
    ∃ t ∈ w.tickets, t.owns b = true ∧ t.isClosed = true) : w.Spent b := by
  have tally := countP_tickets_le w b
  have single := owned.single
  rcases done with gone | ⟨t, there, mine, closed⟩
  · have one : (w.client.session.gone.contains b).toNat = 1 := by simp [gone]
    refine ⟨Nat.lt_of_not_le fun unborn => ?_, fun u among own => ?_, fun task among own => ?_⟩
    · have none' := owned.unborn unborn
      omega
    · have counted : 0 < w.tickets.countP (Ticket.owns b) :=
        List.countP_pos_iff.mpr ⟨u, among, own⟩
      omega
    · have counted : 0 < (w.client.tasks.flatMap fun t => t.waiting.boxes).count b :=
        List.count_pos_iff.mpr (List.mem_flatMap.mpr ⟨task, among, own⟩)
      omega
  · obtain ⟨given, -, boxes⟩ := owned.held there mine
    refine ⟨given, fun u among own => ?_, boxes⟩
    rwa [owned.unique among there own mine]

/-- The boxes of an operation that waits are still looked into. -/
theorem Orderly.heard {task : Task} (orderly : c.Orderly) (there : task ∈ c.tasks)
    (own : b ∈ task.waiting.boxes) : b ∉ c.session.gone := by
  intro gone
  have spent := (orderly.owned b).spent (Or.inl gone)
  exact spent.boxes task there own

/-! ### What is asked of the session -/

/-- A ticket in the hands has this for its kind, id and route. -/
def Work.Shows (w : Work) (kind : FeedKind) (id : Id) (route : Handle) : Prop :=
  ∃ t : FeedTicket, .feed t ∈ w.hand ∧ t.kind = kind ∧ t.id = id ∧ t.route = route

/-- What a new command takes out belongs to an open ticket that is let go of or given up with
it. -/
structure Work.Lets (w w' : Work) (command : Command) : Prop where
  formed : command.Formed w.Shows
  removes : ∀ h, command.removes h = true → ∃ t ∈ w.hand, t.isClosed = false ∧
    t.route? = some h ∧ ∀ b, t.owns b = true →
      b ∈ w'.client.session.gone ∨ ∃ u ∈ w'.tickets, u.owns b = true ∧ u.isClosed = true

theorem lets_of_spares {command : Command} (formed : command.Formed w.Shows)
    (spares : ∀ h, command.removes h = false) : w.Lets w' command :=
  ⟨formed, fun h removes => by simp [spares h] at removes⟩

theorem lets_append {us : List Ticket} {commands : List Command} {command : Command}
    (queue : d.commands = commands ++ [command]) (new : w.Lets ⟨d, us⟩ command) :
    ∀ other ∈ d.commands, other ∈ commands ∨ w.Lets ⟨d, us⟩ other := by
  intro other there
  rw [queue] at there
  rcases List.mem_append.mp there with old | last
  · exact Or.inl old
  · rw [List.mem_singleton.mp last]
    exact Or.inr new

theorem lets_release {ts : List Ticket} (t : Ticket) : ∀ command ∈ (c.release t).commands,
    command ∈ c.commands ∨ Work.Lets ⟨c, t :: ts⟩ ⟨c.release t, ts⟩ command := by
  have gone : ∀ b, t.owns b = true → b ∈ (c.release t).session.gone := by
    intro b own
    have box : t.box? = some b := by simpa [Ticket.owns] using own
    rw [gone_release, box]
    exact List.mem_cons_self
  -- a command that takes out the route of the ticket
  have own : ∀ {command : Command}, t.isClosed = false →
      command.Formed (Work.Shows ⟨c, t :: ts⟩) →
      (∀ h, command.removes h = true → t.route? = some h) →
      Work.Lets ⟨c, t :: ts⟩ ⟨c.release t, ts⟩ command := fun opened formed route =>
    ⟨formed, fun h removes => ⟨t, List.mem_cons_self, opened, route h removes, fun b mine =>
      Or.inl (gone b mine)⟩⟩
  have call : ∀ u : CallTicket, t.isClosed = false → t.route? = some u.route →
      (c.release t).commands = (c.release (.call u)).commands →
      ∀ command ∈ (c.release t).commands,
        command ∈ c.commands ∨ Work.Lets ⟨c, t :: ts⟩ ⟨c.release t, ts⟩ command := by
    intro u opened route same
    rw [release_call] at same
    cases settled : u.settled with
    | true =>
      rw [settled] at same
      rw [same]
      exact fun _ => Or.inl
    | false =>
      rw [settled] at same
      refine lets_append same (own opened (.removeRoute _) fun h removes => ?_)
      rw [route, show u.route = h by simpa [Command.removes] using removes]
  cases t with
  | call u => exact call u rfl rfl rfl
  | results u => exact call u rfl rfl rfl
  | feed u =>
    by_cases none' : (u.closed || c.session.phase != .established) = true
    · have same : (c.release (.feed u)).commands = c.commands := by
        rw [release_feed, if_pos none']
        rfl
      rw [same]
      exact fun _ => Or.inl
    · have same : (c.release (.feed u)).commands = (c.departDetached u).commands := by
        rw [release_feed, if_neg none']
        rfl
      have opened : u.closed = false := (Bool.or_eq_false_iff.mp (eq_false_of_ne_true none')).1
      refine lets_append same (own opened (.depart ⟨u, List.mem_cons_self, rfl, rfl, rfl⟩ _ _ _)
        fun h removes => ?_)
      rw [Ticket.route?, show u.route = h by simpa [Command.removes, Target.removes] using removes]
  | invocation u =>
    by_cases none' : (u.handled || c.session.phase != .established) = true
    · have same : (c.release (.invocation u)).commands = c.commands := by
        rw [release_invocation, if_pos none']
      rw [same]
      exact fun _ => Or.inl
    · have same : (c.release (.invocation u)).commands =
          c.commands ++ [.send u.abandonment none] := by
        rw [release_invocation, if_neg none']
        rfl
      exact lets_append same (lets_of_spares (.send _ _) fun _ => rfl)

theorem lets_sendFor {ts us : List Ticket} (number : Nat) (onSession : Bool) (m : Message)
    (operation : Operation) (target : String) (back : Option (String × Ticket))
    (outcome : Outcome) :
    let d := c.sendFor number onSession m operation target back outcome
    ∀ command ∈ d.commands, command ∈ c.commands ∨ Work.Lets ⟨c, ts⟩ ⟨d, us⟩ command := by
  intro d
  have queue : d.commands = c.commands ++ [.send m (some c.nextBox)] := rfl
  exact lets_append queue (lets_of_spares (.send _ _) fun _ => rfl)

theorem Part.lets (part : Part w w') : ∀ command ∈ w'.client.commands,
    command ∈ w.client.commands ∨ w.Lets w' command := by
  cases part with
  | called fresh procedure payload options keep =>
    unfold Client.call whenEstablished
    split
    · exact lets_append rfl (lets_of_spares (.call _ _ _ _ _ _) fun _ => rfl)
    · exact fun _ => Or.inl
  | enrolled fresh kind pattern options name =>
    unfold enrol whenEstablished
    split
    · exact lets_append rfl (lets_of_spares (.enrol _ _ _ _ _ _ _) fun _ => rfl)
    · exact fun _ => Or.inl
  | published fresh topic payload options =>
    unfold publish whenEstablished
    split
    · dsimp only
      split
      · exact lets_append rfl (lets_of_spares (.publish _ _ _ _ _ _) fun _ => rfl)
      · exact lets_append rfl (lets_of_spares (.send _ _) fun _ => rfl)
    · exact fun _ => Or.inl
  | left fresh =>
    unfold leave
    split
    · exact fun _ => Or.inl
    · exact lets_append rfl (lets_of_spares (.close _) fun _ => rfl)
  | dropped => exact lets_append rfl (lets_of_spares (.close _) fun _ => rfl)
  | released t => exact lets_release t
  | canceled fresh name more first mode => exact lets_sendFor _ false _ _ _ _ _
  | answered fresh name first answers => exact lets_sendFor _ false _ _ _ _ _
  | @departed c ts number fresh name t first live =>
    refine lets_append rfl ⟨.depart ⟨t, List.mem_cons_self, rfl, rfl, rfl⟩ _ _ _, fun h removes =>
      ⟨.feed t, List.mem_cons_self, first, ?_, fun b own => ?_⟩⟩
    · rw [Ticket.route?, show t.route = h by simpa [Command.removes, Target.removes] using removes]
    · refine Or.inr ⟨.feed { t with closed := true }, ?_, own, rfl⟩
      refine mem_tickets.mpr (Or.inr (mem_heldTickets.mpr (Or.inr ⟨_, List.mem_append_right _
        List.mem_cons_self, List.mem_cons_self⟩)))
  | gaveUp there =>
    rw [forgetAll_eq]
    exact fun _ => Or.inl
  | _ => exact fun _ => Or.inl

/-! ### The invariant -/

/-- Tickets stem from what was issued and told, operations have asked for what they wait for, what
is to be taken out is done with, and all that was asked is of the right form. -/
structure Work.Sourced (past : List Command) (w : Work) : Prop where
  tickets : ∀ t ∈ w.tickets, t.Arises (past ++ w.client.commands) w.client.session.posts
  tasks : ∀ task ∈ w.client.tasks, task.waiting.Begun (past ++ w.client.commands)
  removed : ∀ h, ∀ command ∈ past ++ w.client.commands, command.removes h = true →
    ∃ b, Comes (past ++ w.client.commands) w.client.session.posts h b ∧ w.Spent b
  formed : ∀ command ∈ past ++ w.client.commands, command.Formed (Names w.client.session.posts)

section

variable {h : Handle} {b : Box} {t u : Ticket}

/-- The box that a route belongs with is that of the ticket which has the route. -/
theorem Work.Sourced.owns (sourced : w.Sourced past) (books : Books past w.client)
    (held : t ∈ w.tickets) (route : t.route? = some h)
    (comes : Comes (past ++ w.client.commands) w.client.session.posts h b) : t.owns b = true := by
  obtain ⟨b', box, comes'⟩ := (sourced.tickets t held).comes route
  obtain rfl := books.comes_unique comes comes'
  simp [Ticket.owns, box]

/-- Nobody has asked for the route of a ticket to be taken out that was not given up. -/
theorem Work.Sourced.spares (sourced : w.Sourced past) (books : Books past w.client)
    (held : t ∈ w.tickets) (opened : t.isClosed = false) (route : t.route? = some h) :
    ∀ command ∈ past ++ w.client.commands, command.removes h = false := by
  intro command there
  by_contra removes
  obtain ⟨b, comes, spent⟩ := sourced.removed h command there (by simpa using removes)
  have closed := spent.tickets t held (sourced.owns books held route comes)
  exact absurd closed (by simp [opened])

/-- Two tickets never share a route. -/
theorem Work.Sourced.eq_of_route (sourced : w.Sourced past) (books : Books past w.client)
    (owned : ∀ b, w.Owned b) (ht : t ∈ w.tickets) (hu : u ∈ w.tickets)
    (mine : t.route? = some h) (yours : u.route? = some h) : t = u := by
  obtain ⟨b, -, comes⟩ := (sourced.tickets t ht).comes mine
  exact (owned b).unique ht hu (sourced.owns books ht mine comes)
    (sourced.owns books hu yours comes)

end

/-- The ticket is closed while the reply is waited for. -/
theorem Work.Sourced.closed_of_waits {task : Task} {name : String} {t : FeedTicket}
    {accepted reply : Box} (sourced : w.Sourced past) (there : task ∈ w.client.tasks)
    (waits : task.waiting = .departure name t accepted reply) : t.closed = true := by
  have begun := sourced.tasks task there
  rwa [waits] at begun

theorem Grows.mem_commands (grows : c.Grows d) {command : Command}
    (there : command ∈ past ++ c.commands) : command ∈ past ++ d.commands := by
  obtain ⟨new, same, -⟩ := grows.commands
  rw [same, ← List.append_assoc]
  exact List.mem_append_left _ there

theorem Work.Sourced.part (sourced : w.Sourced past) (part : Part w w')
    (owned : ∀ b, w'.Owned b) : w'.Sourced past := by
  have old : ∀ command ∈ past ++ w.client.commands, command ∈ past ++ w'.client.commands :=
    fun command there => part.grows.mem_commands there
  have posts := posts_of_grows part.grows
  have told : ∀ e ∈ w.client.session.posts, e ∈ w'.client.session.posts :=
    fun e there => posts ▸ there
  refine ⟨fun u there => ?_, fun task there => ?_, fun h command there removes => ?_,
    fun command there => ?_⟩
  · obtain ⟨t, among, descends⟩ := part.descends u there
    exact descends.arises ((sourced.tickets t among).mono old told)
  · rcases part.begun task there with before | ⟨begun, -⟩
    · exact (sourced.tasks task before).mono old
    · exact begun.mono fun command there => List.mem_append_right _ there
  · have before : command ∈ past ++ w.client.commands → ∃ b,
        Comes (past ++ w'.client.commands) w'.client.session.posts h b ∧ w'.Spent b := by
      intro there
      obtain ⟨b, comes, spent⟩ := sourced.removed h command there removes
      exact ⟨b, comes.mono old told, spent.part part⟩
    rcases List.mem_append.mp there with past' | queue
    · exact before (List.mem_append_left _ past')
    · rcases part.lets command queue with queue' | lets
      · exact before (List.mem_append_right _ queue')
      · obtain ⟨t, among, -, route, done⟩ := lets.removes h removes
        have arises := sourced.tickets t (mem_tickets.mpr (Or.inl among))
        obtain ⟨b, box, comes⟩ := (arises.mono old told).comes route
        exact ⟨b, comes, (owned b).spent (done b (by simp [Ticket.owns, box]))⟩
  · have before : command ∈ past ++ w.client.commands →
        command.Formed (Names w'.client.session.posts) := fun there =>
      (sourced.formed command there).mono fun _ _ _ names => names.mono told
    rcases List.mem_append.mp there with past' | queue
    · exact before (List.mem_append_left _ past')
    · rcases part.lets command queue with queue' | lets
      · exact before (List.mem_append_right _ queue')
      · refine lets.formed.mono ?_
        rintro _ _ _ ⟨t, among, rfl, rfl, rfl⟩
        have arises : t.Arises _ _ := sourced.tickets (.feed t) (mem_tickets.mpr (Or.inl among))
        exact arises.names.mono told

theorem Work.Sourced.parts (sourced : w.Sourced past) (parts : Parts w w')
    (owned : ∀ b, w.Owned b) : w'.Sourced past := by
  induction parts with
  | refl => exact sourced
  | tail before part ih =>
    exact ih.part part fun b => ((owned b).parts before).tallies part.grows (part.tallies b)

/-! ### Operations that go on -/

theorem Yields.arises {v : Waiting} {us : List Ticket} {outcome : Outcome}
    (yields : c.Yields v us outcome)
    (tickets : ∀ t ∈ v.tickets, t.Arises (past ++ c.commands) c.session.posts)
    (begun : v.Begun (past ++ c.commands)) :
    ∀ u ∈ us, u.Arises (past ++ c.commands) c.session.posts := by
  cases yields with
  | same plain idle outcome => exact tickets
  | @accepted request procedure accepted box keep route was outcome =>
    intro u there
    rw [List.mem_singleton.mp there]
    obtain ⟨m, asked⟩ := begun
    exact ⟨m, accepted, asked, mem_posts_of_wasAccepted was⟩
  | @enrolled kind name pattern accepted reply box came route id replied confirms outcome =>
    intro u there
    rw [List.mem_singleton.mp there]
    obtain ⟨first, second, m, request, asked⟩ := begun
    obtain ⟨route', was⟩ := accepted_of_replied replied
    exact ⟨m, request, accepted, reply, route', came, ⟨first, second⟩, asked,
      mem_posts_of_wasAccepted was, mem_posts_of_replied replied, confirms⟩
  | settled stream last => exact tickets
  | @result name t came stream more next =>
    have held := tickets (t.kept stream) List.mem_cons_self
    rw [CallTicket.arises_kept] at held
    intro u there
    rw [List.mem_singleton.mp there, CallTicket.arises_kept]
    exact held
  | @event name t keep e next =>
    have held := tickets (.feed t) List.mem_cons_self
    intro u there
    rw [List.mem_singleton.mp there]
    exact held
  | @invocation name t keep i cell next canceled =>
    have held := tickets (.feed t) List.mem_cons_self
    intro u there
    rcases List.mem_pair.mp there with rfl | rfl
    · exact held
    · trivial
  | drained next other other' => exact tickets

/-- A box of an operation that goes on was one of its boxes, or of its tickets, before. -/
theorem Yields.owns_origin {v : Waiting} {us : List Ticket} {outcome : Outcome}
    (yields : c.Yields v us outcome) {u : Ticket} (there : u ∈ us) (own : u.owns b = true) :
    b ∈ v.boxes ∨ ∃ t ∈ v.tickets, t.owns b = true ∧ (t.isClosed = true → u.isClosed = true) := by
  cases yields with
  | same plain idle outcome => exact Or.inr ⟨u, there, own, fun closed => closed⟩
  | @accepted request procedure accepted box keep route was outcome =>
    obtain rfl := List.mem_singleton.mp there
    obtain rfl : box = b := by simpa [CallTicket.opened] using own
    exact Or.inl (List.mem_cons_of_mem _ List.mem_cons_self)
  | @enrolled kind name pattern accepted reply box came route id replied confirms outcome =>
    obtain rfl := List.mem_singleton.mp there
    obtain rfl : box = b := by simpa [FeedTicket.opened] using own
    exact Or.inl (List.mem_cons_of_mem _ (List.mem_cons_of_mem _ List.mem_cons_self))
  | settled stream last => exact Or.inr ⟨u, there, own, fun closed => closed⟩
  | @result name t came stream more next =>
    obtain rfl := List.mem_singleton.mp there
    refine Or.inr ⟨t.kept stream, List.mem_cons_self, ?_, fun closed => ?_⟩
    · rw [CallTicket.owns_kept] at own ⊢
      exact own
    · cases stream <;> cases closed
  | @event name t keep e next =>
    obtain rfl := List.mem_singleton.mp there
    exact Or.inr ⟨.feed t, List.mem_cons_self, own, fun closed => closed⟩
  | @invocation name t keep i cell next canceled =>
    rcases List.mem_pair.mp there with rfl | rfl
    · exact Or.inr ⟨.feed t, List.mem_cons_self, own, fun closed => closed⟩
    · cases own
  | drained next other other' => exact Or.inr ⟨u, there, own, fun closed => closed⟩

theorem mem_heldTickets_without {number : Nat} {t : Ticket}
    (there : t ∈ (c.without number).heldTickets) : t ∈ c.heldTickets := by
  rcases mem_heldTickets.mp there with old | ⟨task, among, own⟩
  · exact mem_heldTickets.mpr (Or.inl old)
  · exact mem_heldTickets.mpr (Or.inr ⟨task, List.mem_of_mem_filter among, own⟩)

/-- A client without one of its operations, whose tickets have come into the hands. -/
theorem Work.Sourced.handed {task : Task} (sourced : Work.Sourced past ⟨c, []⟩)
    (there : task ∈ c.tasks) {us : List Ticket}
    (arises : ∀ u ∈ us, u.Arises (past ++ c.commands) c.session.posts)
    (origin : ∀ b, ∀ u ∈ us, u.owns b = true → b ∈ task.waiting.boxes ∨
      ∃ t ∈ task.waiting.tickets, t.owns b = true ∧ (t.isClosed = true → u.isClosed = true)) :
    Work.Sourced past ⟨c.without task.number, us⟩ where
  tickets u out := by
    rcases mem_tickets.mp out with handed | held
    · exact arises u handed
    · exact sourced.tickets u (mem_tickets.mpr (Or.inr (mem_heldTickets_without held)))
  tasks other among := sourced.tasks other (List.mem_of_mem_filter among)
  removed h command asked removes := by
    obtain ⟨b, comes, spent⟩ := sourced.removed h command asked removes
    refine ⟨b, comes, spent.given, fun u out own => ?_, fun other among =>
      spent.boxes other (List.mem_of_mem_filter among)⟩
    rcases mem_tickets.mp out with handed | held
    · rcases origin b u handed own with box | ⟨t, mine, own', closed⟩
      · exact absurd box (spent.boxes task there)
      · exact closed (spent.tickets t (mem_tickets_of_waiting there mine) own')
    · exact spent.tickets u (mem_tickets.mpr (Or.inr (mem_heldTickets_without held))) own
  formed := sourced.formed

theorem Work.Sourced.resumes {task : Task} {outcome : Outcome}
    (sourced : Work.Sourced past ⟨c, []⟩) (there : task ∈ c.tasks)
    (resumes : c.Resumes (c.without task.number).tasks task.waiting outcome w)
    (owned : ∀ b, w.Owned b) : w.Sourced past := by
  have held : ∀ t ∈ task.waiting.tickets, t.Arises (past ++ c.commands) c.session.posts :=
    fun t own => sourced.tickets t (mem_tickets_of_waiting there own)
  have begun := sourced.tasks task there
  have none' : Work.Sourced past ⟨c.without task.number, []⟩ :=
    sourced.handed there (fun _ out => absurd out List.not_mem_nil)
      fun _ _ out => absurd out List.not_mem_nil
  cases resumes with
  | resumed yields =>
    exact sourced.handed there (yields.arises held begun) fun b u out own =>
      yields.owns_origin out own
  | @refused box bare own =>
    have posts : ((c.without task.number).forget box).session.posts = c.session.posts := rfl
    exact ⟨none'.tickets, none'.tasks, fun h command asked removes => by
      obtain ⟨b, comes, spent⟩ := none'.removed h command asked removes
      exact ⟨b, comes, spent.given, spent.tickets, spent.boxes⟩, none'.formed⟩
  | @settled t waits =>
    have kept : Work.Sourced past ⟨c.without task.number, [.call { t with settled := true }]⟩ := by
      refine sourced.handed there (fun u out => ?_) fun b u out own => ?_
      · rw [List.mem_singleton.mp out]
        exact held (.call t) (waits ▸ List.mem_cons_self)
      · rw [List.mem_singleton.mp out] at own ⊢
        exact Or.inr ⟨.call t, waits ▸ List.mem_cons_self, own, fun closed => nomatch closed⟩
    exact kept.part (.released (.call { t with settled := true })) owned
  | @ceased name t accepted reply waits =>
    have kept : Work.Sourced past ⟨c.without task.number, [.feed t]⟩ := by
      refine sourced.handed there (fun u out => ?_) fun b u out own => ?_
      · rw [List.mem_singleton.mp out]
        exact held (.feed t) (waits ▸ List.mem_cons_self)
      · rw [List.mem_singleton.mp out] at own ⊢
        exact Or.inr ⟨.feed t, waits ▸ List.mem_cons_self, own, fun closed => closed⟩
    have closed := sourced.closed_of_waits there waits
    have old : ∀ command ∈ past ++ c.commands,
        command ∈ past ++ (c.commands ++ [.removeRoute t.route]) := fun command among => by
      rw [← List.append_assoc]
      exact List.mem_append_left _ among
    have either : ∀ command ∈ past ++ (c.commands ++ [.removeRoute t.route]),
        command ∈ past ++ c.commands ∨ command = .removeRoute t.route := fun command among => by
      rw [← List.append_assoc] at among
      exact (List.mem_append.mp among).imp_right List.mem_singleton.mp
    refine ⟨fun u out => (kept.tickets u out).mono old fun _ put => put,
      fun other among => (kept.tasks other among).mono old, fun h command among removes => ?_,
      fun command among => ?_⟩
    · rcases either command among with before | rfl
      · obtain ⟨b, comes, spent⟩ := kept.removed h command before removes
        exact ⟨b, comes.mono old fun _ put => put, spent.given, spent.tickets, spent.boxes⟩
      · have route : (Ticket.feed t).route? = some h := by
          simpa [Command.removes, Ticket.route?] using removes
        have own : Ticket.feed t ∈ Work.tickets ⟨c.without task.number, [.feed t]⟩ :=
          mem_tickets.mpr (Or.inl List.mem_cons_self)
        obtain ⟨b, box, comes⟩ := (kept.tickets (.feed t) own).comes route
        exact ⟨b, comes.mono old fun _ put => put,
          (owned b).spent (Or.inr ⟨.feed t, own, by simp [Ticket.owns, box], closed⟩)⟩
    · rcases either command among with before | rfl
      · exact kept.formed command before
      · exact .removeRoute _

theorem Work.Sourced.turned {task : Task} {number : Nat} {request : Id} {procedure : Uri}
    {accepted box : Box} {route : Handle} (sourced : Work.Sourced past ⟨c, []⟩)
    (found : c.tasks.find? (fun t => t.number == number) = some task)
    (waits : task.waiting = .call request procedure accepted box none)
    (was : c.wasAccepted accepted = some (.ok route)) :
    Work.Sourced past ⟨{ c with tasks := c.tasks.map fun t =>
      if t.number = number then
        { t with waiting := .lastOutcome (CallTicket.opened request procedure route box) }
      else t }, []⟩ := by
  have there := List.mem_of_find?_eq_some found
  let new := CallTicket.opened request procedure route box
  have arises : new.Arises (past ++ c.commands) c.session.posts := by
    have begun := sourced.tasks task there
    rw [waits] at begun
    obtain ⟨m, asked⟩ := begun
    exact ⟨m, accepted, asked, mem_posts_of_wasAccepted was⟩
  have origin : ∀ u ∈ Work.tickets ⟨{ c with tasks := c.tasks.map fun t =>
      if t.number = number then { t with waiting := .lastOutcome new } else t }, []⟩,
      u ∈ c.heldTickets ∨ u = .call new := fun u out =>
    mem_heldTickets_turned ((mem_tickets.mp out).resolve_left List.not_mem_nil)
  refine ⟨fun u out => ?_, fun other among => ?_, fun h command asked removes => ?_,
    sourced.formed⟩
  · rcases origin u out with old | rfl
    · exact sourced.tickets u (mem_tickets.mpr (Or.inr old))
    · exact arises
  · rcases mem_turned among with old | waits'
    · exact sourced.tasks other old
    · rw [waits']
      trivial
  · obtain ⟨b, comes, spent⟩ := sourced.removed h command asked removes
    refine ⟨b, comes, spent.given, fun u out own => ?_, fun other among own => ?_⟩
    · rcases origin u out with old | rfl
      · exact spent.tickets u (mem_tickets.mpr (Or.inr old)) own
      · obtain rfl : box = b := by
          simpa [new, CallTicket.opened] using own
        have mine : box ∈ task.waiting.boxes := by simp [waits, Waiting.boxes]
        exact absurd mine (spent.boxes task there)
    · rcases mem_turned among with old | waits'
      · exact spent.boxes other old own
      · simp [waits', Waiting.boxes] at own

theorem Work.Sourced.polls {number : Nat} (sourced : Work.Sourced past ⟨c, []⟩)
    (orderly : c.Orderly) (polls : c.Polls number d) : Work.Sourced past ⟨d, []⟩ := by
  cases polls with
  | still none' => exact sourced
  | turned found moved waits was => exact sourced.turned found waits was
  | @ended task d e outcome v found moved resumes parts =>
    have there := List.mem_of_find?_eq_some found
    have mine : task.number = number := by simpa using List.find?_some found
    subst mine
    have owned : ∀ b, v.Owned b := fun b =>
      (orderly.owned b).tallies resumes.grows (Or.inl (resumes.tally_le there b))
    exact (sourced.resumes there resumes owned).parts parts owned

/-! ### Moves -/

theorem Work.Sourced.step (sourced : Work.Sourced past ⟨c, []⟩) (sound : c.session.Sound)
    (input : Input) {commands : List Command} (queue : c.commands = cmds ++ commands) :
    Work.Sourced (past ++ cmds) ⟨{ c with session := c.session.step input, commands }, []⟩ := by
  have same : past ++ cmds ++ commands = past ++ c.commands := by rw [queue, List.append_assoc]
  have told : ∀ e ∈ c.session.posts, e ∈ (c.session.step input).posts :=
    fun e there => Session.posts_of_mem_step sound input there
  refine ⟨fun t there => ?_, fun task there => ?_, fun h command there removes => ?_,
    fun command there => ?_⟩
  · have arises := sourced.tickets t there
    exact same ▸ arises.mono (fun _ put => put) told
  · have begun := sourced.tasks task there
    exact same ▸ begun
  · have asked : command ∈ past ++ c.commands := same ▸ there
    obtain ⟨b, comes, spent⟩ := sourced.removed h command asked removes
    exact ⟨b, same ▸ comes.mono (fun _ put => put) told, spent.given, spent.tickets, spent.boxes⟩
  · exact (sourced.formed command (same ▸ there)).mono fun _ _ _ known => known.mono told

theorem Work.Sourced.moves (sourced : Work.Sourced past ⟨c, []⟩) (sound : c.session.Sound)
    (orderly : c.Orderly) (moves : c.Moves cmds d) : Work.Sourced (past ++ cmds) ⟨d, []⟩ := by
  cases moves with
  | takes input outer heeds => exact sourced.step sound input rfl
  | serves next => exact sourced.step sound _ next
  | acts parts =>
    rw [List.append_nil]
    exact sourced.parts parts orderly.owned
  | polls polls =>
    rw [List.append_nil]
    exact sourced.polls orderly polls

/-- All that is known of a client when these commands have been taken up. -/
structure Settled (past : List Command) (c : Client) : Prop where
  books : Books past c
  orderly : c.Orderly
  sourced : Work.Sourced past ⟨c, []⟩

theorem settled_joined (wire : Wire) (now closeTimeout : Nat) (ids : IdSource) (id : Id)
    (realm : Uri) (details : Dictionary) :
    Settled [] (joined (Session.established wire now closeTimeout) ids id realm details) where
  books := books_joined wire now closeTimeout ids id realm details
  orderly := orderly_joined wire now closeTimeout ids id realm details
  sourced := ⟨fun _ there => absurd there List.not_mem_nil,
    fun _ there => absurd there List.not_mem_nil, fun _ _ there => absurd there List.not_mem_nil,
    fun _ there => absurd there List.not_mem_nil⟩

theorem Settled.move (settled : Settled past c) (m : Move) :
    Settled (past ++ c.taken m) (c.move m) := by
  have moves := Client.moves c m
  obtain ⟨books, orderly, sourced⟩ := settled
  exact ⟨books.moves moves, orderly.moves books.sound moves,
    sourced.moves books.sound orderly moves⟩

theorem Settled.run (settled : Settled past c) (ms : List Move) :
    Settled (past ++ c.served ms) (c.run ms) :=
  run_of_moves settled (fun settled m => settled.move m) ms

/-! ### What follows for a ticket that is held -/

section

variable {t u : FeedTicket}

/-- Nobody has asked for the route of a ticket to be taken out that was not given up. -/
theorem Settled.spares (settled : Settled past c) (held : .feed t ∈ c.heldTickets)
    (opened : t.closed = false) :
    ∀ command ∈ past ++ c.commands, command.removes t.route = false :=
  settled.sourced.spares settled.books (mem_tickets.mpr (Or.inr held)) opened rfl

/-- Two tickets never share a route. -/
theorem Settled.eq_of_route (settled : Settled past c) {t u : Ticket} (ht : t ∈ c.heldTickets)
    (hu : u ∈ c.heldTickets) {h : Handle} (mine : t.route? = some h) (yours : u.route? = some h) :
    t = u :=
  settled.sourced.eq_of_route settled.books settled.orderly.owned (mem_tickets.mpr (Or.inr ht))
    (mem_tickets.mpr (Or.inr hu)) mine yours

end

end Client

end WampClient
