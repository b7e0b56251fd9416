import WampClient.Proofs.Client.Contents
import WampClient.Proofs.Session.Offers

/-! What the routes of a client are there for. Answers to calls are taken by the routes of calls
alone, and what takes a route out along with a reply is a request to leave the registration or
subscription that the route was installed for. -/
namespace WampClient

/-- What the route is there for: what comes in for a registration or subscription that a reply has
confirmed to whoever had asked for it, the interrupts of an invocation, or the replies to a request
that was asked for. -/
inductive Route.Serves (asked : List Command) (posts : List (Box × Post)) (x : Route Target) :
    Prop where
  | items {kind : FeedKind} {box : Box} {id : Id} (handler : x.handler = .feed (kind.feed box))
      (keys : x.keys = [kind.itemKey id]) (names : Names posts kind id x.handle)
      (enrols : ∃ m request reply answer, .request m (kind.enrolmentKeys request)
        (.reply (some reply) (some (.install (kind.feed box)))) answer ∈ asked)
  | interrupts {cell : Cell} {request : Id} (handler : x.handler = .interrupt cell)
      (keys : x.keys = [RouteKey.ofReply .interrupt request])
  | replies {m : Message} {answer : Option Box}
      (among : .request m x.keys x.handler answer ∈ asked)

theorem Route.Serves.mono {asked more : List Command} {posts later : List (Box × Post)}
    {x : Route Target} (serves : x.Serves asked posts) (old : ∀ command ∈ asked, command ∈ more)
    (told : ∀ e ∈ posts, e ∈ later) : x.Serves more later := by
  cases serves with
  | items handler keys names enrols =>
    obtain ⟨m, request, reply, answer, among⟩ := enrols
    exact .items handler keys (names.mono told) ⟨m, request, reply, answer, old _ among⟩
  | interrupts handler keys => exact .interrupts handler keys
  | replies among => exact .replies (old _ among)

/-- Who waits for a reply has asked for it. -/
theorem Route.Serves.request {asked : List Command} {posts : List (Box × Post)} {x : Route Target}
    {box : Option Box} {change : Option RouteChange} (serves : x.Serves asked posts)
    (waits : x.handler = .reply box change) :
    ∃ m answer, .request m x.keys x.handler answer ∈ asked := by
  cases serves with
  | items handler keys names enrols => cases waits.symm.trans handler
  | interrupts handler keys => cases waits.symm.trans handler
  | replies among => exact ⟨_, _, among⟩

/-! ### Keys -/

theorem ofMessage_of_answersCall {m : Message} {id : Id} (answers : m.answersCall id = true) :
    RouteKey.ofMessage m = RouteKey.ofReply .result id ∨
      RouteKey.ofMessage m = RouteKey.ofRefusal .call id := by
  cases m with
  | result request details payload =>
    obtain rfl : request = id := by simpa [Message.answersCall] using answers
    exact Or.inl rfl
  | error requestType request details reason payload =>
    obtain ⟨rfl, rfl⟩ : requestType = MessageType.call.code ∧ request = id := by
      simpa [Message.answersCall] using answers
    exact Or.inr rfl
  | _ => cases answers

theorem id_of_answersCall {m : Message} {id other : Id} (answers : m.answersCall id = true)
    (answers' : m.answersCall other = true) : id = other := by
  rcases ofMessage_of_answersCall answers with own | own <;>
    rcases ofMessage_of_answersCall answers' with own' | own' <;>
      simpa [RouteKey.ofReply, RouteKey.ofRefusal] using own.symm.trans own'

theorem plain_of_answersCall {m : Message} {id : Id} (answers : m.answersCall id = true) :
    ∀ request registration details payload,
      m ≠ .invocation request registration details payload := by
  rintro request registration details payload rfl
  exact nomatch answers

/-- The one key that stands for answers to calls among those of a request is its own. -/
theorem Command.Formed.call_of_takes {known : FeedKind → Id → Handle → Prop} {m came : Message}
    {keys : List RouteKey} {target : Target} {answer : Option Box} {h : Handle} {id : Id}
    (formed : (Command.request m keys target answer).Formed known)
    (takes : (⟨h, keys, target⟩ : Route Target).takes (RouteKey.ofMessage came) = true)
    (answers : came.answersCall id = true) :
    keys = Client.callKeys id ∧ ∃ b, target = .call b := by
  cases formed with
  | call request options procedure payload box answer =>
    rw [takes_callKeys] at takes
    rw [id_of_answersCall takes answers]
    exact ⟨rfl, box, rfl⟩
  | publish request options topic payload reply answer =>
    rcases ofMessage_of_answersCall answers with own | own <;>
      simp [own, Route.takes, Client.publishKeys, RouteKey.covers, RouteKey.ofReply,
        RouteKey.ofRefusal, MessageType.code] at takes
  | enrol kind request options pattern reply box answer =>
    cases kind <;> rcases ofMessage_of_answersCall answers with own | own <;>
      simp [own, Route.takes, FeedKind.enrolmentKeys, RouteKey.covers, RouteKey.ofReply,
        RouteKey.ofRefusal, MessageType.code] at takes
  | @depart kind own' route own request reply answer =>
    cases kind <;> rcases ofMessage_of_answersCall answers with own | own <;>
      simp [own, Route.takes, FeedKind.departureKeys, RouteKey.covers, RouteKey.ofReply,
        RouteKey.ofRefusal, MessageType.code] at takes

/-- What comes back for a call, nobody else asks for. -/
theorem Command.Formed.call_of_target {known : FeedKind → Id → Handle → Prop} {m : Message}
    {keys : List RouteKey} {b : Box} {answer : Option Box}
    (formed : (Command.request m keys (.call b) answer).Formed known) :
    ∃ request options procedure payload, m = .call request options procedure payload ∧
      keys = Client.callKeys request := by
  cases formed with
  | call request options procedure payload box answer => exact ⟨_, _, _, _, rfl, rfl⟩

/-- A request that takes a route out leaves the registration or subscription of the route. -/
theorem Command.Formed.depart_of_removes {known : FeedKind → Id → Handle → Prop} {m : Message}
    {keys : List RouteKey} {target : Target} {answer : Option Box} {h : Handle}
    (formed : (Command.request m keys target answer).Formed known)
    (removes : target.removes h = true) :
    ∃ kind id request reply, known kind id h ∧ m = kind.departure request id ∧
      keys = kind.departureKeys request ∧ target = .reply reply (some (.remove h)) := by
  cases formed with
  | @depart kind id route own request reply answer =>
    obtain rfl : route = h := by simpa [Target.removes] using removes
    exact ⟨kind, id, request, reply, own, rfl, rfl, rfl⟩
  | _ => simp [Target.removes] at removes

/-- A reply that confirms a registration or subscription is taken by a request for one of its kind,
whose waiter is told. -/
theorem Command.Formed.enrols_of_takes {known : FeedKind → Id → Handle → Prop} {q m : Message}
    {keys : List RouteKey} {box answer : Option Box} {feed : Feed} {key : RouteKey} {h : Handle}
    (formed : (Command.request q keys (.reply box (some (.install feed))) answer).Formed known)
    (takes : (⟨h, keys, .reply box (some (.install feed))⟩ : Route Target).takes
      (RouteKey.ofMessage m) = true) (confirms : m.enrolledKey? = some key) :
    ∃ (kind : FeedKind) (request id : Id) (reply b : Box), keys = kind.enrolmentKeys request ∧
      box = some reply ∧ feed = kind.feed b ∧ key = kind.itemKey id ∧
        kind.enrolled? m = some id := by
  cases formed with
  | enrol kind request options pattern reply b answer =>
    have enrolled : ∃ id, kind.enrolled? m = some id := by
      cases kind <;> cases m <;> simp_all [Message.enrolledKey?, Route.takes, RouteKey.covers,
        FeedKind.enrolmentKeys, FeedKind.enrolled?, RouteKey.ofMessage, RouteKey.ofReply,
        RouteKey.ofRefusal, Message.code, Message.type?, MessageType.code]
    obtain ⟨id, enrolled⟩ := enrolled
    have own := FeedKind.enrolledKey_of_enrolled enrolled
    exact ⟨kind, request, id, reply, b, rfl, rfl, rfl, Option.some.inj (confirms.symm.trans own),
      enrolled⟩

/-- No request of a client is answered with an INVOCATION. -/
theorem Command.Formed.passes_invocation {known : FeedKind → Id → Handle → Prop} {q : Message}
    {keys : List RouteKey} {target : Target} {answer : Option Box}
    (formed : (Command.request q keys target answer).Formed known) (h : Handle) (g : Id) :
    (⟨h, keys, target⟩ : Route Target).takes (RouteKey.ofReply .invocation g) = false := by
  cases formed with
  | call request options procedure payload box answer =>
    simp [Route.takes, Client.callKeys, RouteKey.covers, RouteKey.ofReply, RouteKey.ofRefusal,
      MessageType.code]
  | publish request options topic payload reply answer =>
    simp [Route.takes, Client.publishKeys, RouteKey.covers, RouteKey.ofReply, RouteKey.ofRefusal,
      MessageType.code]
  | enrol kind request options pattern reply box answer =>
    cases kind <;> simp [Route.takes, FeedKind.enrolmentKeys, RouteKey.covers, RouteKey.ofReply,
      RouteKey.ofRefusal, MessageType.code]
  | @depart kind id route own request reply answer =>
    cases kind <;> simp [Route.takes, FeedKind.departureKeys, RouteKey.covers, RouteKey.ofReply,
      RouteKey.ofRefusal, MessageType.code]

namespace Client

variable {c d : Client} {past cmds : List Command} {ms : List Move} {y : Route Target} {h : Handle}
  {id : Id} {m : Message}

/-! ### Runs -/

theorem serves_moves (settled : Settled past c)
    (serves : ∀ y ∈ c.session.router.routes, y.Serves past c.session.posts)
    (moves : c.Moves cmds d) :
    ∀ y ∈ d.session.router.routes, y.Serves (past ++ cmds) d.session.posts := by
  have sound := settled.books.sound
  -- a route that is new was put in by a step of the session
  have stepped : ∀ input, (∀ command, input = .command command → command ∈ cmds) →
      (∀ command ∈ cmds, command ∈ c.commands) → ∀ y ∈ (c.session.step input).router.routes,
        y.Serves (past ++ cmds) (c.session.step input).posts := by
    intro input asks queued y there
    have told : ∀ e ∈ c.session.posts, e ∈ (c.session.step input).posts := fun e put =>
      Session.posts_of_mem_step sound input put
    rcases Session.route_origin_step sound there with before |
      ⟨feed, handler, m, key, box, confirms, keys, ⟨z, among, waits, takes⟩, put⟩ |
      ⟨cell, handler, request, keys⟩ | ⟨m, box, same⟩
    · exact (serves y before).mono (fun _ => List.mem_append_left _) told
    · obtain ⟨q, answer, asked⟩ : ∃ q answer,
          .request q z.keys z.handler answer ∈ past ++ cmds := by
        have before : z ∈ c.session.router.routes → ∃ q answer,
            .request q z.keys z.handler answer ∈ past ++ cmds := fun old => by
          obtain ⟨q, answer, asked⟩ := (serves z old).request waits
          exact ⟨q, answer, List.mem_append_left _ asked⟩
        rcases Session.prepared_cases c.session input with
          same | ⟨q, own, target, answer, is, -, added⟩
        · exact before (same ▸ among)
        · rw [added] at among
          rcases Session.mem_routes_add.mp among with old | rfl
          · exact before old
          · exact ⟨q, answer, List.mem_append_right _ (asks _ is)⟩
      have formed := settled.sourced.formed _ ((List.mem_append.mp asked).elim
        (List.mem_append_left _) fun new => List.mem_append_right _ (queued _ new))
      rw [waits] at formed asked
      obtain ⟨kind, request, id, reply, b, own, rfl, rfl, rfl, enrolled⟩ :=
        formed.enrols_of_takes (h := z.handle) (by rw [← waits]; exact takes) confirms
      rw [own] at asked
      exact .items handler keys ⟨reply, m, put reply rfl, enrolled⟩
        ⟨q, request, reply, answer, asked⟩
    · exact .interrupts handler keys
    · exact .replies (List.mem_append_right _ (asks _ same))
  have quiet : c.Grows d →
      ∀ y ∈ d.session.router.routes, y.Serves (past ++ []) d.session.posts := by
    intro grows
    rw [(outlook_grows grows 0).2.1, posts_of_grows grows, List.append_nil]
    exact serves
  cases moves with
  | takes input outer heeds =>
    exact stepped input (fun command same => absurd same (outer command)) (by simp)
  | serves next =>
    refine stepped _ (fun command same => ?_) fun command there => ?_
    · rw [Input.command.inj same]
      exact List.mem_singleton_self _
    · rw [next, List.mem_singleton.mp there]
      exact List.mem_cons_self
  | acts parts => exact quiet (Parts.grows parts)
  | polls polls => exact quiet polls.grows

theorem Settled.serves (settled : Settled past c)
    (serves : ∀ y ∈ c.session.router.routes, y.Serves past c.session.posts) (ms : List Move) :
    ∀ y ∈ (c.run ms).session.router.routes,
      y.Serves (past ++ c.served ms) (c.run ms).session.posts := by
  induction ms generalizing c past with
  | nil =>
    rw [served, List.append_nil]
    exact serves
  | cons m rest ih =>
    have all := ih (settled.move m) (serves_moves settled serves (Client.moves c m))
    rwa [List.append_assoc] at all

theorem Fresh.serves (fresh : Fresh c) (there : y ∈ (c.run ms).session.router.routes) :
    y.Serves (c.served ms) (c.run ms).session.posts := by
  refine fresh.settled.serves (fun y there => ?_) ms y there
  rw [fresh.bare] at there
  exact absurd there List.not_mem_nil

theorem Fresh.formed (fresh : Fresh c) {command : Command} (asked : command ∈ c.served ms) :
    command.Formed (Names (c.run ms).session.posts) :=
  (fresh.settled.run ms).sourced.formed command (List.mem_append_left _ asked)

/-- Answers to calls are taken by the routes of calls alone. -/
theorem Fresh.call_of_takes (fresh : Fresh c) (there : y ∈ (c.run ms).session.router.routes)
    (takes : y.takes (RouteKey.ofMessage m) = true) (answers : m.answersCall id = true) :
    y.keys = callKeys id ∧ ∃ b, y.handler = .call b := by
  cases fresh.serves there with
  | @items kind box id handler keys names enrols =>
    have other : y.takes (RouteKey.ofMessage m) = false := by
      rw [Route.takes, keys]
      cases kind <;> rcases ofMessage_of_answersCall answers with own | own <;>
        simp [own, FeedKind.itemKey, RouteKey.covers, RouteKey.ofReply, RouteKey.ofRefusal,
          MessageType.code]
    cases other.symm.trans takes
  | interrupts handler keys =>
    have other : y.takes (RouteKey.ofMessage m) = false := by
      rw [Route.takes, keys]
      rcases ofMessage_of_answersCall answers with own | own <;>
        simp [own, RouteKey.covers, RouteKey.ofReply, RouteKey.ofRefusal, MessageType.code]
    cases other.symm.trans takes
  | replies among => exact (fresh.formed among).call_of_takes (h := y.handle) takes answers

/-- INVOCATIONs are taken by the routes of registrations alone, under the ids that these were
confirmed with. -/
theorem Fresh.registration_of_takes (fresh : Fresh c)
    (there : y ∈ (c.run ms).session.router.routes)
    (takes : y.takes (RouteKey.ofReply .invocation id) = true) :
    ∃ b, y.handler = .feed (.invocations b) ∧ (∀ key ∈ y.keys, key.id ≠ none) ∧
      Names (c.run ms).session.posts .registration id y.handle ∧
        ∃ q request reply answer, .request q (FeedKind.registration.enrolmentKeys request)
          (.reply (some reply) (some (.install (.invocations b)))) answer ∈ c.served ms := by
  cases fresh.serves there with
  | @items kind box own handler keys names enrols =>
    rw [Route.takes, keys] at takes
    cases kind with
    | registration =>
      obtain rfl : own = id := by
        simpa [FeedKind.itemKey, RouteKey.covers, RouteKey.ofReply] using takes
      refine ⟨box, handler, ?_, names, enrols⟩
      rw [keys]
      simp [FeedKind.itemKey, RouteKey.ofReply]
    | subscription =>
      simp [FeedKind.itemKey, RouteKey.covers, RouteKey.ofReply, MessageType.code] at takes
  | interrupts handler keys =>
    rw [Route.takes, keys] at takes
    simp [RouteKey.covers, RouteKey.ofReply, MessageType.code] at takes
  | replies among =>
    cases ((fresh.formed among).passes_invocation y.handle id).symm.trans takes

theorem Fresh.hosts (fresh : Fresh c) (ms : List Move) (registration : Id) :
    (c.run ms).session.Hosts registration := by
  intro y there takes
  obtain ⟨b, handler, ided, -⟩ := fresh.registration_of_takes there takes
  exact ⟨⟨b, handler⟩, ided⟩

/-- What takes a route out with its reply is a request to leave the registration or subscription
that the route was made known for. -/
theorem Fresh.depart_of_removes (fresh : Fresh c) (there : y ∈ (c.run ms).session.router.routes)
    (removes : y.handler.removes h = true) :
    ∃ kind id request reply answer, Names (c.run ms).session.posts kind id h ∧
      y.keys = kind.departureKeys request ∧ y.handler = .reply reply (some (.remove h)) ∧
        .request (kind.departure request id) (kind.departureKeys request)
          (.reply reply (some (.remove h))) answer ∈ c.served ms := by
  cases fresh.serves there with
  | items handler keys names enrols => simp [handler, Target.removes] at removes
  | interrupts handler keys => simp [handler, Target.removes] at removes
  | @replies m answer among =>
    obtain ⟨kind, id, request, reply, names, rfl, keys, handler⟩ :=
      (fresh.formed among).depart_of_removes removes
    exact ⟨kind, id, request, reply, answer, names, keys, handler, keys ▸ handler ▸ among⟩

/-- A route is made known for one registration or subscription. -/
theorem Books.names_unique (books : Books past c) {kind kind' : FeedKind} {id' : Id}
    (names : Names c.session.posts kind id h) (names' : Names c.session.posts kind' id' h) :
    kind = kind' ∧ id = id' := by
  obtain ⟨reply, came, told, confirms⟩ := names
  obtain ⟨reply', came', told', confirms'⟩ := names'
  obtain ⟨-, same⟩ := Prod.mk.inj (books.telling.once _ told _ told' h rfl rfl)
  obtain ⟨rfl, -⟩ := Prod.mk.inj (Except.ok.inj (Post.reply.inj same))
  cases kind <;> cases kind' <;> cases came <;> simp_all [FeedKind.enrolled?]

end Client

end WampClient
