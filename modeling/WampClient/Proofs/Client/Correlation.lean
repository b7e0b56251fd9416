import WampClient.Proofs.Client.Purposes
import WampClient.Proofs.Client.Readings
import WampClient.Proofs.Message.RoundTrip
import WampClient.Proofs.Session.Sendings

/-! How replies find their requests. The route of a request takes the one message that grants the
request and the ERRORs that name it, and no other message whatever. So whoever waits for a reply is
handed one of these, and no operation ever ends because of a reply that it did not ask for. -/
namespace WampClient

/-- The type of the message with which a request of a type is granted. -/
def MessageType.grant? : MessageType → Option MessageType
  | .publish => some .published
  | .subscribe => some .subscribed
  | .unsubscribe => some .unsubscribed
  | .call => some .result
  | .register => some .registered
  | .unregister => some .unregistered
  | _ => none

/-- The message is a reply to the request: it grants the request and carries its id, or it is an
ERROR that names the request by its type and its id. -/
inductive Message.Answers (q m : Message) : Prop where
  | grants {type reply : MessageType} {id : Id} (asks : q.type? = some type)
      (granted : type.grant? = some reply) (own : q.requestId? = some id)
      (is : m.type? = some reply) (same : m.requestId? = some id)
  | refuses {type : MessageType} {id : Id} (asks : q.type? = some type)
      (own : q.requestId? = some id) {details : Dictionary} {reason : Uri} {payload : Payload}
      (is : m = .error type.code id details reason payload)

/-! ### Keys -/

section

variable {m : Message} {type : MessageType} {id : Id}

theorem code_injective {type other : MessageType} (same : type.code = other.code) :
    type = other := by
  have back := congrArg MessageType.ofCode? same
  rwa [MessageType.ofCode?_code, MessageType.ofCode?_code, Option.some.injEq] at back

/-- What is looked up by the request that it answers has a type of its own. -/
theorem ofMessage_eq_ofReply (invocation : type ≠ .invocation) (event : type ≠ .event)
    (error : type ≠ .error) :
    RouteKey.ofMessage m = RouteKey.ofReply type id ↔
      m.type? = some type ∧ m.requestId? = some id := by
  cases m with
  | unknown code fields => simp [RouteKey.ofMessage, RouteKey.ofReply, Message.requestId?]
  | error requestType request details reason payload =>
    simp [RouteKey.ofMessage, RouteKey.ofReply, Message.type?, Ne.symm error]
  | invocation request registration details payload =>
    have other : MessageType.invocation.code ≠ type.code := fun same =>
      invocation (code_injective same).symm
    simp [RouteKey.ofMessage, RouteKey.ofReply, Message.type?, Ne.symm invocation, other]
  | event subscription publication details payload =>
    have other : MessageType.event.code ≠ type.code := fun same =>
      event (code_injective same).symm
    simp [RouteKey.ofMessage, RouteKey.ofReply, Message.type?, Ne.symm event, other]
  | _ =>
    simp only [RouteKey.ofMessage, RouteKey.ofReply, Message.type?, Message.requestId?,
      Message.code, RouteKey.mk.injEq, RouteKind.message.injEq, Option.map_some, Option.getD_some,
      Option.some.injEq, reduceCtorEq, and_false]
    try exact and_congr_left fun _ => ⟨code_injective, congrArg MessageType.code⟩

theorem ofMessage_eq_ofRefusal :
    RouteKey.ofMessage m = RouteKey.ofRefusal type id ↔
      ∃ details reason payload, m = .error type.code id details reason payload := by
  cases m <;> simp [RouteKey.ofMessage, RouteKey.ofReply, RouteKey.ofRefusal]

/-- Keys with an id stand for themselves alone. -/
theorem exists_covers_iff {keys : List RouteKey} {key : RouteKey}
    (ided : ∀ own ∈ keys, own.id ≠ none) :
    (∃ own ∈ keys, own.covers key = true) ↔ key ∈ keys := by
  constructor
  · rintro ⟨own, there, covers⟩
    obtain ⟨kind, id⟩ := own
    have some' := ided _ there
    cases key
    cases id <;> simp_all [RouteKey.covers]
  · intro there
    exact ⟨key, there, by simp [RouteKey.covers]⟩

/-- A route of two keys takes the message that grants a request, and ERRORs that name it. -/
theorem covers_pair_iff {q : Message} {reply : MessageType} (granted : type.grant? = some reply)
    (asks : q.type? = some type) (own : q.requestId? = some id) :
    (∃ key ∈ [RouteKey.ofReply reply id, RouteKey.ofRefusal type id],
      key.covers (RouteKey.ofMessage m) = true) ↔ q.Answers m := by
  have other : reply ≠ .invocation ∧ reply ≠ .event ∧ reply ≠ .error := by
    cases type <;> simp_all [MessageType.grant?] <;> simp [← granted]
  rw [exists_covers_iff (by simp [RouteKey.ofReply, RouteKey.ofRefusal]), List.mem_pair,
    ofMessage_eq_ofReply other.1 other.2.1 other.2.2, ofMessage_eq_ofRefusal]
  constructor
  · rintro (⟨is, same⟩ | ⟨details, reason, payload, is⟩)
    · exact .grants asks granted own is same
    · exact .refuses asks own is
  · rintro (⟨asks', granted', own', is, same⟩ | ⟨asks', own', is⟩)
    · obtain rfl := Option.some.inj (asks.symm.trans asks')
      obtain rfl := Option.some.inj (granted.symm.trans granted')
      obtain rfl := Option.some.inj (own.symm.trans own')
      exact Or.inl ⟨is, same⟩
    · obtain rfl := Option.some.inj (asks.symm.trans asks')
      obtain rfl := Option.some.inj (own.symm.trans own')
      exact Or.inr ⟨_, _, _, is⟩

end

/-- The routes of requests take the replies to them, and nothing else. -/
theorem Command.Formed.covers_iff {known : FeedKind → Id → Handle → Prop} {q m : Message}
    {keys : List RouteKey} {target : Target} {answer : Option Box}
    (formed : (Command.request q keys target answer).Formed known) :
    (∃ key ∈ keys, key.covers (RouteKey.ofMessage m) = true) ↔ q.Answers m := by
  cases formed with
  | call request options procedure payload box answer => exact covers_pair_iff rfl rfl rfl
  | publish request options topic payload reply answer => exact covers_pair_iff rfl rfl rfl
  | enrol kind request options pattern reply box answer =>
    cases kind <;> exact covers_pair_iff rfl rfl rfl
  | @depart kind id route own request reply answer =>
    cases kind <;> exact covers_pair_iff rfl rfl rfl

/-! ### What is handed to those who wait -/

/-- The message that is handed to someone who waits for a reply or a result. -/
def Post.came? : Post → Option Message
  | .reply (.ok (m, _)) => some m
  | .outcome (.ok m) => some m
  | _ => none

/-- With a reply that confirms a registration or subscription comes the route that was to be
installed for it. -/
def Target.Equips (t : Target) (p : Post) : Prop :=
  ∀ box feed m, t = .reply box (some (.install feed)) → p = .reply (.ok (m, none)) →
    m.enrolledKey? = none

/-- Results are put in for calls alone. -/
theorem Target.call_of_mem_posts {gone : List Box} {m : Message} {cell : Cell} {t : Target}
    {b : Box} {came : Except Failure Message} (put : (b, .outcome came) ∈ t.posts gone m cell) :
    t = .call b ∧ came = .ok m := by
  rcases t with ⟨box, change⟩ | box | ⟨box | box⟩ | cell
  · exact absurd put List.not_mem_nil
  · simp only [posts] at put
    split at put
    · exact absurd put List.not_mem_nil
    · obtain ⟨rfl, rfl⟩ : b = box ∧ came = .ok m := by simpa using put
      exact ⟨rfl, rfl⟩
  · cases m <;> simp [posts] at put
  · cases m <;> simp [posts] at put
  · exact absurd put List.not_mem_nil

namespace Session

variable {input : Input} {s : Session} {b : Box} {p : Post} {m : Message}

theorem came_of_mem_lastPosts {f : Failure} (told : (b, p) ∈ s.lastPosts f) : p.came? = none := by
  rcases List.mem_append.mp told with told | told
  · obtain ⟨x, -, mine⟩ := List.mem_flatMap.mp told
    rcases handler : x.handler with ⟨_ | box, change⟩ | box | feed | cell <;>
      simp only [handler, Target.lastPosts, List.mem_singleton, List.not_mem_nil] at mine
    · rw [(Prod.mk.inj mine).2]
      rfl
    · rw [(Prod.mk.inj mine).2]
      rfl
  · obtain ⟨box, -, same⟩ := List.mem_map.mp told
    rw [← (Prod.mk.inj same).2]
    rfl

/-- A reply is handed over because the route of its request takes it, and with the route that it
calls for, where that was asked for. -/
theorem replied_of_mem_step (sound : s.Sound) {route : Option Handle}
    (there : (b, .reply (.ok (m, route))) ∈ (s.step input).posts) :
    (b, .reply (.ok (m, route))) ∈ s.posts ∨ ∃ x : Route Target, x.handler.waiter? = some b ∧
      x.takes (RouteKey.ofMessage m) = true ∧ (x ∈ s.router.routes ∨
        ∃ q answer, input = .command (.request q x.keys x.handler answer)) ∧
        ∀ box feed, x.handler = .reply box (some (.install feed)) → route = none →
          m.enrolledKey? = none := by
  let known (x : Route Target) : Prop := x ∈ s.router.routes ∨
    ∃ q answer, input = .command (.request q x.keys x.handler answer)
  -- routes that wait were there before or are asked for, and replies that are put off are theirs
  have all : ∀ w, Parts input ⟨s.prepared input, []⟩ w →
      (∀ x ∈ w.session.router.routes, x.handler.waiter? ≠ none → known x) ∧
      (∀ m change, .handOver (some b) m change ∈ w.errands →
        ∃ x, x.handler.waiter? = some b ∧ x.takes (RouteKey.ofMessage m) = true ∧ known x ∧
          ∀ box feed, x.handler = .reply box (some (.install feed)) →
            change = some (.install feed) ∨ m.enrolledKey? = none) ∧
      ((b, .reply (.ok (m, route))) ∈ w.session.posts → (b, .reply (.ok (m, route))) ∈ s.posts ∨
        ∃ x, x.handler.waiter? = some b ∧ x.takes (RouteKey.ofMessage m) = true ∧ known x ∧
          ∀ box feed, x.handler = .reply box (some (.install feed)) → route = none →
            m.enrolledKey? = none) := by
    intro w parts
    induction parts with
    | refl =>
      rcases prepared_cases s input with same | ⟨q, keys, target, answer, rfl, -, added⟩
      · rw [same]
        exact ⟨fun x hx _ => Or.inl hx, by simp, Or.inl⟩
      · rw [added]
        refine ⟨fun x hx _ => ?_, by simp, Or.inl⟩
        rcases mem_routes_add.mp hx with old | rfl
        · exact Or.inl old
        · exact Or.inr ⟨q, answer, rfl⟩
    | tail _ part ih =>
      obtain ⟨routes, errands, posts⟩ := ih
      refine ⟨fun x hx waits => ?_, fun m' change put => ?_, fun there => ?_⟩
      · rcases part.route_origin hx with old | ⟨-, ⟨feed, fed, -⟩ | ⟨cell, shows, -⟩⟩
        · exact routes x old waits
        · simp [fed, Target.waiter?] at waits
        · simp [shows, Target.waiter?] at waits
      · rcases part.errand_origin put with ⟨change', old, same⟩ | ⟨x, hx, waits, takes⟩
        · obtain ⟨x, mine, takes, known, due⟩ := errands m' change' old
          refine ⟨x, mine, takes, known, fun box feed installs => ?_⟩
          rcases due box feed installs with rfl | unasked
          · exact same.imp_right fun known => known.2 feed rfl
          · exact Or.inr unasked
        · have mine : x.handler.waiter? = some b := by rw [waits]; rfl
          refine ⟨x, mine, takes, routes x hx (by simp [mine]), fun box feed installs => ?_⟩
          exact Or.inl (Target.reply.inj (waits.symm.trans installs)).2
      · rcases part.post_origin there with old | ⟨-, ⟨last, -⟩ | ⟨-, -, -, -, same⟩ |
          ⟨x, hx, waits, m', takes, same⟩ | ⟨m', change, put, route', same, bare, -⟩ |
          ⟨f, -, told⟩⟩
        · exact posts old
        · simp [Post.isLast] at last
        · cases same
        · cases same
        · obtain ⟨rfl, rfl⟩ : m = m' ∧ route = route' := by simpa using same
          obtain ⟨x, mine, takes, known, due⟩ := errands m change put
          refine Or.inr ⟨x, mine, takes, known, fun box feed installs none' => ?_⟩
          have kept := bare none'
          exact (due box feed installs).resolve_left fun same => by cases same.symm.trans kept
        · cases came_of_mem_lastPosts told
  exact (all _ (parts_step sound.tidy input)).2.2 there

/-- A message is handed to someone who waits because the route of a request takes it. -/
theorem came_of_mem_step (sound : s.Sound) (heeds : ∀ box, input ≠ .forget box)
    (there : (b, p) ∈ (s.step input).posts) (came : p.came? = some m) :
    (b, p) ∈ s.posts ∨ ∃ x : Route Target, x.handler.waiter? = some b ∧ x.handler.Equips p ∧
      x.takes (RouteKey.ofMessage m) = true ∧ (x ∈ s.router.routes ∨
        ∃ q answer, input = .command (.request q x.keys x.handler answer)) := by
  cases p with
  | reply result =>
    rcases result with f | ⟨reply, route⟩
    · exact nomatch came
    · obtain rfl : reply = m := Option.some.inj came
      refine (replied_of_mem_step sound there).imp_right ?_
      rintro ⟨x, waits, takes, known, due⟩
      refine ⟨x, waits, fun box feed m' installs same => ?_, takes, known⟩
      obtain ⟨rfl, rfl⟩ : reply = m' ∧ route = none := by simpa using same
      exact due box feed installs rfl
  | outcome result =>
    rcases result with f | reply
    · exact nomatch came
    · obtain rfl : reply = m := Option.some.inj came
      refine (post_course sound heeds there).imp_right ?_
      rintro (plain | ⟨m', -, y, hy, takes, cell, put⟩)
      · exact absurd rfl (plain.resultless reply)
      · obtain ⟨waits, same⟩ := Target.call_of_mem_posts put
        obtain rfl := Except.ok.inj same
        exact ⟨y, by rw [waits]; rfl, fun _ _ _ _ other => (nomatch other), takes, Or.inl hy⟩
  | _ => exact nomatch came

/-- Sending adds no routes, and leaves none if it fails. -/
theorem mem_routes_of_sendOrTerminate (live : s.phase ≠ .closed) {x : Route Target}
    (there : x ∈ (s.sendOrTerminate m).1.router.routes) :
    x ∈ s.router.routes ∧ (s.sendOrTerminate m).2 = .ok () := by
  have retired : ∀ x ∈ (s.retiring m).router.routes, x ∈ s.router.routes := by
    intro x hx
    rcases retiring_cases s m with same | ⟨request, route, -, retired⟩
    · rwa [same] at hx
    · rw [retired] at hx
      exact (mem_routes_eraseRoute.mp hx).1
  rw [sendOrTerminate_eq] at there ⊢
  rcases went : (s.retiring m).transmit (.message m) with ⟨t, trouble⟩
  obtain rfl : ((s.retiring m).transmit (.message m)).1 = t := by rw [went]
  rw [went] at there
  cases trouble with
  | none => exact ⟨retired x there, rfl⟩
  | some description =>
    have phase : ((s.retiring m).transmit (.message m)).1.phase = s.phase := phase_retiring s m
    have open' : ((s.retiring m).transmit (.message m)).1.phase ≠ .closed := by rwa [phase]
    dsimp only at there
    rw [terminate_eq open'] at there
    exact absurd there List.not_mem_nil

/-- A route that waits was there before, or is that of a request, which is told so. -/
theorem accepted_of_route_step (sound : s.Sound) {x : Route Target}
    (there : x ∈ (s.step input).router.routes) (waits : x.handler.waiter? ≠ none) :
    x ∈ s.router.routes ∨ ∃ q answer, input = .command (.request q x.keys x.handler answer) ∧
      ∀ a, answer = some a → a ∉ s.gone →
        (a, .accepted (.ok x.handle)) ∈ (s.step input).posts := by
  rcases route_origin_step sound there with old | ⟨feed, fed, -⟩ | ⟨cell, shows, -⟩ |
    ⟨q, answer, rfl⟩
  · exact Or.inl old
  · simp [fed, Target.waiter?] at waits
  · simp [shows, Target.waiter?] at waits
  · by_cases late : s.phase = .closed
    · rw [step_closed late (by simp)] at there
      exact Or.inl there
    have obeyed : s.step (.command (.request q x.keys x.handler answer)) =
        s.obey (.request q x.keys x.handler answer) := if_neg late
    by_cases live : s.phase = .established
    · let t : Session := { s with router := (s.router.add x.keys x.handler).1 }
      have gone : (t.sendOrTerminate q).1.gone = s.gone := (emits_sendOrTerminate t q).gone
      have left := mem_routes_of_sendOrTerminate (s := t) (m := q) (x := x) late
      rw [obeyed, obey_request live] at there ⊢
      rcases went : t.sendOrTerminate q with ⟨u, result⟩
      rw [went] at there left gone
      cases result with
      | ok _ =>
        rw [answer_router] at there
        rcases mem_routes_add.mp (left there).1 with old | same
        · exact Or.inl old
        · refine Or.inr ⟨q, answer, rfl, fun a asked heard => ?_⟩
          have handle : x.handle = s.router.lastHandle + 1 := congrArg Route.handle same
          rw [handle]
          exact mem_posts_answer.mpr (Or.inr ⟨asked, rfl, gone ▸ heard⟩)
      | error f =>
        rw [answer_router] at there
        cases (left (mem_routes_eraseRoute.mp there).1).2
    · rw [obeyed, obey, if_neg live, answer_router] at there
      exact Or.inl there

end Session

namespace Client

variable {c d : Client} {past cmds : List Command} {ms : List Move} {b : Box} {p : Post}
  {m : Message} {w w' : Work}

/-! ### Runs -/

theorem takes_iff_covers {x : Route Target} {key : RouteKey} :
    x.takes key = true ↔ ∃ own ∈ x.keys, own.covers key = true := List.any_eq_true

/-- Whoever is handed a message has asked for it. -/
theorem Fresh.answers_of_told (fresh : Fresh c) (told : (b, p) ∈ (c.run ms).session.posts)
    (came : p.came? = some m) : ∃ q keys target answer,
      .request q keys target answer ∈ c.served ms ∧ target.waiter? = some b ∧
        target.Equips p ∧ q.Answers m := by
  have absent : (b, p) ∉ c.session.posts := by simp [fresh.untold]
  obtain ⟨before, move, after, rfl, not', there⟩ :=
    exists_first (P := fun c => (b, p) ∈ c.session.posts) told absent
  have sound := (fresh.settled.run before).books.sound
  cases takes : (c.run before).input? move with
  | none =>
    rw [posts_of_grows (grows_move takes)] at there
    exact absurd there not'
  | some input =>
    rw [session_move takes] at there
    rcases Session.came_of_mem_step sound (heeds_input takes) there came with
      old | ⟨x, waits, equips, own, origin⟩
    · exact absurd old not'
    · -- the request of the route was taken up, at the latest in this move
      obtain ⟨q, answer, asked⟩ : ∃ q answer,
          .request q x.keys x.handler answer ∈ c.served (before ++ move :: after) := by
        rcases origin with old | ⟨q, answer, rfl⟩
        · cases fresh.serves old with
          | items handler keys names enrols => simp [handler, Target.waiter?] at waits
          | interrupts handler keys => simp [handler, Target.waiter?] at waits
          | @replies q answer among =>
            exact ⟨q, answer, by rw [served_append]; exact List.mem_append_left _ among⟩
        · cases move with
          | serve =>
            obtain ⟨command, head, same⟩ := Option.map_eq_some_iff.mp takes
            obtain rfl := Input.command.inj same
            obtain ⟨rest, next⟩ := List.head?_eq_some_iff.mp head
            exact ⟨q, answer, mem_served_of_next after next⟩
          | _ => simp [input?] at takes
      exact ⟨q, x.keys, x.handler, answer, asked, waits, equips,
        (fresh.formed asked).covers_iff.mp (takes_iff_covers.mp own)⟩

/-- What somebody is handed who waits on a box answers the one request that the box is for. -/
theorem Fresh.answers_own (fresh : Fresh c) {q : Message} {keys : List RouteKey} {target : Target}
    {answer : Option Box}
    (asked : .request q keys target answer ∈ c.served ms ++ (c.run ms).commands)
    (waits : target.waiter? = some b) (told : (b, p) ∈ (c.run ms).session.posts)
    (came : p.came? = some m) : target.Equips p ∧ q.Answers m := by
  obtain ⟨q', keys', target', answer', asked', waits', equips, answers⟩ :=
    fresh.answers_of_told told came
  have books : Books (c.served ms) (c.run ms) := fresh.settled.books.run ms
  have same := books.unique (List.mem_append_left _ asked') asked
    (Command.feeds_of_waiter (b := b) waits') (Command.feeds_of_waiter (b := b) waits)
  obtain ⟨rfl, -, rfl, -⟩ := Command.request.inj same
  exact ⟨equips, answers⟩

/-- Routes that wait were accepted, and whoever asked for them was told so. -/
def Acknowledged (past : List Command) (c : Client) : Prop :=
  ∀ x ∈ c.session.router.routes, x.handler.waiter? ≠ none →
    ∃ q answer, .request q x.keys x.handler answer ∈ past ∧ ∀ a, answer = some a →
      a ∈ c.session.gone ∨ (a, .accepted (.ok x.handle)) ∈ c.session.posts

theorem Acknowledged.step (acknowledged : c.Acknowledged past) (sound : c.session.Sound)
    {input : Input} (asks : ∀ command, input = .command command → command ∈ cmds)
    {commands : List Command} :
    Acknowledged (past ++ cmds) { c with session := c.session.step input, commands } := by
  intro x there waits
  rcases Session.accepted_of_route_step sound there waits with old | ⟨q, answer, rfl, told⟩
  · obtain ⟨q, answer, among, told⟩ := acknowledged x old waits
    refine ⟨q, answer, List.mem_append_left _ among, fun a asked => ?_⟩
    exact (told a asked).imp (Session.gone_of_mem_step sound input)
      (Session.posts_of_mem_step sound input)
  · refine ⟨q, answer, List.mem_append_right _ (asks _ rfl), fun a asked => ?_⟩
    by_cases gone : a ∈ c.session.gone
    · exact Or.inl (Session.gone_of_mem_step sound _ gone)
    · exact Or.inr (told a asked gone)

theorem Acknowledged.grows (acknowledged : c.Acknowledged past) (grows : c.Grows d) :
    d.Acknowledged past := by
  intro x there waits
  rw [(outlook_grows grows 0).2.1] at there
  obtain ⟨q, answer, among, told⟩ := acknowledged x there waits
  refine ⟨q, answer, among, fun a asked => (told a asked).imp grows.gone fun put => ?_⟩
  rwa [posts_of_grows grows]

theorem Acknowledged.moves (acknowledged : c.Acknowledged past) (sound : c.session.Sound)
    (moves : c.Moves cmds d) : d.Acknowledged (past ++ cmds) := by
  cases moves with
  | takes input outer heeds =>
    exact acknowledged.step sound fun command same => absurd same (outer command)
  | serves next =>
    refine acknowledged.step sound fun command same => ?_
    rw [Input.command.inj same]
    exact List.mem_singleton_self _
  | acts parts =>
    rw [List.append_nil]
    exact acknowledged.grows (Parts.grows parts)
  | polls polls =>
    rw [List.append_nil]
    exact acknowledged.grows polls.grows

theorem Acknowledged.run (acknowledged : c.Acknowledged past) (sound : c.session.Sound)
    (ms : List Move) : (c.run ms).Acknowledged (past ++ c.served ms) :=
  (run_of_moves (P := fun past c => c.Acknowledged past ∧ c.session.Sound) ⟨acknowledged, sound⟩
    (fun ⟨acknowledged, sound⟩ m =>
      ⟨acknowledged.moves sound (Client.moves _ m), sound_move sound m⟩) ms).1

theorem Fresh.acknowledged (fresh : Fresh c) (ms : List Move) :
    (c.run ms).Acknowledged (c.served ms) := by
  have start : c.Acknowledged [] := by
    rw [Acknowledged, fresh.bare]
    exact fun x there => absurd there List.not_mem_nil
  exact start.run fresh.settled.books.sound ms

/-- Nobody is handed a reply in the move in which the request is taken up. -/
theorem Books.silent_serve (books : Books past c) {a : Box} {q : Message} {keys : List RouteKey}
    {target : Target} {rest : List Command}
    (next : c.commands = .request q keys target (some a) :: rest)
    (waits : target.waiter? = some b) (came : p.came? = some m) :
    (b, p) ∉ (c.move .serve).session.posts := by
  intro there
  have feeds : (Command.request q keys target (some a)).feeds b = true :=
    Command.feeds_of_waiter (b := b) waits
  have empty : (b, p) ∉ c.session.posts := by
    rw [← Session.mem_postsTo, (books.blank b (books.not_feeds next feeds).1).1]
    exact List.not_mem_nil
  have takes : c.input? .serve = some (.command (.request q keys target (some a))) := by
    simp [input?, next]
  have moved := session_move takes
  have heard : b ∉ c.session.gone :=
    (Session.heard_of_mem_step books.sound (moved ▸ there)).resolve_left empty
  by_cases live : c.session.phase = .established
  · have follows := books.issued.follows (.request q keys target (some a)) (by simp [next]) b a
      waits rfl
    have mine : target.feeds b = true := by
      rcases target with ⟨own, change⟩ | own | feed | cell <;>
        simp_all [Target.waiter?, Target.feeds]
    have other : a ≠ b := by
      rw [follows]
      exact Nat.ne_of_lt (Nat.lt_succ_self a)
    have starts := books.starts next live mine other heard
    rw [← Session.mem_postsTo] at there
    by_cases late : (c.move .serve).session.phase = .closed
    · -- the session has ended with the request
      obtain ⟨f, -, posts⟩ := starts.ended late
      rw [posts] at there
      rcases target with ⟨own, change⟩ | own | feed | cell
      · obtain rfl : own = some b := waits
        simp only [Target.lastPostsTo, Target.lastPosts] at there
        simp_all [Post.came?]
      · obtain rfl : own = b := Option.some.inj waits
        simp_all [Target.lastPostsTo, Target.lastPosts, Post.came?]
      · cases waits
      · cases waits
    · have posts : (c.move .serve).session.postsTo b = [] :=
        congrArg Outlook.posts (starts.opened late)
      rw [posts] at there
      exact absurd there List.not_mem_nil
  · by_cases late : c.session.phase = .closed
    · rw [moved, Session.step_closed late (by simp)] at there
      exact empty there
    · have obeyed : c.session.step (.command (.request q keys target (some a))) =
          c.session.answer (some a) (.accepted (.error Failure.sessionClosed)) :=
        (if_neg late).trans (if_neg live)
      rw [moved, obeyed] at there
      rcases Session.mem_posts_answer.mp there with old | ⟨-, rfl, -⟩
      · exact empty old
      · cases came

/-- Who is handed a reply was told before that the request was accepted. -/
theorem Fresh.accepted_of_told (fresh : Fresh c) {a : Box} {q : Message} {keys : List RouteKey}
    {target : Target} (asked : .request q keys target (some a) ∈ c.served ms ++ (c.run ms).commands)
    (waits : target.waiter? = some b) (told : (b, p) ∈ (c.run ms).session.posts)
    (came : p.came? = some m) (heard : a ∉ (c.run ms).session.gone) :
    ∃ route, (a, .accepted (.ok route)) ∈ (c.run ms).session.posts := by
  have absent : (b, p) ∉ c.session.posts := by simp [fresh.untold]
  obtain ⟨before, move, after, rfl, not', there⟩ :=
    exists_first (P := fun c => (b, p) ∈ c.session.posts) told absent
  have books : Books (c.served before) (c.run before) := fresh.settled.books.run before
  have all : Books (c.served (before ++ move :: after)) (c.run (before ++ move :: after)) :=
    fresh.settled.books.run _
  -- a request that is taken up and waits on the box is this one
  have own : ∀ {q' : Message} {keys' : List RouteKey} {target' : Target} {answer : Option Box},
      .request q' keys' target' answer ∈ c.served (before ++ move :: after) →
      target'.waiter? = some b → answer = some a := by
    intro q' keys' target' answer among waits'
    have same := all.unique (List.mem_append_left _ among) asked
      (Command.feeds_of_waiter (b := b) waits') (Command.feeds_of_waiter (b := b) waits)
    exact (Command.request.inj same).2.2.2
  cases takes : (c.run before).input? move with
  | none =>
    rw [posts_of_grows (grows_move takes)] at there
    exact absurd there not'
  | some input =>
    have moved := session_move takes
    rcases Session.came_of_mem_step books.sound (heeds_input takes) (moved ▸ there) came with
      old | ⟨x, waits', -, -, old | ⟨q', answer, rfl⟩⟩
    · exact absurd old not'
    · obtain ⟨q', answer, among, acknowledged⟩ :=
        fresh.acknowledged before x old (by simp [waits'])
      obtain rfl := own (by rw [served_append]; exact List.mem_append_left _ among) waits'
      rw [run_append] at heard ⊢
      refine ⟨x.handle, told_run books.sound _ ?_⟩
      exact (acknowledged a rfl).resolve_left (not_gone_of_run books.sound heard)
    · cases move with
      | serve =>
        obtain ⟨command, head, same⟩ := Option.map_eq_some_iff.mp takes
        obtain rfl := Input.command.inj same
        obtain ⟨rest, next⟩ := List.head?_eq_some_iff.mp head
        obtain rfl := own (mem_served_of_next after next) waits'
        exact absurd there (books.silent_serve next waits' came)
      | _ => simp [input?] at takes

end Client

end WampClient
