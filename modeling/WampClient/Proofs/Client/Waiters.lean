import WampClient.Proofs.Client.Correlation
import WampClient.Proofs.Client.Drawing
import Mathlib.Data.List.Pairwise

/-! Who is handed a reply. The routes of requests have the ids of their requests, and these are all
different until the source has gone all the way round. So no two such routes look out for the same
message, and a reply reaches the one waiter whose own request it answers, or nobody. -/
namespace WampClient

/-- The target is that of a request: it takes the replies, or the results of a call. -/
def Target.requests : Target → Bool
  | .reply _ _ => true
  | .call _ => true
  | _ => false

/-- The message has a type with which the router answers requests. -/
def Message.isReply : Message → Bool
  | .result .. | .registered .. | .subscribed .. | .published .. => true
  | .unregistered .. | .unsubscribed .. | .error .. => true
  | _ => false

/-- A request is answered under its own id. -/
theorem Message.Answers.requestId {q m : Message} (answers : q.Answers m) :
    ∃ id, q.requestId? = some id ∧ m.requestId? = some id := by
  cases answers with
  | grants asks granted own is same => exact ⟨_, own, same⟩
  | refuses asks own is => exact ⟨_, own, by rw [is]; rfl⟩

/-- All keys of a request's route have the id of the request. -/
theorem Command.Formed.id_of_key {known : FeedKind → Id → Handle → Prop} {q : Message}
    {keys : List RouteKey} {target : Target} {answer : Option Box} {key : RouteKey}
    (formed : (Command.request q keys target answer).Formed known) (own : key ∈ keys) :
    ∃ id, key.id = some id ∧ q.requestId? = some id := by
  cases formed with
  | call request options procedure payload box answer =>
    rcases List.mem_pair.mp own with rfl | rfl <;> exact ⟨request, rfl, rfl⟩
  | publish request options topic payload reply answer =>
    rcases List.mem_pair.mp own with rfl | rfl <;> exact ⟨request, rfl, rfl⟩
  | enrol kind request options pattern reply box answer =>
    cases kind <;> rcases List.mem_pair.mp own with rfl | rfl <;> exact ⟨request, rfl, rfl⟩
  | @depart kind id route known request reply answer =>
    cases kind <;> rcases List.mem_pair.mp own with rfl | rfl <;> exact ⟨request, rfl, rfl⟩

theorem Command.Formed.requests {known : FeedKind → Id → Handle → Prop} {q : Message}
    {keys : List RouteKey} {target : Target} {answer : Option Box}
    (formed : (Command.request q keys target answer).Formed known) : target.requests = true := by
  cases formed <;> rfl

namespace Session

variable {input : Input} {s : Session} {m : Message} {x : Route Target}

/-- The routes of requests come with the requests, and with nothing else. -/
theorem requests_origin_step (sound : s.Sound) (there : x ∈ (s.step input).router.routes)
    (requests : x.handler.requests = true) : x ∈ (s.prepared input).router.routes := by
  have all : ∀ w, Parts input ⟨s.prepared input, []⟩ w →
      x ∈ w.session.router.routes → x ∈ (s.prepared input).router.routes := by
    intro w parts
    induction parts with
    | refl => exact id
    | tail _ part ih =>
      intro there
      rcases part.route_origin there with old | ⟨-, ⟨feed, fed, -⟩ | ⟨cell, shows, -⟩⟩
      · exact ih old
      · simp [fed, Target.requests] at requests
      · simp [shows, Target.requests] at requests
  exact all _ (parts_step sound.tidy input) there

/-- A reply that is handed over goes into its box, if anybody looks there. -/
theorem posts_handOver (s : Session) (box : Option Box) (m : Message)
    (change : Option RouteChange) :
    ∃ told : Option (Box × Post), (s.handOver box m change).posts = s.posts ++ told.toList ∧
      (∀ e ∈ told, box = some e.1 ∧ e.2.came? = some m) ∧
        (told = none → ∀ b, box = some b → b ∈ s.gone) := by
  obtain ⟨posts, gone⟩ : (s.changeRoutes m change).1.posts = s.posts ∧
      (s.changeRoutes m change).1.gone = s.gone := by
    rcases change with _ | feed | route
    · exact ⟨rfl, rfl⟩
    · simp only [changeRoutes]
      split <;> exact ⟨rfl, rfl⟩
    · simp only [changeRoutes]
      split <;> exact ⟨rfl, rfl⟩
  rw [handOver]
  cases box with
  | none => exact ⟨none, by simp [posts], by simp, by simp⟩
  | some box =>
    dsimp only
    by_cases left : box ∈ s.gone
    · refine ⟨none, ?_, by simp, by simpa using left⟩
      cases (s.changeRoutes m change).2 <;> simp [gone, left, posts]
    · refine ⟨some (box, .reply (.ok (m, (s.changeRoutes m change).2))), ?_, ?_, by simp⟩
      · simp [gone, left, post, posts]
      · simp [Post.came?]

/-- If one route alone takes a message, it is visited once. -/
theorem visits_le_one (sound : s.Sound)
    (alone : ∀ x ∈ s.router.routes, ∀ y ∈ s.router.routes,
      x.takes (RouteKey.ofMessage m) = true → y.takes (RouteKey.ofMessage m) = true → x = y)
    (ided : ∀ x ∈ s.router.routes, x.takes (RouteKey.ofMessage m) = true →
      ∀ key ∈ x.keys, key.id ≠ none) :
    ∃ visit : Option (Route Target × Cell),
      (s.distributed m).2.2.posts =
        visit.toList.flatMap (fun v => v.1.handler.posts s.gone m v.2) ∧
      (s.distributed m).2.2.errands =
        visit.toList.flatMap (fun v => v.1.handler.errands s.gone m v.2) ∧
      (∀ v ∈ visit, v.1 ∈ s.router.routes ∧ v.1.takes (RouteKey.ofMessage m) = true) ∧
        ∀ x ∈ s.router.routes, x.takes (RouteKey.ofMessage m) = true → ∃ v ∈ visit, v.1 = x := by
  obtain ⟨visits, trace, takes⟩ := visited_handedAround sound m
  have posts : (s.distributed m).2.2.posts = [] ++ _ := trace.posts
  have errands : (s.distributed m).2.2.errands = [] ++ _ := trace.errands
  rw [List.nil_append] at posts errands
  have all : ∀ x ∈ s.router.routes, x.takes (RouteKey.ofMessage m) = true →
      ∃ v ∈ visits, v.1 = x :=
    fun x hx takes => trace.all x hx ((mem_matching sound hx).mpr takes)
  match visits, trace, takes, posts, errands, all with
  | [], trace, takes, posts, errands, all =>
    exact ⟨none, posts, errands, by simp, by simpa using all⟩
  | [v], trace, takes, posts, errands, all =>
    refine ⟨some v, posts, errands, fun u same => ?_, by simpa using all⟩
    obtain rfl := Option.mem_some.mp same
    exact ⟨trace.there _ List.mem_cons_self, takes _ List.mem_cons_self⟩
  | v :: u :: rest, trace, takes, posts, errands, all =>
    have first := trace.there v (by simp)
    have same := alone v.1 first u.1 (trace.there u (by simp)) (takes v (by simp))
      (takes u (by simp))
    have once : (s.router.matching (RouteKey.ofMessage m)).count v.1.handle ≤ 1 := by
      refine Router.count_matching_le sound.tidy (fun y hy own => ?_) _
      rw [Router.eq_of_handle_eq sound.tidy.ordered hy first own]
      exact ided v.1 first (takes v (by simp))
    have twice := trace.called.count_le v.1.handle
    rw [List.map_cons, List.map_cons, ← same, List.count_cons_self, List.count_cons_self] at twice
    omega

/-- A reply that one route alone takes is handed to whoever waits there, and to nobody else. -/
theorem posts_arrive (sound : s.Sound) (reply : m.isReply = true)
    (alone : ∀ x ∈ s.router.routes, ∀ y ∈ s.router.routes,
      x.takes (RouteKey.ofMessage m) = true → y.takes (RouteKey.ofMessage m) = true → x = y)
    (asked : ∀ x ∈ s.router.routes, x.takes (RouteKey.ofMessage m) = true →
      x.handler.requests = true ∧ ∀ key ∈ x.keys, key.id ≠ none) :
    ∃ told : Option (Box × Post),
      (s.step (.arrival (.item (.message m)))).posts = s.posts ++ told.toList ∧
      (∀ e ∈ told, ∃ x ∈ s.router.routes, x.takes (RouteKey.ofMessage m) = true ∧
        x.handler.waiter? = some e.1 ∧ e.2.came? = some m) ∧
      (told = none → s.phase ≠ .closed → ∀ x ∈ s.router.routes,
        x.takes (RouteKey.ofMessage m) = true → ∀ b, x.handler.waiter? = some b → b ∈ s.gone) := by
  by_cases closed : s.phase = .closed
  · exact ⟨none, by rw [step_closed closed (by simp)]; simp, by simp, by simp [closed]⟩
  have received : s.step (.arrival (.item (.message m))) = s.distribute m := by
    rw [step, if_neg closed]
    cases m <;> first | rfl | cases reply
  have plain : ∀ request registration details payload,
      m ≠ .invocation request registration details payload := by
    rintro request registration details payload rfl
    cases reply
  -- a message that nobody takes is noted, and nothing is put into a box for it
  have noted : ∀ t : Session, (if (s.distributed m).2.1 then t else t.noteUnmatched m).posts =
      t.posts := by
    intro t
    split
    · rfl
    · rw [noteUnmatched_of_other plain]
      rfl
  obtain ⟨visit, posts, errands, visited, all⟩ :=
    visits_le_one sound alone fun x hx takes => (asked x hx takes).2
  have around : (s.handedAround m).posts = s.posts ++ (s.distributed m).2.2.posts := rfl
  rw [received, distribute_eq]
  dsimp only
  rw [noted, errands]
  rw [posts] at around
  cases visit with
  | none => exact ⟨none, around, by simp, fun _ _ x hx takes => by simpa using all x hx takes⟩
  | some v =>
    obtain ⟨there, takes⟩ := visited v rfl
    obtain ⟨requests, -⟩ := asked v.1 there takes
    -- no route but the visited one takes the message, so only its box is told
    have only : ∀ x ∈ s.router.routes, x.takes (RouteKey.ofMessage m) = true → x = v.1 :=
      fun x hx takes' => alone x hx v.1 there takes' takes
    rw [Option.toList_some, List.flatMap_singleton] at around ⊢
    rcases handler : v.1.handler with ⟨box, change⟩ | box | feed | cell
    · have same : (s.handedAround m).posts = s.posts := by
        rw [around, handler]
        exact List.append_nil _
      obtain ⟨told, given, own, left⟩ := posts_handOver (s.handedAround m) box m change
      refine ⟨told, given.trans (by rw [same]), fun e he => ?_,
        fun none' _ x hx takes' b waits => ?_⟩
      · obtain ⟨box', came⟩ := own e he
        exact ⟨v.1, there, takes, by rw [handler]; exact box', came⟩
      · rw [only x hx takes', handler] at waits
        exact left none' b waits
    · refine ⟨if s.gone.contains box then none else some (box, .outcome (.ok m)), ?_,
        fun e he => ?_, fun none' _ x hx takes' b waits => ?_⟩
      · change (s.handedAround m).posts = _
        rw [around, handler]
        simp only [Target.posts]
        split <;> rfl
      · obtain ⟨-, rfl⟩ : _ ∧ (box, Post.outcome (.ok m)) = e := by simpa using he
        exact ⟨v.1, there, takes, by rw [handler]; rfl, rfl⟩
      · rw [only x hx takes', handler] at waits
        obtain rfl : box = b := Option.some.inj waits
        simpa using none'
    · cases handler ▸ requests
    · cases handler ▸ requests

end Session

namespace Client

variable {c d : Client} {past cmds : List Command} {ms : List Move} {x y : Route Target}
  {m : Message}

/-! ### Routes of requests -/

/-- Commands that carry the same id are the same. -/
theorem eq_of_drawn {commands : List Command} {one two : Command} {id : Id}
    (nodup : (commands.filterMap Command.drawn?).Nodup) (there : one ∈ commands)
    (there' : two ∈ commands) (own : one.drawn? = some id) (own' : two.drawn? = some id) :
    one = two := by
  by_contra other
  have apart := List.pairwise_filterMap.mp nodup
  have : Std.Symm fun one two : Command =>
      ∀ id, one.drawn? = some id → ∀ id', two.drawn? = some id' → id ≠ id' :=
    ⟨fun _ _ far id own id' own' => (far id' own' id own).symm⟩
  exact apart.forall there there' other id own id own' rfl

/-- Ids that were drawn stay drawn. -/
theorem drawn_prefix (c : Client) (ms : List Move) (m : Move) :
    c.drawn ms <+: c.drawn (ms ++ [m]) := by
  have queue : (c.run ms).commands <+:
      (c.run ms).taken m ++ ((c.run ms).move m).commands := (Client.moves _ m).queue
  have all : c.served (ms ++ [m]) ++ (c.run (ms ++ [m])).commands =
      c.served ms ++ ((c.run ms).taken m ++ ((c.run ms).move m).commands) := by
    rw [served_append, run_append, List.append_assoc, served, served, List.append_nil]
    rfl
  rw [drawn, drawn, all]
  exact List.IsPrefix.filterMap _ ((List.prefix_append_right_inj _).mpr queue)

theorem Fresh.request_of_route (fresh : Fresh c) (there : x ∈ (c.run ms).session.router.routes)
    (requests : x.handler.requests = true) :
    ∃ q answer, .request q x.keys x.handler answer ∈ c.served ms := by
  cases fresh.serves there with
  | @items kind box id handler keys names enrols => simp [handler, Target.requests] at requests
  | interrupts handler keys => simp [handler, Target.requests] at requests
  | replies among => exact ⟨_, _, among⟩

/-- Replies are taken by the routes of requests alone. -/
theorem Fresh.requests_of_takes (fresh : Fresh c) (there : x ∈ (c.run ms).session.router.routes)
    (takes : x.takes (RouteKey.ofMessage m) = true) (reply : m.isReply = true) :
    x.handler.requests = true := by
  cases fresh.serves there with
  | @items kind box id handler keys names enrols =>
    have passes : x.takes (RouteKey.ofMessage m) = false := by
      rw [Route.takes, keys]
      cases kind <;> cases m <;> simp_all [FeedKind.itemKey, RouteKey.covers, RouteKey.ofMessage,
        RouteKey.ofReply, Message.code, Message.type?, MessageType.code, Message.isReply]
    cases passes.symm.trans takes
  | interrupts handler keys =>
    have passes : x.takes (RouteKey.ofMessage m) = false := by
      rw [Route.takes, keys]
      cases m <;> simp_all [RouteKey.covers, RouteKey.ofMessage, RouteKey.ofReply, Message.code,
        Message.type?, MessageType.code, Message.isReply]
    cases passes.symm.trans takes
  | replies among => exact (fresh.formed among).requests

/-- No two routes of requests look out for the same message. -/
def Single (c : Client) : Prop :=
  ∀ x ∈ c.session.router.routes, ∀ y ∈ c.session.router.routes,
    x.handler.requests = true → y.handler.requests = true →
      ∀ key ∈ x.keys, key ∈ y.keys → x = y

/-- The session takes up a request whose id no request before it had. -/
theorem Single.serves (single : c.Single) (sound : c.session.Sound) {command : Command}
    {rest : List Command}
    (asked : ∀ x ∈ c.session.router.routes, x.handler.requests = true →
      ∃ q answer, .request q x.keys x.handler answer ∈ past)
    {known : FeedKind → Id → Handle → Prop}
    (formed : ∀ other ∈ past ++ [command], other.Formed known)
    (distinct : ((past ++ [command]).filterMap Command.drawn?).Nodup) :
    Single { c with session := c.session.step (.command command), commands := rest } := by
  intro x hx y hy requests requests' key own own'
  have mine := Session.requests_origin_step sound hx requests
  have mine' := Session.requests_origin_step sound hy requests'
  rcases Session.prepared_cases c.session (.command command) with
    same | ⟨q, keys, target, answer, is, -, added⟩
  · rw [same] at mine mine'
    exact single x mine y mine' requests requests' key own own'
  · obtain rfl := Input.command.inj is
    -- a route that was there before belongs to a request that was taken up before
    have apart : ∀ z ∈ c.session.router.routes, z.handler.requests = true → key ∈ z.keys →
        key ∉ keys := by
      intro z hz requests' own' own
      obtain ⟨q', answer', among⟩ := asked z hz requests'
      obtain ⟨id, of, drawn⟩ := (formed _ (List.mem_append_left _ among)).id_of_key own'
      have formed' := formed _ (List.mem_append_right _ List.mem_cons_self)
      obtain ⟨id', of', drawn'⟩ := formed'.id_of_key own
      obtain rfl := Option.some.inj (of.symm.trans of')
      rw [List.filterMap_append] at distinct
      refine List.disjoint_of_nodup_append distinct (a := id) ?_ ?_
      · exact List.mem_filterMap.mpr ⟨_, among, drawn⟩
      · exact List.mem_filterMap.mpr ⟨_, List.mem_cons_self, drawn'⟩
    rw [added] at mine mine'
    rcases Session.mem_routes_add.mp mine with old | rfl <;>
      rcases Session.mem_routes_add.mp mine' with old' | rfl
    · exact single x old y old' requests requests' key own own'
    · exact absurd own' (apart x old requests own)
    · exact absurd own (apart y old' requests' own')
    · rfl

theorem Single.moves (single : c.Single) (sound : c.session.Sound)
    (asked : ∀ x ∈ c.session.router.routes, x.handler.requests = true →
      ∃ q answer, .request q x.keys x.handler answer ∈ past)
    {known : FeedKind → Id → Handle → Prop} (moves : c.Moves cmds d)
    (formed : ∀ command ∈ past ++ cmds, command.Formed known)
    (distinct : ((past ++ cmds).filterMap Command.drawn?).Nodup) : d.Single := by
  have quiet : c.Grows d → d.Single := by
    intro grows
    rw [Single, (outlook_grows grows 0).2.1]
    exact single
  cases moves with
  | takes input outer heeds =>
    intro x hx y hy requests requests'
    have mine := Session.requests_origin_step sound hx requests
    have mine' := Session.requests_origin_step sound hy requests'
    rcases Session.prepared_cases c.session input with same | ⟨q, keys, target, answer, is, -⟩
    · rw [same] at mine mine'
      exact single x mine y mine' requests requests'
    · exact absurd is (outer _)
  | serves next => exact single.serves sound asked formed distinct
  | acts parts => exact quiet (Parts.grows parts)
  | polls polls => exact quiet polls.grows

theorem Fresh.single (fresh : Fresh c) (distinct : (c.drawn ms).Nodup) : (c.run ms).Single := by
  induction ms using List.reverseRecOn with
  | nil =>
    intro x there
    rw [run, List.foldl_nil, fresh.bare] at there
    exact absurd there List.not_mem_nil
  | append_singleton ms m ih =>
    have served : c.served (ms ++ [m]) = c.served ms ++ (c.run ms).taken m := by
      rw [served_append, served, served, List.append_nil]
    have last : c.run (ms ++ [m]) = (c.run ms).move m := run_append c ms [m]
    have single := ih (distinct.sublist (c.drawn_prefix ms m).sublist)
    rw [last]
    have formed : ∀ command ∈ c.served ms ++ (c.run ms).taken m, command.Formed _ :=
      fun command there => fresh.formed (served ▸ there)
    refine single.moves (fresh.settled.run ms).books.sound
      (fun x there => fresh.request_of_route there) (Client.moves _ m) formed ?_
    rw [drawn, served, List.filterMap_append] at distinct
    exact distinct.of_append_left

/-- The route of a request takes the messages that it has keys for. -/
theorem Fresh.key_of_takes (fresh : Fresh c) (there : x ∈ (c.run ms).session.router.routes)
    (requests : x.handler.requests = true) (takes : x.takes (RouteKey.ofMessage m) = true) :
    RouteKey.ofMessage m ∈ x.keys := by
  obtain ⟨q, answer, asked⟩ := fresh.request_of_route there requests
  refine (exists_covers_iff fun key own => ?_).mp (takes_iff_covers.mp takes)
  obtain ⟨id, of, -⟩ := (fresh.formed asked).id_of_key own
  simp [of]

/-- As long as no id comes twice, a request that a message answers is the only one. -/
theorem answers_one (distinct : (c.drawn ms).Nodup) {q q' : Message}
    {keys keys' : List RouteKey} {target target' : Target} {answer answer' : Option Box}
    (asked : .request q keys target answer ∈ c.served ms ++ (c.run ms).commands)
    (asked' : .request q' keys' target' answer' ∈ c.served ms ++ (c.run ms).commands)
    (answers : q.Answers m) (answers' : q'.Answers m) :
    Command.request q keys target answer = .request q' keys' target' answer' := by
  obtain ⟨id, own, of⟩ := answers.requestId
  obtain ⟨id', own', of'⟩ := answers'.requestId
  obtain rfl := Option.some.inj (of.symm.trans of')
  exact eq_of_drawn distinct asked asked' own own'

/-- As long as no more ids were drawn than there are, wherever the drawing began, no two routes of
requests have a key in common. So every reply is taken by one of them at most, that of the one
request which it answers, and handed to whoever waits there and to nobody else. -/
theorem replies_reach_one_waiter (wire : Wire) (now closeTimeout : Nat) (ids : IdSource) (id : Id)
    (realm : Uri) (details : Dictionary) (ms : List Move) :
    let c := joined (Session.established wire now closeTimeout) ids id realm details
    let d := c.run ms
    (c.drawn ms).length ≤ 9007199254740992 →
    (c.drawn ms = ids.firsts (c.drawn ms).length ∧ d.ids = ids.after (c.drawn ms).length) ∧
    (∀ x ∈ d.session.router.routes, ∀ y ∈ d.session.router.routes,
      x.handler.requests = true → y.handler.requests = true →
        ∀ key ∈ x.keys, key ∈ y.keys → x = y) ∧
    ∀ m : Message, m.isReply = true →
      (∀ x ∈ d.session.router.routes, x.takes (RouteKey.ofMessage m) = true →
        x.handler.requests = true ∧
        (∀ y ∈ d.session.router.routes, y.takes (RouteKey.ofMessage m) = true → x = y) ∧
        ∃ q answer, .request q x.keys x.handler answer ∈ c.served ms ∧ q.Answers m ∧
          ∀ q' keys target answer',
            .request q' keys target answer' ∈ c.served ms ++ d.commands → q'.Answers m →
              Command.request q' keys target answer' = .request q x.keys x.handler answer) ∧
      ∃ told : Option (Box × Post),
        (d.move (.arrive (.item (.message m)))).session.posts = d.session.posts ++ told.toList ∧
        (∀ e ∈ told, ∃ x ∈ d.session.router.routes, x.takes (RouteKey.ofMessage m) = true ∧
          x.handler.waiter? = some e.1 ∧ e.2.came? = some m) ∧
        (told = none → d.session.phase ≠ .closed → ∀ x ∈ d.session.router.routes,
          x.takes (RouteKey.ofMessage m) = true →
            ∀ b, x.handler.waiter? = some b → b ∈ d.session.gone) := by
  intro c d few
  have fresh : Fresh c := fresh_joined wire now closeTimeout ids id realm details
  obtain ⟨firsts, after⟩ := drawn_eq (c := c) rfl ms
  have distinct : (c.drawn ms).Nodup := by
    rw [firsts]
    exact c.ids.nodup_firsts few
  have single := fresh.single distinct
  refine ⟨⟨firsts, after⟩, single, fun m reply => ?_⟩
  have requests : ∀ x ∈ d.session.router.routes, x.takes (RouteKey.ofMessage m) = true →
      x.handler.requests = true := fun x hx takes => fresh.requests_of_takes hx takes reply
  have alone : ∀ x ∈ d.session.router.routes, ∀ y ∈ d.session.router.routes,
      x.takes (RouteKey.ofMessage m) = true → y.takes (RouteKey.ofMessage m) = true → x = y :=
    fun x hx y hy takes takes' => single x hx y hy (requests x hx takes) (requests y hy takes') _
      (fresh.key_of_takes hx (requests x hx takes) takes)
      (fresh.key_of_takes hy (requests y hy takes') takes')
  refine ⟨fun x hx takes => ⟨requests x hx takes, fun y hy takes' => alone x hx y hy takes takes',
    ?_⟩, ?_⟩
  · obtain ⟨q, answer, asked⟩ := fresh.request_of_route hx (requests x hx takes)
    have answers : q.Answers m := (fresh.formed asked).covers_iff.mp (takes_iff_covers.mp takes)
    exact ⟨q, answer, asked, answers, fun q' keys target answer' asked' answers' =>
      answers_one distinct asked' (List.mem_append_left _ asked) answers' answers⟩
  · refine Session.posts_arrive (fresh.settled.run ms).books.sound reply alone
      fun x hx takes => ⟨requests x hx takes, fun key own => ?_⟩
    obtain ⟨q, answer, asked⟩ := fresh.request_of_route hx (requests x hx takes)
    obtain ⟨id, of, -⟩ := (fresh.formed asked).id_of_key own
    simp [of]

/-- Two calls wait, one under the largest id and one under the least. -/
theorem replies_reach_one_waiter_round :
    let c := joined (Session.established (Wire.fresh fun _ => none) 0 1000)
      (IdSource.startingAt Id.max) Id.min ⟨"realm"⟩ []
    let ms := calls 0 "a" ++ calls 1 "b"
    let d := c.run ms
    c.drawn ms = [Id.max, Id.min] ∧ (c.drawn ms).length ≤ 9007199254740992 ∧
      (d.session.router.routes.map fun x => x.keys) = [callKeys Id.max, callKeys Id.min] ∧
      ∀ x ∈ d.session.router.routes, ∀ y ∈ d.session.router.routes,
        x.takes (RouteKey.ofReply .result Id.max) = true →
          y.takes (RouteKey.ofReply .result Id.max) = true → x = y := by
  intro c ms d
  have few : (c.drawn ms).length ≤ 9007199254740992 := by
    rw [show c.drawn ms = [Id.max, Id.min] from rfl]
    decide
  refine ⟨rfl, few, rfl, fun x hx y hy takes takes' => ?_⟩
  obtain ⟨-, -, replies⟩ := replies_reach_one_waiter (Wire.fresh fun _ => none) 0 1000
    (IdSource.startingAt Id.max) Id.min ⟨"realm"⟩ [] ms few
  exact ((replies (.result Id.max [] Payload.empty) rfl).1 x hx takes).2.1 y hy takes'

end Client

end WampClient
