import WampClient.Client.Basic
import WampClient.Proofs.Session.Closing

/-! Requests on their way out. A request is declined, or it goes out and its route stays, or it is
dropped and takes the session with it; there is no request that was sent without its route, and
none that was not sent and leaves a route or a waiter behind. -/
namespace WampClient

/-- Whether the message asks the router for something. -/
def Message.isRequest : Message → Bool
  | .call .. => true
  | .register .. => true
  | .subscribe .. => true
  | .publish .. => true
  | .unregister .. => true
  | .unsubscribe .. => true
  | _ => false

theorem Message.settles?_of_isRequest {m : Message} (asks : m.isRequest = true) :
    m.settles? = none := by
  cases m with
  | yield request options payload => cases asks
  | error requestType request details reason payload => cases asks
  | _ => rfl

/-- A target is told of the end at most once, and of nothing but the failure. -/
theorem Target.lastPosts_single (t : Target) (f : Failure) :
    (t.lastPosts f).length ≤ 1 ∧ ∀ e ∈ t.lastPosts f, e.2.failure? = some f := by
  rcases t with ⟨_ | box, change⟩ | box | feed | cell <;> simp [lastPosts, Post.failure?]

namespace Client

variable {c : Client} {b : Box}

theorem wasAccepted_of_alone {result : Except Failure Handle}
    (lies : c.session.postsTo b = [.accepted result]) : c.wasAccepted b = some result := by
  simp [wasAccepted, postAt, lies]

/-- Nothing comes from a session that is over. -/
theorem wasAccepted_of_over (closed : c.session.phase = .closed)
    (empty : c.session.postsTo b = []) :
    c.wasAccepted b = some (.error Failure.sessionClosed) := by
  simp [wasAccepted, postAt, empty, feeds, Session.feeds, closed]

theorem replied_of_refused {f : Failure} (refused : c.wasAccepted b = some (.error f))
    (reply : Box) : c.replied b reply = some (.error f) := by
  rw [replied, refused]

end Client

namespace Session

/-- A box that nothing was put into, and nothing that goes on in the session will put into. -/
structure New (s : Session) (b : Box) : Prop where
  heard : b ∉ s.gone
  empty : s.postsTo b = []
  blank : s.Blank b

/-- Whoever has sent a request finds in its box that it was accepted, and the handle. -/
def Accepts (t : Session) (b : Box) (route : Handle) : Prop :=
  ∀ c : Client, c.session = t → c.wasAccepted b = some (.ok route)

/-- Whoever has sent a request finds the failure in its box, also where it waits for a reply. -/
def Refuses (t : Session) (b : Box) (f : Failure) : Prop :=
  ∀ c : Client, c.session = t →
    c.wasAccepted b = some (.error f) ∧ ∀ reply, c.replied b reply = some (.error f)

/-- What is put in for whoever has sent a request. -/
def notice (answer : Option Box) (result : Except Failure Handle) : List (Box × Post) :=
  answer.toList.map fun box => (box, .accepted result)

/-- The session does not take requests any more. -/
structure Declines (s : Session) (answer : Option Box) (t : Session) : Prop where
  late : s.phase ≠ .established
  rest : t = { s with posts := t.posts }
  posts : ∃ put, t.posts = s.posts ++ put ∧
    ∀ e ∈ put, e ∈ notice answer (.error Failure.sessionClosed)
  told : ∀ b, answer = some b → s.New b → t.Refuses b Failure.sessionClosed

/-- The request is sent, and nothing changes apart from that and its route. -/
structure Admits (s : Session) (m : Message) (x : Route Target) (answer : Option Box)
    (t : Session) : Prop where
  opened : s.phase = .established
  out : (s.wire.send (.message m)).2 = none
  /-- The route is there before the message is sent. -/
  order : t = (({ s with router := (s.router.add x.keys x.handler).1 } : Session).transmitAnyway
    (.message m)).answer answer (.accepted (.ok x.handle))
  sent : t.wire.sent = s.wire.sent ++ [.message m]
  routes : t.router.routes = s.router.routes ++ [x]
  unnamed : ∀ y ∈ s.router.routes, y.handle ≠ x.handle
  called : ∀ key, x.handle ∈ t.router.matching key ↔ x.takes key = true
  others : ∀ key, (t.router.matching key).filter (fun h => h ≠ x.handle) = s.router.matching key
  posts : t.posts = s.posts ++ s.arriving (notice answer (.ok x.handle))
  rest : t = { s with wire := t.wire, router := t.router, posts := t.posts }
  told : ∀ b, answer = some b → s.New b → t.Accepts b x.handle

/-- The request does not get out. The session ends with that: everyone is told of the one failure,
the target of the request as well as whoever has sent it. -/
structure Drops (s : Session) (m : Message) (x : Route Target) (answer : Option Box) (f : Failure)
    (t : Session) : Prop where
  opened : s.phase = .established
  lost : ∃ description, (s.wire.send (.message m)).2 = some description ∧
    f = Failure.of (.sendFailed m.name description)
  kind : f.kind = .network
  closed : t.phase = .closed
  sent : t.wire.sent = s.wire.sent
  routes : t.router.routes = []
  unlisted : ∀ key, t.router.matching key = []
  posts : t.posts = s.posts ++
    s.arriving (s.lastPosts f ++ x.handler.lastPosts f ++ notice answer (.error f))
  once : (x.handler.lastPosts f).length ≤ 1 ∧
    ∀ e ∈ x.handler.lastPosts f, e.2.failure? = some f
  told : ∀ b, answer = some b → x.handler.feeds b = false → s.New b → t.Refuses b f
  target : ∀ b, answer ≠ some b → s.New b → t.postsTo b = x.handler.lastPostsTo b f

variable {s t : Session} {m : Message} {keys : List RouteKey} {target : Target}
  {answer : Option Box} {b : Box} {f : Failure}

theorem accepts_of_alone {route : Handle} (lies : t.postsTo b = [.accepted (.ok route)]) :
    t.Accepts b route := by
  rintro c rfl
  exact Client.wasAccepted_of_alone lies

theorem refuses_of_alone (lies : t.postsTo b = [.accepted (.error f)]) : t.Refuses b f := by
  rintro c rfl
  have refused := Client.wasAccepted_of_alone lies
  exact ⟨refused, Client.replied_of_refused refused⟩

/-! ### What is put into boxes -/

theorem arriving_append (entries more : List (Box × Post)) :
    s.arriving (entries ++ more) = s.arriving entries ++ s.arriving more :=
  List.filter_append _ _

/-- What reaches a box that somebody still looks into. -/
theorem postsTo_arriving (heard : b ∉ s.gone) {entries : List (Box × Post)}
    (posts : t.posts = s.posts ++ s.arriving entries) :
    t.postsTo b = s.postsTo b ++ entries.filterMap fun e => if e.1 = b then some e.2 else none := by
  rw [postsTo_append posts, arriving, List.filterMap_filter]
  congr 2
  funext e
  by_cases mine : e.1 = b
  · simp [mine, heard]
  · simp [mine]

theorem notice_to_other (other : answer ≠ some b) (result : Except Failure Handle) :
    ((notice answer result).filterMap fun e => if e.1 = b then some e.2 else none) = [] := by
  cases answer with
  | none => rfl
  | some own =>
    have apart : own ≠ b := fun same => other (congrArg some same)
    simp [notice, apart]

theorem notice_to_self (b : Box) (result : Except Failure Handle) :
    ((notice (some b) result).filterMap fun e => if e.1 = b then some e.2 else none) =
      [.accepted result] := by
  simp [notice]

/-- At the end of the session nobody puts anything into a new box. -/
theorem Blank.lastPosts (blank : s.Blank b) (f : Failure) :
    ((s.lastPosts f).filterMap fun e => if e.1 = b then some e.2 else none) = [] := by
  refine List.filterMap_eq_nil_iff.mpr fun e there => ?_
  rw [if_neg]
  rintro rfl
  rcases List.mem_append.mp there with told | left
  · obtain ⟨x, among, own⟩ := List.mem_flatMap.mp told
    have mine := Target.lastPostsTo_of_not_feeds (blank.routes x among) f
    have put : e.2 ∈ x.handler.lastPostsTo e.1 f :=
      List.mem_filterMap.mpr ⟨e, own, if_pos rfl⟩
    simp [mine] at put
  · obtain ⟨box, waits, rfl⟩ := List.mem_map.mp left
    exact blank.waiters waits

/-! ### Outcomes -/

theorem declines_request (late : s.phase ≠ .established) :
    s.Declines answer (s.step (.command (.request m keys target answer))) := by
  by_cases closed : s.phase = .closed
  · have same : s.step (.command (.request m keys target answer)) = s := if_pos closed
    rw [same]
    refine ⟨late, rfl, ⟨[], by simp, by simp⟩, ?_⟩
    rintro b - fresh c rfl
    have refused := Client.wasAccepted_of_over closed fresh.empty
    exact ⟨refused, Client.replied_of_refused refused⟩
  · have same : s.step (.command (.request m keys target answer)) =
        s.answer answer (.accepted (.error Failure.sessionClosed)) :=
      (if_neg closed).trans (obey_request_late late m keys target answer)
    have posts : (s.answer answer (.accepted (.error Failure.sessionClosed))).posts =
        s.posts ++ s.arriving (notice answer (.error Failure.sessionClosed)) :=
      congrArg posts (answer_eq s answer _)
    rw [same]
    refine ⟨late, ?_, ⟨_, posts, fun e there => (mem_arriving.mp there).1⟩, ?_⟩
    · rw [answer_eq]
    · rintro b rfl fresh
      refine refuses_of_alone ?_
      rw [postsTo_arriving fresh.heard posts, fresh.empty, notice_to_self, List.nil_append]

/-- The session with the route of a request, when it has tried to send it. -/
def asking (s : Session) (wire : Wire) (keys : List RouteKey) (target : Target) : Session :=
  { s with wire, router := (s.router.add keys target).1 }

/-- The message settles no invocation, so that the route is all that changes before it is sent. -/
theorem step_request (opened : s.phase = .established) (plain : m.settles? = none) :
    s.step (.command (.request m keys target answer)) =
      match s.wire.send (.message m) with
      | (wire, none) => (s.asking wire keys target).answer answer
          (.accepted (.ok (s.router.lastHandle + 1)))
      | (wire, some description) =>
        ((s.asking wire keys target).terminate (sendFailure m description)).answer answer
          (.accepted (.error (sendFailure m description))) := by
  have obeyed : s.step (.command (.request m keys target answer)) =
      s.obey (.request m keys target answer) := if_neg (by simp [opened])
  rw [obeyed, obey_request opened, sendOrTerminate_eq, retiring_of_plain plain, transmit]
  rcases s.wire.send (.message m) with ⟨wire, _ | description⟩
  · rfl
  · have live : (s.asking wire keys target).phase ≠ .closed := by simp [asking, opened]
    exact congrArg (fun t : Session => t.answer answer _) (eraseRoute_terminate live _ _)

theorem admits_request (sound : s.Sound) (opened : s.phase = .established)
    (plain : m.settles? = none) {wire : Wire} (sends : s.wire.send (.message m) = (wire, none)) :
    s.Admits m ⟨s.router.lastHandle + 1, keys, target⟩ answer
      (s.step (.command (.request m keys target answer))) := by
  let u := s.asking wire keys target
  let accepted : Post := .accepted (.ok (s.router.lastHandle + 1))
  have stepped : s.step (.command (.request m keys target answer)) = u.answer answer accepted := by
    rw [step_request opened plain, sends]
  have posts : (u.answer answer accepted).posts =
      s.posts ++ s.arriving (notice answer (.ok (s.router.lastHandle + 1))) :=
    congrArg Session.posts (answer_eq u answer accepted)
  rw [stepped]
  refine ⟨opened, by rw [sends], ?_, ?_, ?_, ?_, fun key => ?_, fun key => ?_, posts, ?_, ?_⟩
  · rw [transmitAnyway, transmit, sends]
    rfl
  · rw [answer_eq]
    exact Wire.sent_of_out sends
  · rw [answer_router]
    rfl
  · exact fun y there => Nat.ne_of_lt (Nat.lt_succ_of_le (sound.tidy.bounded y there))
  · rw [answer_router]
    exact (sound.tidy.matching_add keys target key).1
  · rw [answer_router]
    exact (sound.tidy.matching_add keys target key).2
  · rw [answer_eq]
    rfl
  · rintro b rfl fresh
    refine accepts_of_alone ?_
    rw [postsTo_arriving fresh.heard posts, fresh.empty, notice_to_self, List.nil_append]

theorem drops_request (idle : s.closeWaiters = []) (opened : s.phase = .established)
    (plain : m.settles? = none) {wire : Wire} {description : String}
    (sends : s.wire.send (.message m) = (wire, some description)) :
    s.Drops m ⟨s.router.lastHandle + 1, keys, target⟩ answer (sendFailure m description)
      (s.step (.command (.request m keys target answer))) := by
  let f := sendFailure m description
  let u := s.asking wire keys target
  have live : u.phase ≠ .closed := by simp [u, asking, opened]
  have ended := terminate_eq live f
  have stepped : s.step (.command (.request m keys target answer)) =
      (u.terminate f).answer answer (.accepted (.error f)) := by
    rw [step_request opened plain, sends]
  have last : u.lastPosts f = s.lastPosts f ++ target.lastPosts f := by
    simp [lastPosts, u, asking, idle, Router.routes_add]
  have posts : ((u.terminate f).answer answer (.accepted (.error f))).posts =
      s.posts ++ s.arriving (s.lastPosts f ++ target.lastPosts f ++ notice answer (.error f)) := by
    rw [answer_eq, ended, arriving_append, ← List.append_assoc, ← last]
    rfl
  -- a new box shows what the target is due, and the answer
  have read : ∀ {b : Box}, s.New b →
      ((u.terminate f).answer answer (.accepted (.error f))).postsTo b = target.lastPostsTo b f ++
        (notice answer (.error f)).filterMap fun e => if e.1 = b then some e.2 else none := by
    intro b fresh
    rw [postsTo_arriving fresh.heard posts, List.filterMap_append, List.filterMap_append,
      fresh.empty, fresh.blank.lastPosts]
    rfl
  rw [stepped]
  refine ⟨opened, ⟨description, by rw [sends], rfl⟩, rfl, ?_, ?_, ?_, fun key => ?_, posts,
    target.lastPosts_single f, ?_, fun b other fresh => ?_⟩
  · rw [answer_phase, phase_terminate]
  · rw [answer_eq]
    exact (sent_terminate u f).trans (Wire.sent_of_lost sends)
  · rw [answer_router]
    exact congrArg (fun t : Session => t.router.routes) ended
  · rw [answer_router]
    exact congrArg (fun t : Session => t.router.matching key) ended
  · rintro b rfl silent fresh
    refine refuses_of_alone ?_
    rw [read fresh, Target.lastPostsTo_of_not_feeds silent, notice_to_self, List.nil_append]
  · rw [read fresh, notice_to_other other, List.append_nil]

/-- A request that a session takes up, at whatever moment, comes to one of three ends. The session
is not established: nothing is sent, no route is installed, and the sender is told that the session
is closed. Or the message is sent, once, when its route is there under its keys; the other routes
stay as they are, and the sender is told the handle. Or the message does not get out: the sender is
told of a failure of the network, and the target of the same one, at most once; no route is left,
and the session is closed. -/
theorem request_outcomes (wire : Wire) (now closeTimeout : Nat) (inputs : List Input) {m : Message}
    (asks : m.isRequest = true) (keys : List RouteKey) (target : Target) (answer : Option Box) :
    let s := (established wire now closeTimeout).run inputs
    let x : Route Target := ⟨s.router.lastHandle + 1, keys, target⟩
    let t := s.step (.command (.request m keys target answer))
    s.Declines answer t ∨ s.Admits m x answer t ∨ ∃ f, s.Drops m x answer f t := by
  intro s x t
  have start := sound_established wire now closeTimeout
  have plain := Message.settles?_of_isRequest asks
  by_cases opened : s.phase = .established
  · right
    have fit := fit_run start (fit_established wire now closeTimeout) inputs
    have idle : s.closeWaiters = [] := by
      by_contra waits
      exact absurd (opened.symm.trans (fit.waiters waits)) (by simp)
    rcases sends : s.wire.send (.message m) with ⟨wire', _ | description⟩
    · exact Or.inl (admits_request (start.run inputs) opened plain sends)
    · exact Or.inr ⟨_, drops_request idle opened plain sends⟩
  · exact Or.inl (declines_request opened)

/-- Two calls over a stream that breaks off after the first. -/
theorem request_dropped_call :
    let call (id : Id) : Message := .call id [] ⟨"a"⟩ default
    let second : Id := ⟨2, by decide, by decide⟩
    let s := (established (Wire.fresh fun n => if n = 0 then none else some "reset") 0 1000).run
      oneCall
    let t := s.step (.command (.request (call second) (Client.callKeys second) (.call 1) (some 2)))
    let f := Failure.of (.sendFailed "CALL" "reset")
    (call second).isRequest = true ∧ s.wire.sent = [.message (call Id.min)] ∧ s.New 2 ∧
      t.wire.sent = s.wire.sent ∧ t.phase = .closed ∧ t.router.routes = [] ∧
      t.posts = [(0, .outcome (.error f)), (1, .outcome (.error f)), (2, .accepted (.error f))] ∧
      t.Refuses 2 f := by
  intro call second s t f
  have new : s.New 2 := ⟨by decide, rfl, by decide, by decide⟩
  have lost : (s.wire.send (.message (call second))).2 = some "reset" := rfl
  rcases request_outcomes (Wire.fresh fun n => if n = 0 then none else some "reset") 0 1000 oneCall
    (m := call second) rfl (Client.callKeys second) (.call 1) (some 2) with
    declined | admitted | ⟨g, dropped⟩
  · exact absurd (by decide) declined.late
  · exact absurd (admitted.out.symm.trans lost) (by simp)
  · obtain ⟨description, told, rfl⟩ := dropped.lost
    obtain rfl : description = "reset" := Option.some.inj (told.symm.trans lost)
    exact ⟨rfl, rfl, new, dropped.sent, dropped.closed, dropped.routes, dropped.posts,
      dropped.told 2 rfl rfl new⟩

end Session

end WampClient
