import WampClient.Proofs.Client.Openings

/-! What lies in the box of a ticket that is held. The box of a call has the answers to it up to the
last one, or the failure with which the session ends; the box of a registration or subscription has
every invocation or event under its id that is handled while its route is there. -/
namespace WampClient

namespace Message

/-- Whether it is a RESULT of, or an ERROR for, the call with this request id. -/
def answersCall (id : Id) : Message → Bool
  | .result request _ _ => request == id
  | .error requestType request _ _ _ => requestType == MessageType.call.code && request == id
  | _ => false

/-- The messages up to the first one after which no more follow. -/
def untilLast : List Message → List Message
  | [] => []
  | m :: rest => m :: if m.moreFollows then untilLast rest else []

theorem untilLast_of_more {ms : List Message} (more : ∀ m ∈ ms, m.moreFollows = true) :
    untilLast ms = ms := by
  induction ms with
  | nil => rfl
  | cons m rest ih =>
    rw [untilLast, if_pos (more m List.mem_cons_self),
      ih fun m there => more m (List.mem_cons_of_mem _ there)]

theorem any_untilLast (ms : List Message) :
    (untilLast ms).any (fun m => !m.moreFollows) = ms.any fun m => !m.moreFollows := by
  induction ms with
  | nil => rfl
  | cons m rest ih =>
    cases more : m.moreFollows <;> simp [untilLast, more, ih]

/-- More follow after all but the last. -/
theorem moreFollows_of_dropLast (ms : List Message) :
    ∀ m ∈ (untilLast ms).dropLast, m.moreFollows = true := by
  induction ms with
  | nil => simp [untilLast]
  | cons m rest ih =>
    cases more : m.moreFollows with
    | false => simp [untilLast, more]
    | true =>
      intro other there
      rw [untilLast, if_pos more] at there
      cases later : untilLast rest with
      | nil => simp [later] at there
      | cons n others =>
        rw [later, List.dropLast_cons_cons] at there
        rcases List.mem_cons.mp there with rfl | there
        · exact more
        · exact ih other (later ▸ there)

end Message

theorem takes_callKeys (h : Handle) (id : Id) (target : Target) (m : Message) :
    (⟨h, Client.callKeys id, target⟩ : Route Target).takes (RouteKey.ofMessage m) =
      m.answersCall id := by
  rw [Bool.eq_iff_iff]
  cases m with
  | result request details payload =>
    simp [Route.takes, Client.callKeys, RouteKey.covers, RouteKey.ofReply, RouteKey.ofRefusal,
      RouteKey.ofMessage, Message.answersCall, Message.code, Message.type?, Message.requestId?,
      @eq_comm _ id]
  | error requestType request details reason payload =>
    simp [Route.takes, Client.callKeys, RouteKey.covers, RouteKey.ofReply, RouteKey.ofRefusal,
      RouteKey.ofMessage, Message.answersCall, @eq_comm _ id, @eq_comm _ requestType]
  | _ =>
    simp [Route.takes, Client.callKeys, RouteKey.covers, RouteKey.ofReply, RouteKey.ofRefusal,
      RouteKey.ofMessage, Message.answersCall, Message.code, Message.type?, Message.requestId?,
      MessageType.code]

/-- What has come back for a call, given the answers to it that were handled: those up to the last
one, or, if the session has ended before that, all of them and then the failure of its end. -/
inductive Returns (answers : List Message) (closed : Prop) : List (Except Failure Message) → Prop
  | going (more : ∀ m ∈ answers, m.moreFollows = true) (live : ¬ closed) :
      Returns answers closed (answers.map .ok)
  | answered (last : ∃ m ∈ answers, m.moreFollows = false) :
      Returns answers closed ((Message.untilLast answers).map .ok)
  | ended (more : ∀ m ∈ answers, m.moreFollows = true) (late : closed) {f : Failure}
      (network : f.kind = .network) : Returns answers closed (answers.map .ok ++ [.error f])

theorem CallTicket.isLast_judge (t : CallTicket) (m : Message) :
    CallTicket.isLast (t.judge (.ok m)) = !m.moreFollows := by
  cases m <;> rfl

namespace Returns

variable {answers : List Message} {closed : Prop} {items : List (Except Failure Message)}

/-- What the caller takes for the last result is what the session takes for it. -/
theorem any_last (returns : Returns answers closed items) (t : CallTicket) :
    (items.any fun came => CallTicket.isLast (t.judge came)) = true ↔
      closed ∨ ∃ m ∈ answers, m.moreFollows = false := by
  have judged : ∀ ms : List Message, ((ms.map Except.ok).any fun came =>
      CallTicket.isLast (t.judge came)) = ms.any fun m => !m.moreFollows := by
    intro ms
    rw [List.any_map]
    exact congrArg ms.any (funext t.isLast_judge)
  cases returns with
  | going more live =>
    rw [judged]
    simp_all
  | answered last =>
    rw [judged, Message.any_untilLast]
    exact iff_of_true (by simpa using last) (Or.inr last)
  | ended more late network =>
    refine iff_of_true ?_ (Or.inl late)
    rw [List.any_append]
    simp [CallTicket.judge, CallTicket.isLast]

/-- All but the last are results after which more follow. -/
theorem progress (returns : Returns answers closed items) (t : CallTicket) :
    ∀ came ∈ items.dropLast, ∃ r, t.judge came = .ok r ∧ r.progress = true := by
  have judged : ∀ m : Message, m.moreFollows = true →
      ∃ r, t.judge (.ok m) = .ok r ∧ r.progress = true := by
    intro m more
    cases m with
    | result request details payload => exact ⟨_, rfl, more⟩
    | _ => exact nomatch more
  intro came there
  cases returns with
  | going more live =>
    obtain ⟨m, among, rfl⟩ := List.mem_map.mp (List.dropLast_subset _ there)
    exact judged m (more m among)
  | answered last =>
    rw [← List.map_dropLast] at there
    obtain ⟨m, among, rfl⟩ := List.mem_map.mp there
    exact judged m (Message.moreFollows_of_dropLast answers m among)
  | ended more late network =>
    rw [List.dropLast_concat] at there
    obtain ⟨m, among, rfl⟩ := List.mem_map.mp there
    exact judged m (more m among)

end Returns

namespace FeedKind

/-- The key under which invocations of a registration, or events of a subscription, come in. -/
def itemKey (id : Id) : FeedKind → RouteKey
  | .registration => RouteKey.ofReply .invocation id
  | .subscription => RouteKey.ofReply .event id

theorem id_itemKey (kind : FeedKind) (id : Id) : (kind.itemKey id).id = some id := by
  cases kind <;> rfl

/-- The invocation or event that a message is for the registration or subscription with an id. -/
def item? (id : Id) (m : Message) : FeedKind → Option Item
  | .registration => match m with
    | .invocation request own details payload =>
      if own = id then some (.invocation ⟨request, own, details, payload⟩) else none
    | _ => none
  | .subscription => match m with
    | .event own publication details payload =>
      if own = id then some (.event ⟨own, publication, details, payload⟩) else none
    | _ => none

theorem enrolledKey_of_enrolled {kind : FeedKind} {m : Message} {id : Id}
    (confirms : kind.enrolled? m = some id) : m.enrolledKey? = some (kind.itemKey id) := by
  cases kind with
  | registration => cases m <;> simp_all [enrolled?, Message.enrolledKey?, itemKey]
  | subscription => cases m <;> simp_all [enrolled?, Message.enrolledKey?, itemKey]

theorem gives_feed (h : Handle) (kind : FeedKind) (id : Id) (box : Box) (m : Message) :
    (⟨h, [kind.itemKey id], .feed (kind.feed box)⟩ : Route Target).gives m = kind.item? id m := by
  have takes : (⟨h, [kind.itemKey id], .feed (kind.feed box)⟩ : Route Target).takes
      (RouteKey.ofMessage m) = (kind.itemKey id).covers (RouteKey.ofMessage m) := by
    simp [Route.takes]
  rw [Route.gives, takes]
  cases kind with
  | registration =>
    cases m with
    | invocation request own details payload =>
      simp [itemKey, RouteKey.covers, RouteKey.ofReply, RouteKey.ofMessage, item?, Target.item?,
        feed, @eq_comm _ id]
    | _ => exact ite_self _
  | subscription =>
    cases m with
    | event own publication details payload =>
      simp [itemKey, RouteKey.covers, RouteKey.ofReply, RouteKey.ofMessage, item?, Target.item?,
        feed, @eq_comm _ id]
    | _ => exact ite_self _

end FeedKind

namespace Client

variable {c : Client} {ms : List Move} {x : Route Target} {b : Box}

/-! ### Calls -/

/-- The route of a call is cut off by the last answer to the call, and by nothing else. -/
theorem cuts_of_keeps (keeps : c.Keeps x b) (m : Move) (call : x.handler = .call b) :
    c.cuts x m = (c.hears m).any fun came =>
      x.takes (RouteKey.ofMessage came) && !came.moreFollows := by
  have stays : (c.input? m).any (c.session.withdraws x.handle) = false := by
    cases takes : c.input? m with
    | none => rfl
    | some input =>
      exact Session.not_withdraws keeps.loyal.session.routes
        (removes_input takes keeps.loyal.commands)
  rw [cuts, stays, Bool.and_false, Bool.or_false, call]
  rfl

theorem window_of_keeps (keeps : c.Keeps x b) (sound : c.session.Sound) (call : x.handler = .call b)
    (heard : b ∉ (c.run ms).session.gone) :
    let answers := (c.heard ms).filter fun m => x.takes (RouteKey.ofMessage m)
    (c.window x ms).filter (fun m => x.takes (RouteKey.ofMessage m)) = Message.untilLast answers ∧
      c.isCut x ms = answers.any fun m => !m.moreFollows := by
  induction ms generalizing c with
  | nil => exact ⟨rfl, rfl⟩
  | cons m rest ih =>
    have sound' := sound_move sound m
    have keeps' := keeps.moves sound (Client.moves c m) (not_gone_of_run sound' heard)
    obtain ⟨answers, cut⟩ := ih keeps' sound' heard
    simp only [window, isCut, Client.heard, cuts_of_keeps keeps m call]
    cases hears : c.hears m with
    | none => exact ⟨answers, by simpa using cut⟩
    | some came =>
      cases own : x.takes (RouteKey.ofMessage came) with
      | false => simp [own, answers, cut]
      | true =>
        cases more : came.moreFollows with
        | false => simp [own, more, Message.untilLast]
        | true => simp [own, more, Message.untilLast, answers, cut]

/-! ### How a box stands -/

theorem Stands.feeds {s : Session} {cut : Bool} {last : List Post} (stands : Stands x b s cut last)
    (mouth : x.Mouth b) : s.feeds b = true ↔ s.phase ≠ .closed ∧ cut = false := by
  cases stands with
  | opened live there =>
    exact iff_of_true (Session.feeds_eq_true.mpr ⟨live, Or.inl ⟨x, there, mouth.feeds⟩⟩) ⟨live, rfl⟩
  | ended late network => simp [Session.feeds, late]
  | cut unfed => simp [unfed]

theorem Stands.route {s : Session} {cut : Bool} {last : List Post} (stands : Stands x b s cut last)
    (mouth : x.Mouth b) (live : s.phase ≠ .closed) : x ∈ s.router.routes ↔ cut = false := by
  refine ⟨fun there => ?_, fun uncut => ?_⟩
  · have fed := Session.feeds_eq_true.mpr ⟨live, Or.inl ⟨x, there, mouth.feeds⟩⟩
    exact ((stands.feeds mouth).mp fed).2
  · cases stands with
    | opened live there => exact there
    | ended late network => exact absurd late live
    | cut unfed => exact nomatch uncut

theorem Post.eq_outcome {p : Post} {came : Except Failure Message}
    (item : p.item? = some (.outcome came)) : p = .outcome came := by
  cases p <;> simp_all [Post.item?]

/-- The posts that a call's route has made of messages. -/
theorem outcomes_of_items {posts : List Post} {messages : List Message} (call : x.handler = .call b)
    (items : posts.map Post.item? = (messages.filterMap x.gives).map some) :
    posts = (messages.filter fun m => x.takes (RouteKey.ofMessage m)).map fun m =>
      .outcome (.ok m) := by
  induction messages generalizing posts with
  | nil => simpa using items
  | cons m rest ih =>
    cases own : x.takes (RouteKey.ofMessage m) with
    | false =>
      have none' : x.gives m = none := by simp [Route.gives, own]
      rw [List.filterMap_cons, none'] at items
      simpa [own] using ih items
    | true =>
      have given : x.gives m = some (.outcome (.ok m)) := by
        simp [Route.gives, own, call, Target.item?]
      rw [List.filterMap_cons, given] at items
      cases posts with
      | nil => simp at items
      | cons p others =>
        obtain ⟨first, later⟩ := List.cons.inj items
        rw [Post.eq_outcome first, ih later]
        simp [own]

/-- What lies in the box of a call is what has come back for it. -/
theorem Stands.returns {s : Session} {cut : Bool} {posts last : List Post}
    {answers : List Message} (stands : Stands x b s cut last) (call : x.handler = .call b)
    (more : cut = false ↔ ∀ m ∈ answers, m.moreFollows = true)
    (given : posts = (Message.untilLast answers).map fun m => .outcome (.ok m)) :
    ∃ items : List (Except Failure Message), posts ++ last = items.map .outcome ∧
      Returns answers (s.phase = .closed) items := by
  rw [given]
  cases stands with
  | opened live there =>
    have all := more.mp rfl
    refine ⟨_, ?_, .going all live⟩
    rw [Message.untilLast_of_more all]
    simp
  | @ended late f network =>
    have all := more.mp rfl
    refine ⟨_, ?_, .ended all late network⟩
    rw [Message.untilLast_of_more all]
    simp [call, Target.lastPostsTo, Target.lastPosts]
  | cut unfed =>
    refine ⟨_, ?_, .answered ?_⟩
    · simp
    · by_contra all
      cases more.mpr (by simpa using all)

end Client

/-! ### Tickets -/

open Client

/-- What has come of a call, given the answers to it that were handled. -/
structure CallTicket.Stands (t : CallTicket) (answers : List Message)
    (items : List (Except Failure Message)) (c : Client) : Prop where
  aside : c.Aside t.box
  contents : c.session.postsTo t.box = items.map .outcome
  returns : Returns answers (c.session.phase = .closed) items
  fed : c.session.feeds t.box = true ↔
    c.session.phase ≠ .closed ∧ ∀ m ∈ answers, m.moreFollows = true
  route : c.session.phase ≠ .closed →
    (⟨t.route, callKeys t.id, .call t.box⟩ ∈ c.session.router.routes ↔
      ∀ m ∈ answers, m.moreFollows = true)

/-- Between the one client and the other the session has handled the reply to the request for the
registration or subscription, which is among those that were asked for: it has put the route in,
and whoever waits for the reply was told of it. -/
structure FeedTicket.Confirmed (t : FeedTicket) (reply : Message) (asked : List Command)
    (c d : Client) : Prop where
  confirms : t.kind.enrolled? reply = some t.id
  asked : ∃ message request box answer,
    .request message (t.kind.enrolmentKeys request)
      (.reply (some box) (some (.install (t.kind.feed t.box)))) answer ∈ asked ∧
    c.session.postsTo box = [] ∧ d.session.postsTo box = [.reply (.ok (reply, some t.route))]
  route : ⟨t.route, [t.kind.itemKey t.id], .feed (t.kind.feed t.box)⟩ ∈ d.session.router.routes

/-- What has come of a registration or subscription, given the items that were handled for it, and
whether its route was cut off. -/
structure FeedTicket.Stands (t : FeedTicket) (items : List Item) (cut : Bool) (c : Client) :
    Prop where
  aside : c.Aside t.box
  contents : (c.session.postsTo t.box).map Post.item? = items.map some
  fed : c.session.feeds t.box = true ↔ c.session.phase ≠ .closed ∧ cut = false
  route : c.session.phase ≠ .closed →
    (⟨t.route, [t.kind.itemKey t.id], .feed (t.kind.feed t.box)⟩ ∈ c.session.router.routes ↔
      cut = false)

namespace Client

variable {c : Client} {ms : List Move}

theorem Aside.run {b : Box} (aside : c.Aside b) (ms : List Move) : (c.run ms).Aside b := by
  induction ms generalizing c with
  | nil => exact aside
  | cons m rest ih => exact ih (aside.move m)

theorem Fresh.call_stands (fresh : Fresh c) {t : CallTicket}
    (arises : t.Arises (c.served ms ++ (c.run ms).commands) (c.run ms).session.posts)
    (heard : t.box ∉ (c.run ms).session.gone) :
    ∃ before after message accepted rest, ms = before ++ .serve :: after ∧
      (c.run before).commands =
        .request message (callKeys t.id) (.call t.box) (some accepted) :: rest ∧
      let start := (c.run before).move .serve
      (accepted, .accepted (.ok t.route)) ∈ start.session.posts ∧
        ∀ later, t.box ∉ ((c.run ms).run later).session.gone → ∃ items,
          t.Stands ((start.heard (after ++ later)).filter (Message.answersCall t.id)) items
            ((c.run ms).run later) := by
  obtain ⟨before, early, message, accepted, rest, rfl, next, told, starts, keeps⟩ :=
    fresh.call_starts arises heard
  refine ⟨before, early, message, accepted, rest, rfl, next, told, fun later heard => ?_⟩
  let x : Route Target := ⟨t.route, callKeys t.id, .call t.box⟩
  have mouth : x.Mouth t.box :=
    ⟨Or.inl rfl, by simp [x, callKeys, RouteKey.ofReply, RouteKey.ofRefusal]⟩
  have all : (c.run (before ++ .serve :: early)).run later =
      ((c.run before).move .serve).run (early ++ later) := by
    rw [run_append, run_append]
    rfl
  rw [all] at heard ⊢
  generalize early ++ later = after at heard ⊢
  have sound := starts.tends.sole.sound
  obtain ⟨new, last, posts, given, stands⟩ := starts.run mouth (Or.inr keeps) heard
  obtain ⟨answers, cut⟩ := window_of_keeps keeps sound rfl heard
  have same : (fun m => x.takes (RouteKey.ofMessage m)) = Message.answersCall t.id :=
    funext fun m => takes_callKeys t.route t.id (.call t.box) m
  have outcomes := outcomes_of_items (b := t.box) rfl given
  rw [answers] at outcomes
  rw [same] at outcomes cut
  generalize (((c.run before).move .serve).heard after).filter (Message.answersCall t.id) =
    answered at outcomes cut ⊢
  have more : ((c.run before).move .serve).isCut x after = false ↔
      ∀ m ∈ answered, m.moreFollows = true := by
    rw [cut]
    simp
  have aside := starts.tends.aside.run after
  have fed := (stands.feeds mouth).trans (and_congr_right fun _ => more)
  have route := fun live => (stands.route mouth live).trans more
  obtain ⟨items, contents, returns⟩ := stands.returns rfl more outcomes
  exact ⟨items, aside, posts.trans contents, returns, fed, route⟩

theorem Fresh.feed_stands (fresh : Fresh c) {t : FeedTicket}
    (arises : t.Arises (c.served ms ++ (c.run ms).commands) (c.run ms).session.posts)
    (heard : t.box ∉ (c.run ms).session.gone) :
    ∃ before after reply, ms = before ++ .arrive (.item (.message reply)) :: after ∧
      let d := (c.run before).move (.arrive (.item (.message reply)))
      let x : Route Target := ⟨t.route, [t.kind.itemKey t.id], .feed (t.kind.feed t.box)⟩
      t.Confirmed reply (c.served before) (c.run before) d ∧
        t.Stands ((d.window x after).filterMap fun m => t.kind.item? t.id m) (d.isCut x after)
          (c.run ms) := by
  obtain ⟨before, after, reply, key, rfl, confirms, known, message, request, box, answer, asked,
    silent, aside, done⟩ := fresh.feed_confirmed arises heard
  obtain rfl : t.kind.itemKey t.id = key :=
    Option.some.inj ((FeedKind.enrolledKey_of_enrolled confirms).symm.trans known)
  let x : Route Target := ⟨t.route, [t.kind.itemKey t.id], .feed (t.kind.feed t.box)⟩
  have mouth : x.Mouth t.box := by
    refine ⟨Or.inr ⟨t.kind.feed t.box, FeedKind.box_feed _ _, rfl⟩, fun key own => ?_⟩
    rw [List.mem_singleton.mp own, FeedKind.id_itemKey]
    exact Option.some_ne_none _
  have tends : ((c.run before).move (.arrive (.item (.message reply)))).Tends x t.box :=
    ⟨done.items, aside⟩
  rw [run_append] at heard ⊢
  have heard : t.box ∉ (((c.run before).move (.arrive (.item (.message reply)))).run
    after).session.gone := heard
  obtain ⟨new, last, posts, given, stands⟩ :=
    tends.run mouth (Or.inl fun _ => rfl) done.live done.there heard
  have none' : last = [] := by
    generalize ((c.run before).move (.arrive (.item (.message reply)))).isCut x after = cut
      at stands
    cases stands <;> rfl
  rw [done.empty, none', List.nil_append, List.append_nil] at posts
  have same : x.gives = fun m => t.kind.item? t.id m :=
    funext fun m => FeedKind.gives_feed t.route t.kind t.id t.box m
  rw [same, ← posts] at given
  refine ⟨before, after, reply, rfl, ⟨confirms, ?_, done.there⟩, aside.run after, given,
    stands.feeds mouth, fun live => stands.route mouth live⟩
  exact ⟨message, request, box, answer, asked, silent, done.told⟩

end Client

end WampClient
