import WampClient.Proofs.Client.Streams

/-! How a box of a client comes to be fed. The route of a request is there from the moment at which
the session takes the request up; the one of a registration or subscription from the moment at
which the session handles the reply that confirms it. -/
namespace WampClient.Client

variable {c d : Client} {past : List Command} {ms : List Move} {x y : Route Target}
  {a b r : Box} {h : Handle} {m : Message} {keys : List RouteKey} {target : Target}

/-- A client that has asked for nothing and was told nothing yet. -/
structure Fresh (c : Client) : Prop where
  settled : Settled [] c
  awaits : ∀ b, c.Awaits b
  loyal : ∀ h b, c.Loyal h b
  untold : c.session.posts = []
  bare : c.session.router.routes = []
  empty : c.heldTickets = []

theorem fresh_joined (wire : Wire) (now closeTimeout : Nat) (ids : IdSource) (id : Id) (realm : Uri)
    (details : Dictionary) :
    Fresh (joined (Session.established wire now closeTimeout) ids id realm details) where
  settled := settled_joined wire now closeTimeout ids id realm details
  awaits := awaits_joined wire now closeTimeout ids id realm details
  loyal := loyal_joined wire now closeTimeout ids id realm details
  untold := rfl
  bare := rfl
  empty := rfl

/-- A client that has just joined a realm, over a stream that works. -/
def newcomer : Client :=
  joined (Session.established (Wire.fresh fun _ => none) 0 1000) IdSource.initial Id.min
    ⟨"realm"⟩ []

theorem fresh_newcomer : Fresh newcomer := fresh_joined _ _ _ _ _ _ _

/-! ### Requests -/

/-- The request is taken up here, and the session goes on to put what it can into the box. -/
structure Starts (x : Route Target) (b : Box) (c : Client) : Prop where
  tends : c.Tends x b
  look : c.session.outlook b = ⟨[], true, false⟩ ∨ ∃ f, f.kind = .network ∧
    c.session.outlook b = Outlook.ended ⟨[], true, false⟩ b x.handler f

/-- The one command that names a box is in the queue. -/
theorem Books.not_feeds (books : Books past c) {command : Command} {rest : List Command}
    (next : c.commands = command :: rest) (feeds : command.feeds b = true) :
    (∀ other ∈ past, other.feeds b = false) ∧ ∀ other ∈ rest, other.feeds b = false := by
  have single := books.issued.single b
  have one : feeding (command :: rest) b = feeding rest b + 1 := by
    simp [feeding, feeds]
  rw [next, feeding_append, one] at single
  have none' : ∀ commands, feeding commands b = 0 → ∀ other ∈ commands, other.feeds b = false := by
    intro commands zero other there
    by_contra feeds'
    have some' : 0 < feeding commands b := feeding_pos.mpr ⟨other, there, by simpa using feeds'⟩
    omega
  exact ⟨none' past (by omega), none' rest (by omega)⟩

theorem Books.starts (books : Books past c) {rest : List Command}
    (next : c.commands = .request m keys target (some a) :: rest)
    (live : c.session.phase = .established) (mine : target.feeds b = true) (other : a ≠ b)
    (heard : b ∉ c.session.gone) :
    (c.move .serve).Starts ⟨c.session.router.lastHandle + 1, keys, target⟩ b := by
  have feeds : (Command.request m keys target (some a)).feeds b = true := by
    simp [Command.feeds, mine]
  obtain ⟨early, late⟩ := books.not_feeds next feeds
  obtain ⟨empty, blank⟩ := books.blank b early
  have takes : c.input? .serve = some (.command (.request m keys target (some a))) := by
    simp [input?, next]
  obtain ⟨-, look, becomes⟩ := (blank heard).installed books.sound live heard m keys mine
    (fun same => other (Option.some.inj same))
  rw [Session.Calm, look, empty, ← session_move takes] at becomes
  have served : (c.move .serve).commands = rest := by
    rw [move, serve]
    split
    next none' => simp [next] at none'
    next same => exact (List.cons.inj (same.symm.trans next)).2
  have boxes : (c.move .serve).nextBox = c.nextBox := by
    rw [move, serve]
    split <;> rfl
  have given := (books.issued.fresh (.request m keys target (some a))
    (by simp [next]) b feeds).2
  refine ⟨⟨becomes.sole, boxes ▸ given, fun command there => ?_⟩, becomes.look⟩
  exact late command (served ▸ there)

theorem mem_served_of_next {before : List Move} (after : List Move) {command : Command}
    {rest : List Command} (next : (c.run before).commands = command :: rest) :
    command ∈ c.served (before ++ .serve :: after) := by
  rw [served_append]
  refine List.mem_append_right _ (List.mem_append_left _ ?_)
  simp [taken, next]

/-- A request that was accepted was taken up in the run. -/
theorem Fresh.exists_serve (fresh : Fresh c) {route : Handle}
    (asked : .request m keys target (some a) ∈ c.served ms ++ (c.run ms).commands)
    (told : (a, .accepted (.ok route)) ∈ (c.run ms).session.posts) :
    ∃ before after rest, ms = before ++ .serve :: after ∧
      (c.run before).commands = .request m keys target (some a) :: rest ∧
      (c.run before).session.phase = .established ∧
      route = (c.run before).session.router.lastHandle + 1 ∧
      (a, .accepted (.ok route)) ∈ ((c.run before).move .serve).session.posts := by
  have absent : (a, .accepted (.ok route)) ∉ c.session.posts := by simp [fresh.untold]
  obtain ⟨before, after, m', keys', target', rest, rfl, next, live, same, accepted⟩ :=
    Client.exists_serve fresh.settled.books told absent
  refine ⟨before, after, rest, rfl, ?_, live, same, accepted⟩
  have books : Books (c.served (before ++ .serve :: after)) (c.run (before ++ .serve :: after)) :=
    fresh.settled.books.run _
  have among : Command.request m' keys' target' (some a) ∈
      c.served (before ++ .serve :: after) ++ (c.run (before ++ .serve :: after)).commands :=
    List.mem_append_left _ (mem_served_of_next after next)
  rw [next, books.unique (b := a) among asked (by simp [Command.feeds]) (by simp [Command.feeds])]

theorem Starts.opened (starts : c.Starts x b) (live : c.session.phase ≠ .closed) :
    c.session.outlook b = ⟨[], true, false⟩ := by
  rcases starts.look with same | ⟨f, -, ended⟩
  · exact same
  · have closed := congrArg Outlook.closed ended
    simp [Session.outlook, Outlook.ended, live] at closed

/-- The session has ended with the request. -/
theorem Starts.ended (starts : c.Starts x b) (late : c.session.phase = .closed) :
    ∃ f : Failure, f.kind = .network ∧ c.session.postsTo b = x.handler.lastPostsTo b f := by
  rcases starts.look with same | ⟨f, network, ended⟩
  · have closed := congrArg Outlook.closed same
    simp [Session.outlook, late] at closed
  · have posts := congrArg Outlook.posts ended
    exact ⟨f, network, by simpa [Session.outlook, Outlook.ended] using posts⟩

/-- What has come into the box since the request was taken up. -/
theorem Starts.run (starts : c.Starts x b) (mouth : x.Mouth b) (free : Free x b c)
    (heard : b ∉ (c.run ms).session.gone) :
    ∃ new last, (c.run ms).session.postsTo b = new ++ last ∧
      new.map Post.item? = ((c.window x ms).filterMap x.gives).map some ∧
      Stands x b (c.run ms).session (c.isCut x ms) last := by
  by_cases late : c.session.phase = .closed
  · obtain ⟨f, network, posts⟩ := starts.ended late
    have same : (c.run ms).session.postsTo b = c.session.postsTo b :=
      Session.postsTo_congr (posts_closed late ms)
    obtain ⟨-, silent, uncut⟩ := silent_run (x := x) late ms
    refine ⟨[], _, same.trans posts, ?_, ?_⟩
    · rw [silent]
      rfl
    · rw [uncut]
      exact .ended (closed_run late ms) network
  · have look := starts.opened late
    have there := ((starts.tends.sole.feeds_iff mouth.feeds).mp (congrArg Outlook.fed look)).2
    obtain ⟨new, last, posts, rest⟩ := starts.tends.run mouth free late there heard
    have empty : c.session.postsTo b = [] := congrArg Outlook.posts look
    rw [empty] at posts
    exact ⟨new, last, posts, rest⟩

/-- A request with two boxes was taken up, and its reply is awaited. -/
theorem Starts.pends (one : c.Starts y r) (two : c.Starts y b) (feeds : y.handler.feeds r = true)
    (live : c.session.phase ≠ .closed) : c.session.Pends y r b where
  reply := one.tends.sole
  items := two.tends.sole
  live := live
  there := ((one.tends.sole.feeds_iff feeds).mp (congrArg Outlook.fed (one.opened live))).2
  unreplied := congrArg Outlook.posts (one.opened live)
  empty := congrArg Outlook.posts (two.opened live)

/-! ### Replies -/

/-- Nobody can take out a route that was not given out. -/
theorem Settled.unknown (settled : Settled past c) {z : Route Target}
    (there : z ∈ c.session.router.routes) (upcoming : c.session.router.lastHandle < h) :
    z.handler.removes h = false := by
  by_contra removes
  obtain ⟨command, among, removes'⟩ :=
    settled.books.removes h z there (by simpa using removes)
  obtain ⟨b, comes, -⟩ :=
    settled.sourced.removed h command (List.mem_append_left _ among) removes'
  exact absurd (settled.books.comes_le comes) (Nat.not_le_of_lt upcoming)

section

variable {feed : Feed}

/-- A client that awaits the reply to a request for a registration or subscription. -/
structure Expects (y : Route Target) (r : Box) (feed : Feed) (c : Client) : Prop where
  waits : y.handler = .reply (some r) (some (.install feed))
  ided : ∀ key ∈ y.keys, key.id ≠ none
  other : r ≠ feed.box
  keeps : c.Keeps y r
  reply : c.Aside r
  items : c.Aside feed.box

theorem Expects.move (expects : c.Expects y r feed) (sound : c.session.Sound) (m : Move)
    (heard : r ∉ (c.move m).session.gone) : (c.move m).Expects y r feed :=
  { expects with
    keeps := expects.keeps.moves sound (Client.moves c m) heard
    reply := expects.reply.move m
    items := expects.items.move m }

/-- What becomes of a request whose reply is awaited, in a move that the session is part of. -/
theorem Expects.turns (expects : c.Expects y r feed) (settled : Settled past c)
    (pends : c.session.Pends y r feed.box) {m : Move} {input : Input}
    (takes : c.input? m = some input) :
    (c.move m).session.Pends y r feed.box ∨ (c.move m).session.feeds r = false ∧
      ((∀ came h, .reply (.ok (came, some h)) ∉ (c.move m).session.postsTo r) ∨
        ∃ came h key, m = .arrive (.item (.message came)) ∧
          (c.move m).session.Confirms came ⟨h, [key], .feed feed⟩ r feed.box) := by
  have spared : ∀ z ∈ c.session.router.routes, z.handler.removes y.handle = false :=
    expects.keeps.loyal.session.routes
  have stays := Session.not_withdraws spared
    (removes_input takes expects.keeps.loyal.commands)
  have turns := pends.step rfl expects.other expects.waits expects.ided spared
    (fun z there h => settled.unknown there) (feeds_input takes expects.reply.asked)
    (feeds_input takes expects.items.asked) (heeds_input takes) stays
  rw [← session_move takes] at turns
  refine turns.imp_right fun ⟨unfed, told⟩ => ⟨unfed, told.imp_right ?_⟩
  rintro ⟨came, h, key, rfl, confirms⟩
  refine ⟨came, h, key, ?_, confirms⟩
  cases m with
  | arrive a => rw [Input.arrival.inj (Option.some.inj takes)]
  | serve => simp [input?] at takes
  | _ => simp [input?] at takes

theorem Expects.run (expects : c.Expects y r feed) (sound : c.session.Sound)
    (heard : r ∉ (c.run ms).session.gone) : (c.run ms).Expects y r feed := by
  induction ms generalizing c with
  | nil => exact expects
  | cons m rest ih =>
    have sound' := sound_move sound m
    exact ih (expects.move sound m (not_gone_of_run sound' heard)) sound' heard

/-- As long as a reply may still come, nothing else has happened. -/
theorem Expects.pends (expects : c.Expects y r feed) (settled : Settled past c)
    (pends : c.session.Pends y r feed.box) (heard : r ∉ (c.run ms).session.gone)
    (heard' : feed.box ∉ (c.run ms).session.gone) :
    (c.run ms).session.Pends y r feed.box ∨ (c.run ms).session.feeds r = false := by
  induction ms generalizing c past with
  | nil => exact Or.inl pends
  | cons m rest ih =>
    have settled' := settled.move m
    have sound' := settled'.books.sound
    have here : r ∉ (c.move m).session.gone := not_gone_of_run sound' heard
    have here' : feed.box ∉ (c.move m).session.gone := not_gone_of_run sound' heard'
    have expects' := expects.move settled.books.sound m here
    have pends' : (c.move m).session.Pends y r feed.box ∨ (c.move m).session.feeds r = false := by
      cases takes : c.input? m with
      | none =>
        have grows := grows_move takes
        obtain ⟨look, router, -⟩ := outlook_grows grows r
        obtain ⟨look', -, -⟩ := outlook_grows grows feed.box
        refine Or.inl ⟨sole_grows grows pends.reply here, sole_grows grows pends.items here', ?_,
          router ▸ pends.there, ?_, ?_⟩
        · rw [phase_grows grows]
          exact pends.live
        · exact (congrArg Outlook.posts look).trans pends.unreplied
        · exact (congrArg Outlook.posts look').trans pends.empty
      | some input => exact (expects.turns settled pends takes).imp_right And.left
    rcases pends' with pends' | unfed
    · exact ih expects' settled' pends' heard heard'
    · exact Or.inr (frozen_run expects'.reply sound' unfed heard).2

/-- The move in which a registration or subscription was confirmed. -/
theorem Expects.exists_confirmed (expects : c.Expects y r feed) (settled : Settled past c)
    (pends : c.session.Pends y r feed.box) {came : Message}
    (told : (r, .reply (.ok (came, some h))) ∈ (c.run ms).session.posts)
    (heard : feed.box ∉ (c.run ms).session.gone) :
    ∃ before after key, ms = before ++ .arrive (.item (.message came)) :: after ∧
      came.enrolledKey? = some key ∧ (c.run before).session.postsTo r = [] ∧
      let d := (c.run before).move (.arrive (.item (.message came)))
      d.Aside feed.box ∧ d.session.Confirms came ⟨h, [key], .feed feed⟩ r feed.box := by
  have start : (r, .reply (.ok (came, some h))) ∉ c.session.posts := by
    rw [← Session.mem_postsTo, pends.unreplied]
    exact List.not_mem_nil
  obtain ⟨before, m, after, rfl, absent, there⟩ :=
    exists_first (P := fun c => (r, .reply (.ok (came, some h))) ∈ c.session.posts) told start
  have settled' := settled.run before
  have sound := settled'.books.sound
  cases takes : (c.run before).input? m with
  | none =>
    rw [posts_of_grows (grows_move takes)] at there
    exact absurd there absent
  | some input =>
    have moved := session_move takes
    have here : r ∉ (c.run before).session.gone := by
      rw [moved] at there
      exact (Session.heard_of_mem_step sound there).resolve_left absent
    have here' : feed.box ∉ (c.run before).session.gone := by
      rw [run_append] at heard
      exact not_gone_of_run sound heard
    have expects' := expects.run settled.books.sound here
    have live : (c.run before).session.phase ≠ .closed := by
      intro late
      rw [moved, Session.step_closed late (heeds_input takes)] at there
      exact absent there
    rcases expects.pends settled pends here here' with pends' | unfed
    · rcases expects'.turns settled' pends' takes with
        more | ⟨-, none' | ⟨came', h', key, rfl, done⟩⟩
      · rw [← Session.mem_postsTo, more.unreplied] at there
        exact absurd there List.not_mem_nil
      · exact absurd (Session.mem_postsTo.mpr there) (none' came h)
      · rw [← Session.mem_postsTo, done.told] at there
        obtain ⟨rfl, rfl⟩ : came = came' ∧ h = h' := by simpa using there
        obtain ⟨key', confirms, same⟩ := done.keys
        obtain rfl : key = key' := by simpa using same
        exact ⟨before, after, key, rfl, confirms, pends'.unreplied, expects'.items.move _, done⟩
    · -- nothing comes into the box of the reply any more
      obtain ⟨-, same⟩ := (Session.blank_of_not_feeds live unfed).step sound here
        (feeds_input takes expects'.reply.asked) (heeds_input takes)
      rw [← Session.mem_postsTo, moved, same, Session.mem_postsTo] at there
      exact absurd there absent

end

/-! ### Tickets -/

/-- A call was accepted when its request was taken up. -/
theorem Fresh.call_starts (fresh : Fresh c) {t : CallTicket}
    (arises : t.Arises (c.served ms ++ (c.run ms).commands) (c.run ms).session.posts)
    (heard : t.box ∉ (c.run ms).session.gone) :
    ∃ before after message accepted rest, ms = before ++ .serve :: after ∧
      (c.run before).commands =
        .request message (callKeys t.id) (.call t.box) (some accepted) :: rest ∧
      let x : Route Target := ⟨t.route, callKeys t.id, .call t.box⟩
      let d := (c.run before).move .serve
      (accepted, .accepted (.ok t.route)) ∈ d.session.posts ∧ d.Starts x t.box ∧
        d.Keeps x t.box := by
  obtain ⟨message, accepted, asked, told⟩ := arises
  obtain ⟨before, after, rest, rfl, next, live, route, put⟩ := fresh.exists_serve asked told
  have books := (fresh.settled.run before).books
  have sound' := sound_move books.sound .serve
  have here : t.box ∉ (c.run before).session.gone := by
    rw [run_append] at heard
    exact not_gone_of_run books.sound heard
  have other : accepted ≠ t.box := by
    have follows := books.issued.follows (.request message (callKeys t.id) (.call t.box)
      (some accepted)) (by simp [next]) t.box accepted rfl rfl
    exact fun same => absurd (same.trans follows) (Nat.ne_of_lt (Nat.lt_succ_self _))
  refine ⟨before, after, message, accepted, rest, rfl, next, put, ?_⟩
  rw [route]
  exact ⟨books.starts next live (by simp [Target.feeds]) other here,
    keeps_of_serve fresh.settled.books.sound (fresh.awaits _) (fresh.loyal · _) next live rfl here⟩

theorem id_of_enrolmentKeys {kind : FeedKind} {request : Id} :
    ∀ key ∈ kind.enrolmentKeys request, key.id ≠ none := by
  cases kind <;> simp [FeedKind.enrolmentKeys, RouteKey.ofReply, RouteKey.ofRefusal]

/-- Whatever is put into a box in a run finds the box still there. -/
theorem heard_of_told (sound : c.session.Sound) {p : Post}
    (told : (b, p) ∈ (c.run ms).session.posts) (absent : (b, p) ∉ c.session.posts) :
    b ∉ c.session.gone := by
  obtain ⟨before, m, after, rfl, not', there⟩ :=
    exists_first (P := fun c => (b, p) ∈ c.session.posts) told absent
  have sound' := sound_run sound before
  cases takes : (c.run before).input? m with
  | none =>
    rw [posts_of_grows (grows_move takes)] at there
    exact absurd there not'
  | some input =>
    rw [session_move takes] at there
    have here := (Session.heard_of_mem_step sound' there).resolve_left not'
    exact not_gone_of_run sound here

/-- The request for a registration or subscription was taken up, and its reply is expected then. -/
theorem Fresh.feed_asked (fresh : Fresh c) {t : FeedTicket}
    (arises : t.Arises (c.served ms ++ (c.run ms).commands) (c.run ms).session.posts)
    (heard : t.box ∉ (c.run ms).session.gone) :
    ∃ before after message request accepted box reply rest y, ms = before ++ .serve :: after ∧
      (c.run before).commands = .request message (t.kind.enrolmentKeys request)
        (.reply (some box) (some (.install (t.kind.feed t.box)))) (some accepted) :: rest ∧
      t.kind.enrolled? reply = some t.id ∧
      (box, .reply (.ok (reply, some t.route))) ∈ (c.run ms).session.posts ∧
      let d := (c.run before).move .serve
      d.Expects y box (t.kind.feed t.box) ∧ d.Starts y box ∧ d.Starts y t.box := by
  obtain ⟨message, request, accepted, box, route, reply, ⟨first, second⟩, asked, told, replied,
    confirms⟩ := arises
  obtain ⟨before, after, rest, rfl, next, live, -, -⟩ := fresh.exists_serve asked told
  have books := (fresh.settled.run before).books
  let y : Route Target := ⟨(c.run before).session.router.lastHandle + 1,
    t.kind.enrolmentKeys request, .reply (some box) (some (.install (t.kind.feed t.box)))⟩
  refine ⟨before, after, message, request, accepted, box, reply, rest, y, rfl, next, confirms,
    replied, ?_⟩
  rw [run_append] at replied heard
  have feeds : y.handler.feeds box = true := by simp [y, Target.feeds]
  have feeds' : y.handler.feeds t.box = true := by simp [y, Target.feeds]
  have unreplied : (box, .reply (.ok (reply, some t.route))) ∉
      (c.run before).session.posts := by
    have early := (books.not_feeds (b := box) next (by simp [Command.feeds, feeds, y])).1
    rw [← Session.mem_postsTo, (books.blank box early).1]
    exact List.not_mem_nil
  have here : box ∉ (c.run before).session.gone := heard_of_told books.sound replied unreplied
  have here' : t.box ∉ (c.run before).session.gone := not_gone_of_run books.sound heard
  have one := books.starts next live feeds (Nat.ne_of_lt first) here
  have two := books.starts next live feeds' (Nat.ne_of_lt (Nat.lt_trans first second)) here'
  have keeps := keeps_of_serve fresh.settled.books.sound (fresh.awaits _) (fresh.loyal · _) next
    live rfl here
  have aside := two.tends.aside
  rw [← FeedKind.box_feed t.kind t.box] at second aside
  exact ⟨⟨rfl, id_of_enrolmentKeys, Nat.ne_of_lt second, keeps, one.tends.aside, aside⟩, one, two⟩

/-- A registration or subscription was confirmed by the reply to its request. -/
theorem Fresh.feed_confirmed (fresh : Fresh c) {t : FeedTicket}
    (arises : t.Arises (c.served ms ++ (c.run ms).commands) (c.run ms).session.posts)
    (heard : t.box ∉ (c.run ms).session.gone) :
    ∃ before after reply key, ms = before ++ .arrive (.item (.message reply)) :: after ∧
      t.kind.enrolled? reply = some t.id ∧ reply.enrolledKey? = some key ∧
      ∃ message request box answer,
        .request message (t.kind.enrolmentKeys request)
          (.reply (some box) (some (.install (t.kind.feed t.box)))) answer ∈ c.served before ∧
        (c.run before).session.postsTo box = [] ∧
        let d := (c.run before).move (.arrive (.item (.message reply)))
        d.Aside t.box ∧
          d.session.Confirms reply ⟨t.route, [key], .feed (t.kind.feed t.box)⟩ box t.box := by
  obtain ⟨early, late, message, request, accepted, box, reply, rest, y, rfl, next, confirms,
    replied, expects, one, two⟩ := fresh.feed_asked arises heard
  rw [run_append] at replied heard
  by_cases ended : ((c.run early).move .serve).session.phase = .closed
  · -- the session has ended with the request, and there is no reply
    obtain ⟨f, -, posts⟩ := one.ended ended
    have replied' : (box, .reply (.ok (reply, some t.route))) ∈
        ((c.run early).move .serve).session.posts := posts_closed ended late ▸ replied
    rw [← Session.mem_postsTo, posts] at replied'
    simp [expects.waits, Target.lastPostsTo, Target.lastPosts] at replied'
  · have settled := (fresh.settled.run early).move .serve
    have pends := one.pends two (by simp [expects.waits, Target.feeds]) ended
    rw [← FeedKind.box_feed t.kind t.box] at pends
    obtain ⟨before, after, key, rfl, known, silent, done⟩ :=
      expects.exists_confirmed settled pends replied (by rwa [FeedKind.box_feed])
    rw [FeedKind.box_feed] at done
    refine ⟨early ++ .serve :: before, after, reply, key, by simp, confirms, known, message,
      request, box, some accepted, mem_served_of_next _ next, ?_⟩
    rw [run_append]
    exact ⟨silent, done⟩

end WampClient.Client
