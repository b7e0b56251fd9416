import WampClient.Proofs.Session.Errands

/-! What a step does to a box that one route alone feeds: it puts in what the route takes from the
message that came in, and nothing else; it takes the route out if the route has had its last
message or if a reply says that its use is over, and not otherwise. -/
namespace WampClient

/-- What lies in the box of a call, a registration or a subscription, apart from where interrupts
of an invocation are shown. -/
inductive Item where
  | outcome (came : Except Failure Message)
  | invocation (i : Invocation)
  | event (e : Event)

def Post.item? : Post → Option Item
  | .outcome came => some (.outcome came)
  | .invocation i _ => some (.invocation i)
  | .event e => some (.event e)
  | _ => none

/-- Where interrupts of an invocation that is queued are to be shown. -/
def Post.cell? : Post → Option Cell
  | .invocation _ cell => some cell
  | _ => none

namespace Target

/-- What a target makes of a message. -/
def item? (m : Message) : Target → Option Item
  | .call _ => some (.outcome (.ok m))
  | .feed (.invocations _) => match m with
    | .invocation request registration details payload =>
      some (.invocation ⟨request, registration, details, payload⟩)
    | _ => none
  | .feed (.events _) => match m with
    | .event subscription publication details payload =>
      some (.event ⟨subscription, publication, details, payload⟩)
    | _ => none
  | _ => none

/-- Whether the target waits for more after a message that somebody took. -/
def keeps (m : Message) : Target → Bool
  | .reply _ _ => false
  | .call _ => m.moreFollows
  | _ => true

/-- What is put into boxes for a target because of a message. -/
def posts (gone : List Box) (m : Message) (cell : Cell) : Target → List (Box × Post)
  | .call box => if gone.contains box then [] else [(box, .outcome (.ok m))]
  | .feed (.invocations box) => match m with
    | .invocation request registration details payload =>
      if gone.contains box then []
      else [(box, .invocation ⟨request, registration, details, payload⟩ cell)]
    | _ => []
  | .feed (.events box) => match m with
    | .event subscription publication details payload =>
      if gone.contains box then []
      else [(box, .event ⟨subscription, publication, details, payload⟩)]
    | _ => []
  | _ => []

theorem posts_deliver (gone : List Box) (m : Message) (h : Handle) (t : Target) (tray : Tray) :
    (t.deliver gone m h tray).state.posts = tray.posts ++ t.posts gone m tray.nextCell := by
  have none' : tray.posts = tray.posts ++ [] := (List.append_nil _).symm
  cases t with
  | reply box change => exact none'
  | call box =>
    simp only [deliver, posts]
    split
    · exact none'
    · rfl
  | feed f =>
    cases f with
    | invocations box =>
      cases m with
      | invocation request registration details payload =>
        simp only [deliver, posts]
        split
        · exact none'
        · rfl
      | _ => exact none'
    | events box =>
      cases m with
      | event subscription publication details payload =>
        simp only [deliver, posts]
        split
        · exact none'
        · rfl
      | _ => exact none'
  | interrupt cell => cases m <;> exact none'

/-- A new cell goes with every invocation that is queued. -/
theorem cells_deliver (gone : List Box) (m : Message) (h : Handle) (t : Target) (tray : Tray) :
    ∃ n, (t.deliver gone m h tray).state.nextCell = tray.nextCell + n ∧
      (t.posts gone m tray.nextCell).filterMap (fun e => e.2.cell?) =
        List.range' tray.nextCell n := by
  cases t with
  | call box =>
    refine ⟨0, ?_, ?_⟩ <;> simp only [deliver, posts] <;> split <;> rfl
  | feed f =>
    cases f with
    | invocations box =>
      cases m with
      | invocation request registration details payload =>
        by_cases here : box ∈ gone
        · exact ⟨0, by simp [deliver, here, Tray.defer], by simp [posts, here]⟩
        · exact ⟨1, by simp [deliver, here, Tray.defer, Tray.post],
            by simp [posts, here, Post.cell?]⟩
      | _ => exact ⟨0, rfl, rfl⟩
    | events box =>
      cases m with
      | event subscription publication details payload =>
        refine ⟨0, ?_, ?_⟩ <;> simp only [deliver, posts] <;> split <;> rfl
      | _ => exact ⟨0, rfl, rfl⟩
  | _ => cases m <;> exact ⟨0, rfl, rfl⟩

theorem feeds_of_mem_posts {gone : List Box} {m : Message} {cell : Cell} {t : Target}
    {e : Box × Post} (put : e ∈ t.posts gone m cell) : t.feeds e.1 = true := by
  cases t with
  | reply box change => exact absurd put List.not_mem_nil
  | call box =>
    simp only [posts] at put
    split at put
    · exact absurd put List.not_mem_nil
    · simp [List.mem_singleton.mp put, feeds]
  | feed f =>
    cases f with
    | invocations box =>
      cases m with
      | invocation request registration details payload =>
        simp only [posts] at put
        split at put
        · exact absurd put List.not_mem_nil
        · simp [List.mem_singleton.mp put, feeds, Feed.box]
      | _ => exact absurd put List.not_mem_nil
    | events box =>
      cases m with
      | event subscription publication details payload =>
        simp only [posts] at put
        split at put
        · exact absurd put List.not_mem_nil
        · simp [List.mem_singleton.mp put, feeds, Feed.box]
      | _ => exact absurd put List.not_mem_nil
  | interrupt cell => exact absurd put List.not_mem_nil

end Target

/-- A route by which a call's results, or the items of a registration or subscription, come into a
box. -/
structure Route.Mouth (x : Route Target) (b : Box) : Prop where
  handler : x.handler = .call b ∨ ∃ feed : Feed, feed.box = b ∧ x.handler = .feed feed
  keys : ∀ key ∈ x.keys, key.id ≠ none

theorem Route.Mouth.feeds {x : Route Target} {b : Box} (mouth : x.Mouth b) :
    x.handler.feeds b = true := by
  rcases mouth.handler with call | ⟨feed, own, handler⟩
  · simp [call, Target.feeds]
  · simp [handler, Target.feeds, own]

namespace Route.Mouth

variable {x : Route Target} {b : Box}

theorem not_reply (mouth : x.Mouth b) (box : Option Box) (change : Option RouteChange) :
    x.handler ≠ .reply box change := by
  rcases mouth.handler with call | ⟨feed, -, handler⟩
  · simp [call]
  · simp [handler]

/-- What is put into the box is what the target makes of the message. -/
theorem posts (mouth : x.Mouth b) {gone : List Box} (here : b ∉ gone) (m : Message)
    (cell : Cell) :
    ∃ new : List Post, (x.handler.posts gone m cell).filterMap
        (fun e => if e.1 = b then some e.2 else none) = new ∧
      new.map Post.item? = (x.handler.item? m).toList.map some := by
  rcases mouth.handler with call | ⟨feed, rfl, handler⟩
  · exact ⟨[.outcome (.ok m)], by simp [call, Target.posts, here],
      by simp [call, Target.item?, Post.item?]⟩
  · rw [handler]
    cases feed with
    | invocations box =>
      have here' : box ∉ gone := here
      cases m with
      | invocation request registration details payload =>
        exact ⟨[.invocation ⟨request, registration, details, payload⟩ cell],
          by simp [Target.posts, here', Feed.box], rfl⟩
      | _ => exact ⟨[], rfl, rfl⟩
    | events box =>
      have here' : box ∉ gone := here
      cases m with
      | event subscription publication details payload =>
        exact ⟨[.event ⟨subscription, publication, details, payload⟩],
          by simp [Target.posts, here', Feed.box], rfl⟩
      | _ => exact ⟨[], rfl, rfl⟩

theorem stays (mouth : x.Mouth b) {gone : List Box} (here : b ∉ gone) (m : Message) (h : Handle)
    (tray : Tray) : (x.handler.deliver gone m h tray).stays = x.handler.keeps m := by
  rcases mouth.handler with call | ⟨feed, rfl, handler⟩
  · simp [call, Target.deliver, Target.keeps, here]
  · rw [handler]
    cases feed <;> cases m <;> simp only [Target.deliver, Target.keeps] <;> split <;> rfl

end Route.Mouth

namespace Router

/-- A route all of whose keys have an id is visited once at most. -/
theorem count_matching_le {H : Type} {r : Router H} (tidy : r.Tidy) {h : Handle}
    (ided : ∀ y ∈ r.routes, y.handle = h → ∀ key ∈ y.keys, key.id ≠ none) (key : RouteKey) :
    (r.matching key).count h ≤ 1 := by
  have fold : ∀ (handles acc : List Handle), acc.count h ≤ 1 →
      (handles.foldl RouteNode.includeHandle acc).count h ≤ 1 := by
    intro handles
    induction handles with
    | nil => exact fun _ one => one
    | cons g rest ih =>
      intro acc one
      refine ih _ ?_
      unfold RouteNode.includeHandle
      split
      next => exact one
      next new =>
        rw [List.count_append, List.count_singleton]
        split
        next same =>
          have absent : acc.count h = 0 := List.count_eq_zero.mpr (by simp_all)
          omega
        next => exact one
  have general : h ∉ listed r.index ⟨key.kind, none⟩ := by
    rw [tidy.mem_listed_iff]
    rintro ⟨y, there, own, has⟩
    exact ided y there own _ has rfl
  rw [matching_eq]
  refine fold _ _ ?_
  rw [List.count_eq_zero.mpr general]
  exact Nat.zero_le 1

/-- The handles before that of a route that is visited once, and those after it. -/
theorem matching_split {H : Type} {r : Router H} (tidy : r.Tidy) {x : Route H}
    (there : x ∈ r.routes) (ided : ∀ key ∈ x.keys, key.id ≠ none) {key : RouteKey}
    (takes : x.takes key = true) :
    ∃ before after, r.matching key = before ++ x.handle :: after ∧
      x.handle ∉ before ∧ x.handle ∉ after := by
  have called : x.handle ∈ r.matching key := tidy.mem_matching_iff.mpr ⟨x, there, rfl, takes⟩
  have once : (r.matching key).count x.handle ≤ 1 := by
    refine count_matching_le tidy (fun y hy same => ?_) key
    rwa [eq_of_handle_eq tidy.ordered hy there same]
  obtain ⟨before, after, split⟩ := List.append_of_mem called
  rw [split, List.count_append, List.count_cons_self] at once
  exact ⟨before, after, split, List.count_eq_zero.mp (by omega), List.count_eq_zero.mp (by omega)⟩

end Router

namespace Session

variable {x : Route Target} {b : Box} {s : Session} {router : Router Target} {tray : Tray}

/-! ### Handing a message around -/

theorem postsTo_carrying (s : Session) (router : Router Target) (tray tray' : Tray)
    {entries : List (Box × Post)} (posts : tray'.posts = tray.posts ++ entries) :
    (s.carrying router tray').postsTo b = (s.carrying router tray).postsTo b ++
      entries.filterMap fun e => if e.1 = b then some e.2 else none := by
  refine postsTo_append ?_
  simp [carrying, posts]

/-- A visit to another route lets the box alone. -/
theorem Sole.calm_visit (sole : (s.carrying router tray).Sole x b)
    {y : Route Target} (there : y ∈ router.routes) (other : y.handler.feeds b = false)
    (m : Message) (matched : Bool) :
    let out := Router.visit (Target.deliver s.gone m) (router, matched, tray) y.handle
    Calm x b (s.carrying router tray) (s.carrying out.1 out.2.2) := by
  have tidy : router.Tidy := sole.sound.tidy
  let v := y.handler.deliver s.gone m y.handle tray
  have posts := Target.posts_deliver s.gone m y.handle y.handler tray
  have put : Calm x b (s.carrying router tray) (s.carrying router v.state) := by
    refine sole.calm_quiet rfl rfl ?_ Iff.rfl Iff.rfl rfl
    rw [postsTo_carrying s router tray v.state posts, List.filterMap_eq_nil_iff.mpr,
      List.append_nil]
    intro e he
    have fed := Target.feeds_of_mem_posts he
    have away : e.1 ≠ b := by
      rintro rfl
      simp [other] at fed
    simp [away]
  rw [visit_deliver tidy there]
  dsimp only
  split
  next => exact put
  next =>
    refine put.trans (put.sole.calm_eraseRoute _ fun mine feeds same => ?_)
    obtain rfl := Router.eq_of_handle_eq tidy.ordered mine there same
    simp [other] at feeds

theorem Sole.calm_visits {handles : List Handle} (sole : (s.carrying router tray).Sole x b)
    (apart : x ∈ router.routes → x.handle ∉ handles) (m : Message) (matched : Bool) :
    let out := handles.foldl (Router.visit (Target.deliver s.gone m)) (router, matched, tray)
    Calm x b (s.carrying router tray) (s.carrying out.1 out.2.2) := by
  induction handles generalizing router tray matched with
  | nil => exact sole.calm_refl
  | cons h rest ih =>
    rw [List.foldl_cons]
    cases found : router.route? h with
    | none =>
      have unmoved : Router.visit (Target.deliver s.gone m) (router, matched, tray) h =
          (router, matched, tray) := by simp [Router.visit, found]
      rw [unmoved]
      exact ih sole (fun there later => apart there (List.mem_cons_of_mem _ later)) _
    | some y =>
      obtain ⟨there, rfl⟩ := Router.mem_of_route? found
      have other : y.handler.feeds b = false := by
        by_contra feeds
        obtain rfl := sole.routes y there (by simpa using feeds)
        exact apart there List.mem_cons_self
      have first := sole.calm_visit there other m matched
      exact first.trans (ih first.sole
        (fun mine later => apart (first.back mine) (List.mem_cons_of_mem _ later)) _)

/-- Visits take routes out, and add none. -/
theorem mem_routes_of_visits (tidy : router.Tidy) (gone : List Box) (m : Message)
    (handles : List Handle) (matched : Bool) (tray : Tray) {z : Route Target}
    (there : z ∈ (handles.foldl (Router.visit (Target.deliver gone m))
      (router, matched, tray)).1.routes) : z ∈ router.routes := by
  induction handles generalizing router matched tray with
  | nil => exact there
  | cons h rest ih =>
    rw [List.foldl_cons] at there
    have among := ih (tidy.visit (Target.deliver gone m) matched tray h) _ _ there
    cases found : router.route? h with
    | none => simpa [Router.visit, found] using among
    | some y =>
      obtain ⟨mine, rfl⟩ := Router.mem_of_route? found
      exact routes_visit_deliver tidy mine gone m matched tray z among

/-- A visit to another route leaves the route where it is. -/
theorem mem_routes_visit (tidy : router.Tidy) {y : Route Target} (there : y ∈ router.routes)
    (gone : List Box) (m : Message) (matched : Bool) (tray : Tray) {z : Route Target}
    (among : z ∈ router.routes) (other : z.handle ≠ y.handle) :
    z ∈ (Router.visit (Target.deliver gone m) (router, matched, tray) y.handle).1.routes := by
  rw [visit_deliver tidy there]
  dsimp only
  split
  · exact among
  · exact Router.mem_routes_erase.mpr ⟨among, other⟩

/-- A route that is not visited stays. -/
theorem mem_routes_visits (tidy : router.Tidy) (gone : List Box) (m : Message)
    {handles : List Handle} (matched : Bool) (tray : Tray) {z : Route Target}
    (there : z ∈ router.routes) (apart : z.handle ∉ handles) :
    z ∈ (handles.foldl (Router.visit (Target.deliver gone m))
      (router, matched, tray)).1.routes := by
  induction handles generalizing router matched tray with
  | nil => exact there
  | cons h rest ih =>
    rw [List.foldl_cons]
    obtain ⟨other, apart⟩ := not_or.mp (mt List.mem_cons.mpr apart)
    refine ih (tidy.visit (Target.deliver gone m) matched tray h) _ _ ?_ apart
    cases found : router.route? h with
    | none => simpa [Router.visit, found] using there
    | some y =>
      obtain ⟨among, rfl⟩ := Router.mem_of_route? found
      exact mem_routes_visit tidy among gone m matched tray there other

/-- What comes of the visits: each of them adds what its target makes of the message. -/
structure Visited (gone : List Box) (m : Message) (routes : List (Route Target))
    (handles : List Handle) (tray tray' : Tray) (visits : List (Route Target × Cell)) : Prop where
  called : (visits.map fun v => v.1.handle).Sublist handles
  there : ∀ v ∈ visits, v.1 ∈ routes
  all : ∀ y ∈ routes, y.handle ∈ handles → ∃ v ∈ visits, v.1 = y
  posts : tray'.posts = tray.posts ++ visits.flatMap fun v => v.1.handler.posts gone m v.2
  errands : tray'.errands = tray.errands ++ visits.flatMap fun v => v.1.handler.errands gone m v.2
  cells : ∃ n, tray'.nextCell = tray.nextCell + n ∧
    (visits.flatMap fun v => v.1.handler.posts gone m v.2).filterMap (fun e => e.2.cell?) =
      List.range' tray.nextCell n

theorem visited_visits (tidy : router.Tidy) (gone : List Box) (m : Message)
    (handles : List Handle) (matched : Bool) (tray : Tray) :
    let out := handles.foldl (Router.visit (Target.deliver gone m)) (router, matched, tray)
    ∃ visits, Visited gone m router.routes handles tray out.2.2 visits := by
  induction handles generalizing router matched tray with
  | nil => exact ⟨[], List.Sublist.refl _, by simp, by simp, by simp, by simp, 0, rfl, rfl⟩
  | cons h rest ih =>
    rw [List.foldl_cons]
    cases found : router.route? h with
    | none =>
      have unmoved : Router.visit (Target.deliver gone m) (router, matched, tray) h =
          (router, matched, tray) := by simp [Router.visit, found]
      rw [unmoved]
      obtain ⟨visits, trace⟩ := ih tidy matched tray
      refine ⟨visits, { trace with called := trace.called.cons h, all := fun y there called => ?_ }⟩
      refine trace.all y there ((List.mem_cons.mp called).resolve_left ?_)
      rintro rfl
      simp [tidy.route?_eq_some_iff.mpr ⟨there, rfl⟩] at found
    | some y =>
      obtain ⟨there, rfl⟩ := Router.mem_of_route? found
      have left := routes_visit_deliver tidy there gone m matched tray
      have tidy' := tidy.visit (Target.deliver gone m) matched tray y.handle
      have state : (Router.visit (Target.deliver gone m) (router, matched, tray) y.handle).2.2 =
          (y.handler.deliver gone m y.handle tray).state := by
        rw [visit_deliver tidy there]
      obtain ⟨visits, trace⟩ := ih tidy'
        (Router.visit (Target.deliver gone m) (router, matched, tray) y.handle).2.1
        (Router.visit (Target.deliver gone m) (router, matched, tray) y.handle).2.2
      obtain ⟨n, next, cells⟩ := Target.cells_deliver gone m y.handle y.handler tray
      obtain ⟨k, next', cells'⟩ := trace.cells
      refine ⟨(y, tray.nextCell) :: visits, trace.called.cons_cons _, ?_, ?_, ?_, ?_, n + k, ?_, ?_⟩
      · intro v among
        rcases List.mem_cons.mp among with rfl | among
        · exact there
        · exact left _ (trace.there v among)
      · intro z among called
        by_cases mine : z.handle = y.handle
        · exact ⟨_, List.mem_cons_self, (Router.eq_of_handle_eq tidy.ordered among there mine).symm⟩
        · obtain ⟨v, later, same⟩ := trace.all z
            (mem_routes_visit tidy there gone m matched tray among mine)
            ((List.mem_cons.mp called).resolve_left mine)
          exact ⟨v, List.mem_cons_of_mem _ later, same⟩
      · refine trace.posts.trans ?_
        rw [state, Target.posts_deliver, List.append_assoc, List.flatMap_cons]
      · refine trace.errands.trans ?_
        rw [state, Target.errands_deliver, List.append_assoc, List.flatMap_cons]
      · refine next'.trans ?_
        rw [state, next, Nat.add_assoc]
      · rw [List.flatMap_cons, List.filterMap_append, cells, cells', state, next,
          List.range'_append_1]

/-- What is put off during the visits is due to routes that were visited. -/
theorem errands_visits (tidy : router.Tidy) (gone : List Box) (m : Message)
    (handles : List Handle) (matched : Bool) (tray : Tray) :
    let out := handles.foldl (Router.visit (Target.deliver gone m)) (router, matched, tray)
    ∃ new, out.2.2.errands = tray.errands ++ new ∧ ∀ e ∈ new, ∃ y ∈ router.routes,
      y.handle ∈ handles ∧ ∃ cell, e ∈ y.handler.errands gone m cell := by
  obtain ⟨visits, trace⟩ := visited_visits tidy gone m handles matched tray
  refine ⟨_, trace.errands, fun e he => ?_⟩
  obtain ⟨v, among, put⟩ := List.mem_flatMap.mp he
  exact ⟨v.1, trace.there v among, trace.called.subset (List.mem_map_of_mem among), v.2, put⟩

/-- Every reply that a visited route waits for is to be handed over. -/
theorem mem_errands_visits (tidy : router.Tidy) (gone : List Box) (m : Message)
    {handles : List Handle} (matched : Bool) (tray : Tray) {y : Route Target} {box : Option Box}
    {change : Option RouteChange} (waits : y.handler = .reply box change)
    (there : y ∈ router.routes) (called : y.handle ∈ handles) :
    let out := handles.foldl (Router.visit (Target.deliver gone m)) (router, matched, tray)
    .handOver box m change ∈ out.2.2.errands := by
  induction handles generalizing router matched tray with
  | nil => exact absurd called List.not_mem_nil
  | cons h rest ih =>
    have tidy' := tidy.visit (Target.deliver gone m) matched tray h
    rw [List.foldl_cons]
    by_cases mine : h = y.handle
    · obtain ⟨new, same, -⟩ := errands_visits tidy' gone m rest
        (Router.visit (Target.deliver gone m) (router, matched, tray) h).2.1
        (Router.visit (Target.deliver gone m) (router, matched, tray) h).2.2
      have put : .handOver box m change ∈
          (Router.visit (Target.deliver gone m) (router, matched, tray) h).2.2.errands := by
        rw [mine, visit_deliver tidy there]
        simp [waits, Target.deliver, Tray.defer]
      have kept := List.mem_append_left new put
      rw [← same] at kept
      exact kept
    · refine ih tidy' _ _ ?_ ((List.mem_cons.mp called).resolve_left (Ne.symm mine))
      cases found : router.route? h with
      | none => simpa [Router.visit, found] using there
      | some z =>
        obtain ⟨among, rfl⟩ := Router.mem_of_route? found
        exact mem_routes_visit tidy among gone m matched tray there (Ne.symm mine)

end Session

end WampClient
