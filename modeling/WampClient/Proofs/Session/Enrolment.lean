import WampClient.Proofs.Session.Farewell
import WampClient.Proofs.Session.Intake

/-! How a route comes to feed a box: it is installed with a request, or because of the reply to
one, and the box is as it was then. -/
namespace WampClient.Session

variable {x y : Route Target} {b r : Box} {s : Session} {m : Message}

/-! ### Requests -/

/-- Nothing in the session can put anything into the box. -/
structure Blank (b : Box) (s : Session) : Prop where
  routes : ∀ y ∈ s.router.routes, y.handler.feeds b = false
  waiters : b ∉ s.closeWaiters

theorem Blank.sole (blank : s.Blank b) (sound : s.Sound) (heard : b ∉ s.gone)
    (x : Route Target) : s.Sole x b where
  sound := sound
  routes y there feeds := by simp [blank.routes y there] at feeds
  waiters := blank.waiters
  heard := heard

/-- A box that only one route feeds is out of reach once that route is gone. -/
theorem Sole.blank (sole : s.Sole y b) (absent : y ∉ s.router.routes) : s.Blank b where
  routes := sole.not_feeds absent
  waiters := sole.waiters

theorem Blank.not_feeds (blank : s.Blank b) : s.feeds b = false := by
  by_contra fed
  rcases (feeds_eq_true.mp (by simpa using fed)).2 with ⟨x, there, feeds⟩ | waits
  · simp [blank.routes x there] at feeds
  · exact blank.waiters waits

/-- A route that is new is the only one to feed its box. -/
theorem Blank.add (blank : s.Blank b) (sound : s.Sound) (heard : b ∉ s.gone)
    (keys : List RouteKey) (target : Target) :
    ({ s with router := (s.router.add keys target).1 } : Session).Sole
      ⟨s.router.lastHandle + 1, keys, target⟩ b where
  sound := sound.add keys target
  routes z there feeds := by
    rcases mem_routes_add.mp there with old | rfl
    · simp [blank.routes z old] at feeds
    · rfl
  waiters := blank.waiters
  heard := heard

/-- The route of a request feeds its box from the start. -/
theorem Blank.installed (blank : s.Blank b) (sound : s.Sound) (live : s.phase = .established)
    (heard : b ∉ s.gone) (m : Message) (keys : List RouteKey) {target : Target}
    (mine : target.feeds b = true) {box : Option Box} (other : box ≠ some b) :
    let x : Route Target := ⟨s.router.lastHandle + 1, keys, target⟩
    let t := s.prepared (.command (.request m keys target box))
    t.Sole x b ∧ t.outlook b = ⟨s.postsTo b, true, false⟩ ∧
      Calm x b t (s.step (.command (.request m keys target box))) := by
  intro x t
  have added : t = { s with router := (s.router.add keys target).1 } :=
    prepared_request live m keys target box
  have there : x ∈ t.router.routes := by
    rw [added]
    exact mem_routes_add.mpr (Or.inr rfl)
  have sole : t.Sole x b := added ▸ blank.add sound heard keys target
  have open' : t.phase = .established := by
    rw [added]
    exact live
  have fed : t.feeds b = true := (sole.feeds_iff mine).mpr ⟨by simp [open'], there⟩
  have posts : t.postsTo b = s.postsTo b := by
    rw [added]
    rfl
  refine ⟨sole, by rw [outlook, fed, posts, open']; rfl, ?_⟩
  have sent := sole.calm_sendOrTerminate m
  have stepped : s.step (.command (.request m keys target box)) =
      s.obey (.request m keys target box) := if_neg (by simp [live])
  rw [stepped, obey_request live, ← added]
  rcases h : t.sendOrTerminate m with ⟨u, result⟩
  rw [h] at sent
  cases result with
  | ok v => exact sent.trans (sent.sole.calm_answer other _)
  | error f =>
    have ended := (concluded_sendOrTerminate sole.sound (by simp [open']) h).2
    have erased := sent.trans (sent.sole.calm_eraseRoute (s.router.lastHandle + 1)
      fun there => by simp [ended.routes] at there)
    exact erased.trans (erased.sole.calm_answer other _)

/-! ### Replies -/

/-- The visits when a reply comes: the route is gone then, and the reply is to be handed over, along
with what other routes have put off. -/
theorem handedAround_reply (sound : s.Sound) (live : s.phase ≠ .closed) {box : Option Box}
    {change : Option RouteChange} (waits : y.handler = .reply box change)
    (ided : ∀ key ∈ y.keys, key.id ≠ none) (there : y ∈ s.router.routes)
    (takes : y.takes (RouteKey.ofMessage m) = true) :
    ∃ before after, (s.distributed m).2.2.errands = before ++ .handOver box m change :: after ∧
      (∀ e ∈ before ++ after, ∃ z ∈ s.router.routes, z ≠ y ∧
        ∃ cell, e ∈ z.handler.errands s.gone m cell) ∧
      ∀ b, s.Sole y b → y.handler.feeds b = true →
        Becomes y b ((s.outlook b).withdrawnIf true) s (s.handedAround m) := by
  have tidy := sound.tidy
  obtain ⟨early, late, split, first, last⟩ := Router.matching_split tidy there ided takes
  obtain ⟨before, put, origin⟩ :=
    errands_visits tidy s.gone m early false ⟨[], [], s.nextCell, []⟩
  have tidy' := tidy.foldl_visit (Target.deliver s.gone m) early false ⟨[], [], s.nextCell, []⟩
  have still := mem_routes_visits tidy s.gone m false ⟨[], [], s.nextCell, []⟩ there first
  have old := fun z => mem_routes_of_visits (z := z) tidy s.gone m early false
    ⟨[], [], s.nextCell, []⟩
  have calm := fun (b : Box) (sole : (s.carrying s.router ⟨[], [], s.nextCell, []⟩).Sole y b) =>
    sole.calm_visits (fun _ => first) m false
  have around : s.distributed m = late.foldl (Router.visit (Target.deliver s.gone m))
      (Router.visit (Target.deliver s.gone m) (early.foldl (Router.visit (Target.deliver s.gone m))
        (s.router, false, ⟨[], [], s.nextCell, []⟩)) y.handle) := by
    rw [distributed, Router.dispatch, split, List.foldl_append, List.foldl_cons]
  rcases visited : early.foldl (Router.visit (Target.deliver s.gone m))
    (s.router, false, ⟨[], [], s.nextCell, []⟩) with ⟨router, matched, tray⟩
  rw [visited] at put tidy' still old calm around
  have own : Router.visit (Target.deliver s.gone m) (router, matched, tray) y.handle =
      (router.erase y.handle, true, tray.defer (.handOver box m change)) := by
    rw [visit_deliver tidy' still, waits]
    rfl
  obtain ⟨after, put', origin'⟩ := errands_visits (tidy'.erase y.handle) s.gone m late true
    (tray.defer (.handOver box m change))
  rw [own] at around
  rw [← around] at put'
  refine ⟨before, after, ?_, ?_, fun b sole mine => ?_⟩
  · have put : tray.errands = before := put
    rw [put']
    simp [Tray.defer, put]
  · intro e he
    rcases List.mem_append.mp he with he | he
    · obtain ⟨z, among, called, due⟩ := origin e he
      exact ⟨z, among, fun same => first (same ▸ called), due⟩
    · obtain ⟨z, among, called, due⟩ := origin' e he
      obtain ⟨among, other⟩ := Router.mem_routes_erase.mp among
      exact ⟨z, old z among, fun same => other (by rw [same]), due⟩
  · have one := calm b (by rwa [carrying_self])
    have same := one.look_of_live live
    rw [carrying_self] at one same
    have two := one.sole.becomes_eraseRoute mine y.handle
    rw [same, beq_self_eq_true] at two
    have gone : (s.carrying (router.erase y.handle)
        (tray.defer (.handOver box m change))).Sole y b := two.sole
    have three := gone.calm_visits (fun _ => last) m true
    rw [← around] at three
    exact (one.after two).trans three

/-- What comes before a reply is handed over, and what comes after it. Nothing of it has to do with
a box that only the request feeds, or with a route that no target takes out. -/
structure PutOff (y : Route Target) (m : Message) (s : Session) (before after : List Errand) :
    Prop where
  silent : ∀ b, s.Sole y b → ∀ e ∈ before ++ after, e.feeds b = false
  spares : ∀ h, (∀ z ∈ s.router.routes, z.handler.removes h = false) →
    ∀ e ∈ before ++ after, e.removes h = false
  replies : (∀ request registration details payload,
      m ≠ .invocation request registration details payload) →
    ∀ e ∈ before ++ after, ∃ box m' change, e = .handOver box m' change

/-- The rest of what is put off, where it takes the route out in no case. -/
theorem Sole.calm_errands (sole : s.Sole x b) (mine : x.handler.feeds b = true)
    {es : List Errand} (silent : ∀ e ∈ es, e.feeds b = false)
    (spared : ∀ e ∈ es, e.removes x.handle = false) : Calm x b s (es.foldl runErrand s) := by
  have none' : es.any (fun e => e.removes x.handle) = false :=
    List.any_eq_false.mpr fun e he => by simp [spared e he]
  have done := sole.becomes_errands mine silent (Or.inr none')
  rwa [none', Outlook.withdrawnIf_false] at done

/-- A reply is handed over in the middle of what is put off. -/
theorem reply_put_off (sound : s.Sound) (live : s.phase ≠ .closed) {box : Option Box}
    {change : Option RouteChange} (waits : y.handler = .reply box change)
    (ided : ∀ key ∈ y.keys, key.id ≠ none) (there : y ∈ s.router.routes)
    (takes : y.takes (RouteKey.ofMessage m) = true)
    (spared : ∀ z ∈ s.router.routes, z.handler.removes y.handle = false) :
    ∃ before after, PutOff y m s before after ∧
      let c := before.foldl runErrand (s.handedAround m)
      let t := after.foldl runErrand (c.handOver box m change)
      (∀ b, s.Sole y b → y.handler.feeds b = true →
        Becomes y b ((s.outlook b).withdrawnIf true) s c) ∧
      (s.step (.arrival (.item (.message m))) = t ∨
        s.step (.arrival (.item (.message m))) = t.noteUnmatched m) := by
  obtain ⟨before, after, put, origin, visited⟩ :=
    handedAround_reply sound live waits ided there takes
  have putOff : PutOff y m s before after := by
    refine ⟨fun b sole e he => ?_, fun h let' e he => ?_, fun plain e he => ?_⟩
    · obtain ⟨z, among, away, cell, due⟩ := origin e he
      by_contra fed
      exact away (sole.routes z among (Errand.feeds_of_mem due (by simpa using fed)))
    · obtain ⟨z, among, -, cell, due⟩ := origin e he
      by_contra removes
      have own := (Errand.removes_of_mem due (by simpa using removes)).2
      simp [let' z among] at own
    · obtain ⟨z, -, -, cell, due⟩ := origin e he
      obtain ⟨box, change, same⟩ := Errand.handOver_of_mem plain due
      exact ⟨box, m, change, same⟩
  have early : ∀ e ∈ before, e ∈ before ++ after := fun e => List.mem_append_left after
  refine ⟨before, after, putOff, fun b sole mine => ?_, ?_⟩
  · have seen := visited b sole mine
    exact seen.trans (seen.sole.calm_errands mine (fun e he => putOff.silent b sole e (early e he))
      fun e he => putOff.spares _ spared e (early e he))
  · rw [step_of_takes live ided takes, distribute_eq, put, List.foldl_append]
    dsimp only
    split
    · exact Or.inl rfl
    · exact Or.inr rfl

/-- What is put off after a reply leaves the boxes alone that only the request feeds. -/
theorem PutOff.calm_rest {before after : List Errand} (putOff : PutOff y m s before after)
    {d t : Session} (stepped : t = after.foldl runErrand d ∨
      t = (after.foldl runErrand d).noteUnmatched m)
    (sole : s.Sole y b) (alone : d.Sole x b) (mine : x.handler.feeds b = true)
    (spared : ∀ z ∈ s.router.routes, z.handler.removes x.handle = false) : Calm x b d t := by
  have rest := alone.calm_errands mine
    (fun e he => putOff.silent b sole e (List.mem_append_right _ he))
    fun e he => putOff.spares _ spared e (List.mem_append_right _ he)
  rcases stepped with rfl | rfl
  · exact rest
  · exact rest.trans (rest.sole.calm_noteUnmatched m)

theorem PutOff.phase_rest {before after : List Errand} (putOff : PutOff y m s before after)
    {d t : Session} (stepped : t = after.foldl runErrand d ∨
      t = (after.foldl runErrand d).noteUnmatched m)
    (plain : ∀ request registration details payload,
      m ≠ .invocation request registration details payload) : t.phase = d.phase := by
  have rest : (after.foldl runErrand d).phase = d.phase :=
    phase_errands fun e he => putOff.replies plain e (List.mem_append_right _ he)
  rcases stepped with rfl | rfl
  · exact rest
  · rw [noteUnmatched_of_other plain]
    exact rest

/-- What lies in the box of a route that is gone stays as it is. -/
theorem Becomes.postsTo_of_unfed {o : Outlook} {t : Session} (becomes : Becomes x b o s t)
    (unfed : o.fed = false) : t.postsTo b = o.posts ∧ t.feeds b = false := by
  rcases becomes.look with same | ⟨f, -, ended⟩
  · exact ⟨congrArg Outlook.posts same, (congrArg Outlook.fed same).trans unfed⟩
  · unfold Outlook.ended at ended
    split at ended
    · exact ⟨congrArg Outlook.posts ended, (congrArg Outlook.fed ended).trans unfed⟩
    · rw [unfed] at ended
      exact ⟨(congrArg Outlook.posts ended).trans (List.append_nil _), congrArg Outlook.fed ended⟩

theorem postsTo_post_self (here : b ∉ s.gone) (p : Post) :
    (s.post b p).postsTo b = s.postsTo b ++ [p] := by
  rw [post_eq, postsTo_append rfl, arriving]
  simp [here]

theorem Sole.post_self (sole : s.Sole y r) (p : Post) : (s.post r p).Sole y r where
  sound := sole.sound.congr (post_router _ _ _) (post_interrupts _ _ _)
  routes := by
    rw [post_router]
    exact sole.routes
  waiters := by
    rw [post_eq]
    exact sole.waiters
  heard := by
    rw [post_gone]
    exact sole.heard

theorem handOver_install {feed : Feed} {key : RouteKey} (here : r ∉ s.gone)
    (confirms : m.enrolledKey? = some key) :
    s.handOver (some r) m (some (.install feed)) =
      ({ s with router := (s.router.add [key] (.feed feed)).1 } : Session).post r
        (.reply (.ok (m, some (s.router.lastHandle + 1)))) := by
  simp [handOver, changeRoutes, confirms, Router.add, here]

/-- A reply is handed over for which no route is to be installed. What it does to the routes leaves
the box alone. -/
theorem Sole.handOver_plain (sole : s.Sole y r) {change : Option RouteChange}
    (plain : ∀ feed, change = some (.install feed) → m.enrolledKey? = none)
    (spared : (Target.reply (some r) change).removes y.handle = false) :
    ∃ t, Calm y r s t ∧ s.handOver (some r) m change = t.post r (.reply (.ok (m, none))) := by
  have kept : ∀ c : RouteChange, s.changeRoutes m (some c) = (s, none) →
      s.handOver (some r) m (some c) = s.post r (.reply (.ok (m, none))) := by
    intro c idle
    rw [handOver_of_idle idle, handOver_none, answer]
  rcases change with _ | feed | route
  · exact ⟨s, sole.calm_refl, by rw [handOver_none, answer]⟩
  · exact ⟨s, sole.calm_refl, kept _ (by simp [changeRoutes, plain feed rfl])⟩
  · by_cases confirms : m.confirmsGone = true
    · refine ⟨s.eraseRoute route, sole.calm_eraseRoute route fun _ _ same => ?_, ?_⟩
      · simp [Target.removes, same] at spared
      · have changed : s.changeRoutes m (some (.remove route)) = (s.eraseRoute route, none) := by
          simp [changeRoutes, confirms]
        have heard : r ∉ s.gone := sole.heard
        rw [handOver, changed]
        simp [heard]
    · exact ⟨s, sole.calm_refl, kept _ (by simp [changeRoutes, confirms])⟩

/-- A reply comes for which no route is to be installed: whoever waits for it gets it, without a
route. -/
theorem Sole.replied (sole : s.Sole y r) {change : Option RouteChange}
    (waits : y.handler = .reply (some r) change)
    (ided : ∀ key ∈ y.keys, key.id ≠ none) (live : s.phase ≠ .closed)
    (there : y ∈ s.router.routes) (takes : y.takes (RouteKey.ofMessage m) = true)
    (plain : ∀ feed, change = some (.install feed) → m.enrolledKey? = none)
    (spared : ∀ z ∈ s.router.routes, z.handler.removes y.handle = false) :
    let t := s.step (.arrival (.item (.message m)))
    t.Sole y r ∧ t.feeds r = false ∧
      t.postsTo r = s.postsTo r ++ [.reply (.ok (m, none))] := by
  intro t
  have feeds : y.handler.feeds r = true := by simp [waits, Target.feeds]
  obtain ⟨before, after, putOff, until', stepped⟩ :=
    reply_put_off sole.sound live waits ided there takes spared
  have one := until' r sole feeds
  obtain ⟨same, unfed⟩ := one.postsTo_of_unfed (by simp [Outlook.withdrawnIf])
  obtain ⟨e, two, handed⟩ := one.sole.handOver_plain plain (waits ▸ spared y there)
  obtain ⟨same', unfed'⟩ := two.postsTo_of_unfed unfed
  have done := putOff.calm_rest stepped sole (handed ▸ two.sole.post_self _) feeds spared
  have told : (e.post r (.reply (.ok (m, none)))).postsTo r =
      s.postsTo r ++ [.reply (.ok (m, none))] := by
    rw [postsTo_post_self two.sole.heard, same', show (Session.outlook _ r).posts = _ from same]
    rfl
  have silent : (e.post r (.reply (.ok (m, none)))).feeds r = false := by
    rw [post_eq]
    exact unfed'
  have final := done.postsTo_of_unfed (by rw [handed]; exact silent)
  rw [handed] at final
  exact ⟨done.sole, final.2, final.1.trans told⟩

/-- What a reply has led to that confirms a registration or subscription: the new route has its box
to itself, which is as it was, and whoever waits for the reply was told of it. -/
structure Enrols (m : Message) (x y : Route Target) (b r : Box) (s d : Session) : Prop where
  items : d.Sole x b
  there : x ∈ d.router.routes
  silent : d.postsTo b = s.postsTo b
  reply : d.Sole y r
  unfed : d.feeds r = false
  told : d.postsTo r = s.postsTo r ++ [.reply (.ok (m, some x.handle))]
  phase : d.phase = s.phase

/-- A reply is handed over for which a route is installed: once the request's own is gone, nothing
else feeds the two boxes. -/
theorem Sole.enrols {c : Session} {feed : Feed} {key : RouteKey} (one : c.Sole y b)
    (two : c.Sole y r) (absent : y ∉ c.router.routes) (own : feed.box = b) (other : r ≠ b)
    (confirms : m.enrolledKey? = some key) :
    Enrols m ⟨c.router.lastHandle + 1, [key], .feed feed⟩ y b r c
      (c.handOver (some r) m (some (.install feed))) := by
  let x : Route Target := ⟨c.router.lastHandle + 1, [key], .feed feed⟩
  let e : Session := { c with router := (c.router.add [key] (.feed feed)).1 }
  let p : Post := .reply (.ok (m, some x.handle))
  have away : (Target.feed feed).feeds r = false := by simpa [Target.feeds, own] using other.symm
  have items : e.Sole x b := (one.blank absent).add one.sound one.heard [key] (.feed feed)
  have blank : e.Blank r := by
    refine ⟨fun z there => ?_, two.waiters⟩
    rcases mem_routes_add.mp there with old | rfl
    · exact (two.blank absent).routes z old
    · exact away
  have elsewhere : (e.post r p).postsTo b = e.postsTo b :=
    postsTo_answer (fun same => other (Option.some.inj same)) p
  have heard : r ∉ e.gone := two.heard
  have here : (e.post r p).postsTo r = e.postsTo r ++ [p] := postsTo_post_self heard p
  have unfed : (e.post r p).feeds r = false := by
    rw [post_eq]
    exact blank.not_feeds
  have there : x ∈ (e.post r p).router.routes := by
    rw [post_router]
    exact mem_routes_add.mpr (Or.inr rfl)
  rw [handOver_install two.heard confirms]
  exact ⟨(items.calm_post other p).sole, there, elsewhere,
    (blank.sole items.sound two.heard y).post_self p, unfed, here, post_phase _ _ _⟩

/-- A reply comes that confirms a registration or subscription: its route is installed, its box is
as it was, and whoever waits for the reply is told of the route. -/
theorem Sole.enrolled (sole : s.Sole y b) (sole' : s.Sole y r) {feed : Feed} (own : feed.box = b)
    (waits : y.handler = .reply (some r) (some (.install feed))) (other : r ≠ b)
    (ided : ∀ key ∈ y.keys, key.id ≠ none) (live : s.phase ≠ .closed)
    (there : y ∈ s.router.routes) (takes : y.takes (RouteKey.ofMessage m) = true) {key : RouteKey}
    (confirms : m.enrolledKey? = some key)
    (spared : ∀ z ∈ s.router.routes, z.handler.removes y.handle = false)
    (unknown : ∀ z ∈ s.router.routes, ∀ h, s.router.lastHandle < h → z.handler.removes h = false) :
    ∃ h, Enrols m ⟨h, [key], .feed feed⟩ y b r s (s.step (.arrival (.item (.message m)))) := by
  have feeds : y.handler.feeds b = true := by simp [waits, Target.feeds, own]
  have feeds' : y.handler.feeds r = true := by simp [waits, Target.feeds]
  obtain ⟨before, after, putOff, until', stepped⟩ :=
    reply_put_off sole.sound live waits ided there takes spared
  -- a confirmation is no invocation, so nothing but replies is put off, and the session goes on
  have plain : ∀ request registration details payload,
      m ≠ .invocation request registration details payload := by
    rintro request registration details payload rfl
    simp [Message.enrolledKey?] at confirms
  let c := before.foldl runErrand (s.handedAround m)
  have phase : c.phase = s.phase :=
    phase_errands fun e he => putOff.replies plain e (List.mem_append_left _ he)
  have one := until' b sole feeds
  have one' := until' r sole' feeds'
  obtain ⟨same, unfed⟩ := one.postsTo_of_unfed (by simp [Outlook.withdrawnIf])
  obtain ⟨same', -⟩ := one'.postsTo_of_unfed (by simp [Outlook.withdrawnIf])
  have absent : y ∉ c.router.routes := by
    intro among
    have fed := (one.sole.feeds_iff feeds).mpr ⟨by rwa [phase], among⟩
    simp [fed] at unfed
  have handed := one.sole.enrols one'.sole absent own other confirms
  -- the rest leaves both boxes alone
  have mine : (Target.feed feed).feeds b = true := by simp [Target.feeds, own]
  have late : s.router.lastHandle < c.router.lastHandle + 1 := Nat.lt_succ_of_le one.handles
  have rest := putOff.calm_rest stepped sole handed.items mine fun z hz => unknown z hz _ late
  have rest' := putOff.calm_rest stepped sole' handed.reply feeds' spared
  have phases := (putOff.phase_rest stepped plain).trans (handed.phase.trans phase)
  have open' : (s.step (.arrival (.item (.message m)))).phase ≠ .closed := by rwa [phases]
  have look := rest.look_of_live open'
  obtain ⟨told, unfed'⟩ := rest'.postsTo_of_unfed handed.unfed
  have fed := (handed.items.feeds_iff mine).mpr
    ⟨by rwa [handed.phase, show c.phase = s.phase from phase], handed.there⟩
  refine ⟨_, rest.sole, ?_, ?_, rest'.sole, unfed', ?_, phases⟩
  · exact ((rest.sole.feeds_iff mine).mp ((congrArg Outlook.fed look).trans fed)).2
  · exact (congrArg Outlook.posts look).trans (handed.silent.trans same)
  · exact told.trans (handed.told.trans (same' ▸ rfl))

/-! ### While a reply is awaited -/

/-- The reply to a request is awaited in a box, and nothing has come into the box yet. -/
structure Attends (y : Route Target) (r : Box) (s : Session) : Prop where
  sole : s.Sole y r
  live : s.phase ≠ .closed
  there : y ∈ s.router.routes
  unreplied : s.postsTo r = []

section

variable {change : Option RouteChange} {input : Input}

/-- Anything but the reply happens: it may come yet, or the session has ended without it. -/
theorem Attends.passed (attends : s.Attends y r) (waits : y.handler = .reply (some r) change)
    (asks : input.feeds r = false) (heeds : ∀ box, input ≠ .forget box)
    (stays : s.withdraws y.handle input = false)
    (passes : ∀ m, input = .arrival (.item (.message m)) →
      y.takes (RouteKey.ofMessage m) = false) :
    let t := s.step input
    t.Attends y r ∨ t.phase = .closed ∧ ∀ came, .reply (.ok came) ∉ t.postsTo r := by
  intro t
  have feeds : y.handler.feeds r = true := by simp [waits, Target.feeds]
  have fed := (attends.sole.feeds_iff feeds).mpr ⟨attends.live, attends.there⟩
  have becomes := attends.sole.step_passed feeds attends.live asks heeds
    (fun m same _ => passes m same) (Or.inr stays)
  rw [stays, Outlook.withdrawnIf_false] at becomes
  by_cases late : t.phase = .closed
  · refine Or.inr ⟨late, fun came told => ?_⟩
    rcases becomes.look with same | ⟨f, -, ended⟩
    · have posts : t.postsTo r = s.postsTo r := congrArg Outlook.posts same
      rw [posts, attends.unreplied] at told
      exact absurd told List.not_mem_nil
    · have posts := congrArg Outlook.posts ended
      have last : y.handler.lastPostsTo r f = [.reply (.error f)] := by
        simp [waits, Target.lastPostsTo, Target.lastPosts]
      rw [show t.postsTo r = [.reply (.error f)] by
        simpa [outlook, Outlook.ended, attends.live, fed, last, attends.unreplied] using posts]
        at told
      simp at told
  · have look := becomes.look_of_live late
    refine Or.inl ⟨becomes.sole, late, ?_, ?_⟩
    · exact ((becomes.sole.feeds_iff feeds).mp ((congrArg Outlook.fed look).trans fed)).2
    · exact (congrArg Outlook.posts look).trans attends.unreplied

/-- Whoever awaits a reply with which no route is installed waits on, or the session ends without
it, or it comes. -/
theorem Attends.step (attends : s.Attends y r) (waits : y.handler = .reply (some r) change)
    (plain : ∀ feed, change ≠ some (.install feed)) (ided : ∀ key ∈ y.keys, key.id ≠ none)
    (spared : ∀ z ∈ s.router.routes, z.handler.removes y.handle = false)
    (asks : input.feeds r = false) (heeds : ∀ box, input ≠ .forget box)
    (stays : s.withdraws y.handle input = false) :
    let t := s.step input
    t.Attends y r ∨ (t.phase = .closed ∧ ∀ came, .reply (.ok came) ∉ t.postsTo r) ∨
      ∃ m, input = .arrival (.item (.message m)) ∧ y.takes (RouteKey.ofMessage m) = true ∧
        t.feeds r = false ∧ t.postsTo r = [.reply (.ok (m, none))] := by
  intro t
  by_cases taken : ∃ m, input = .arrival (.item (.message m)) ∧
      y.takes (RouteKey.ofMessage m) = true
  · obtain ⟨m, rfl, takes⟩ := taken
    obtain ⟨-, unfed, told⟩ := attends.sole.replied waits ided attends.live attends.there takes
      (fun feed same => absurd same (plain feed)) spared
    rw [attends.unreplied] at told
    exact Or.inr (Or.inr ⟨m, rfl, takes, unfed, told⟩)
  · have passes : ∀ m, input = .arrival (.item (.message m)) →
        y.takes (RouteKey.ofMessage m) = false := by
      rintro m same
      by_contra takes
      exact taken ⟨m, same, by simpa using takes⟩
    exact (attends.passed waits asks heeds stays passes).imp_right Or.inl

end

/-- A registration or subscription was asked for: the reply is to come into the one box, and what
comes by the new route into the other. -/
structure Pends (y : Route Target) (r b : Box) (s : Session) : Prop where
  reply : s.Sole y r
  items : s.Sole y b
  live : s.phase ≠ .closed
  there : y ∈ s.router.routes
  unreplied : s.postsTo r = []
  empty : s.postsTo b = []

/-- The reply has installed the route, and whoever waits for it was told. -/
structure Confirms (m : Message) (x : Route Target) (r b : Box) (s : Session) : Prop where
  keys : ∃ key, m.enrolledKey? = some key ∧ x.keys = [key]
  items : s.Sole x b
  live : s.phase ≠ .closed
  there : x ∈ s.router.routes
  told : s.postsTo r = [.reply (.ok (m, some x.handle))]
  empty : s.postsTo b = []

section

variable {feed : Feed} (own : feed.box = b) (other : r ≠ b)
  (waits : y.handler = .reply (some r) (some (.install feed)))
  (ided : ∀ key ∈ y.keys, key.id ≠ none)
  (spared : ∀ z ∈ s.router.routes, z.handler.removes y.handle = false)
  (unknown : ∀ z ∈ s.router.routes, ∀ h, s.router.lastHandle < h → z.handler.removes h = false)

include own other waits ided spared unknown

/-- The reply comes. It declines, or else whoever awaits it is told of the new route. -/
theorem Pends.taken (pends : s.Pends y r b) (takes : y.takes (RouteKey.ofMessage m) = true) :
    let t := s.step (.arrival (.item (.message m)))
    t.feeds r = false ∧ ((∀ came h, .reply (.ok (came, some h)) ∉ t.postsTo r) ∨
      ∃ h key, t.Confirms m ⟨h, [key], .feed feed⟩ r b) := by
  intro t
  cases confirms : m.enrolledKey? with
  | none =>
    obtain ⟨-, silent, posts⟩ :=
      pends.reply.replied waits ided pends.live pends.there takes (fun _ _ => confirms) spared
    refine ⟨silent, Or.inl fun came h told => ?_⟩
    rw [posts, pends.unreplied] at told
    simp at told
  | some key =>
    obtain ⟨h, enrols⟩ := pends.items.enrolled pends.reply own waits other ided pends.live
      pends.there takes confirms spared unknown
    refine ⟨enrols.unfed, Or.inr ⟨h, key, ⟨key, confirms, rfl⟩, enrols.items, ?_, enrols.there, ?_,
      enrols.silent.trans pends.empty⟩⟩
    · rw [enrols.phase]
      exact pends.live
    · rw [enrols.told, pends.unreplied]
      rfl

omit other ided spared unknown in
/-- Anything else happens. The reply may come yet, or it comes no more. -/
theorem Pends.passed (pends : s.Pends y r b) {input : Input} (asks : input.feeds r = false)
    (asks' : input.feeds b = false) (heeds : ∀ box, input ≠ .forget box)
    (stays : s.withdraws y.handle input = false)
    (passes : ∀ m, input = .arrival (.item (.message m)) →
      y.takes (RouteKey.ofMessage m) = false) :
    let t := s.step input
    t.Pends y r b ∨
      t.feeds r = false ∧ ∀ came h, .reply (.ok (came, some h)) ∉ t.postsTo r := by
  intro t
  have attends : s.Attends y r := ⟨pends.reply, pends.live, pends.there, pends.unreplied⟩
  rcases attends.passed waits asks heeds stays passes with still | ⟨late, untold⟩
  · have feeds : y.handler.feeds b = true := by simp [waits, Target.feeds, own]
    have becomes := pends.items.step_passed feeds pends.live asks' heeds
      (fun m same _ => passes m same) (Or.inr stays)
    rw [stays, Outlook.withdrawnIf_false] at becomes
    have look := becomes.look_of_live still.live
    exact Or.inl ⟨still.sole, becomes.sole, still.live, still.there, still.unreplied,
      (congrArg Outlook.posts look).trans pends.empty⟩
  · have ended : t.phase = .closed := late
    exact Or.inr ⟨by simp [Session.feeds, ended], fun came h => untold (came, some h)⟩

/-- Whoever awaits the reply waits on, or is told that there is none or that it declines, or else
is told of the new route. -/
theorem Pends.step (pends : s.Pends y r b) {input : Input} (asks : input.feeds r = false)
    (asks' : input.feeds b = false) (heeds : ∀ box, input ≠ .forget box)
    (stays : s.withdraws y.handle input = false) :
    let t := s.step input
    t.Pends y r b ∨ t.feeds r = false ∧
      ((∀ came h, .reply (.ok (came, some h)) ∉ t.postsTo r) ∨
        ∃ m h key, input = .arrival (.item (.message m)) ∧
          t.Confirms m ⟨h, [key], .feed feed⟩ r b) := by
  intro t
  by_cases taken : ∃ m, input = .arrival (.item (.message m)) ∧
      y.takes (RouteKey.ofMessage m) = true
  · obtain ⟨m, rfl, takes⟩ := taken
    obtain ⟨silent, turns⟩ := pends.taken own other waits ided spared unknown takes
    exact Or.inr ⟨silent, turns.imp_right fun ⟨h, key, done⟩ => ⟨m, h, key, rfl, done⟩⟩
  · have passes : ∀ m, input = .arrival (.item (.message m)) →
        y.takes (RouteKey.ofMessage m) = false := by
      rintro m same
      by_contra takes
      exact taken ⟨m, same, by simpa using takes⟩
    exact (pends.passed own waits asks asks' heeds stays passes).imp_right fun ⟨silent, none'⟩ =>
      ⟨silent, Or.inl none'⟩

end

end WampClient.Session
