import WampClient.Proofs.Session.Enrolment
import WampClient.Proofs.Session.Known

/-! Where the routes and the posts of a session come from, over whole steps. A route that waits for
replies or results belongs to a request that the session has taken up. A route is made known in one
post only, and a box that no command asked to be filled stays empty. -/
namespace WampClient

/-- The route is that of a registration or subscription that a reply has confirmed. The request was
waiting for the reply by one of these routes, and whoever had asked was told of it. -/
def Route.Granted (routes : List (Route Target)) (posts : List (Box × Post)) (x : Route Target) :
    Prop :=
  ∃ feed, x.handler = .feed feed ∧ ∃ m key box, m.enrolledKey? = some key ∧ x.keys = [key] ∧
    (∃ y ∈ routes, y.handler = .reply box (some (.install feed)) ∧
      y.takes (RouteKey.ofMessage m) = true) ∧
    ∀ b, box = some b → (b, .reply (.ok (m, some x.handle))) ∈ posts

theorem Route.Granted.mono {routes : List (Route Target)} {posts later : List (Box × Post)}
    {x : Route Target} (granted : x.Granted routes posts) (told : ∀ e ∈ posts, e ∈ later) :
    x.Granted routes later := by
  obtain ⟨feed, fed, m, key, box, confirms, keys, waited, put⟩ := granted
  exact ⟨feed, fed, m, key, box, confirms, keys, waited, fun b own => told _ (put b own)⟩

namespace Session

variable {input : Input} {w w' : Work} {s : Session} {h : Handle} {b : Box}

/-! ### Routes -/

theorem posts_prefix_post (s : Session) (box : Box) (p : Post) :
    s.posts <+: (s.post box p).posts := by
  rw [post_eq]
  exact List.prefix_append _ _

theorem posts_prefix_answer (s : Session) (box : Option Box) (p : Post) :
    s.posts <+: (s.answer box p).posts := by
  rw [answer_eq]
  exact List.prefix_append _ _

theorem Part.posts_prefix (part : Part input w w') : w.session.posts <+: w'.session.posts := by
  cases part with
  | quiet alike => exact alike.posts ▸ List.prefix_rfl
  | posted box more plain => exact posts_prefix_post _ box _
  | accepted asked => exact posts_prefix_post _ _ _
  | @settled s es x box m there' waits takes last =>
    exact posts_prefix_post (s.eraseRoute x.handle) box _
  | @enrolled s es box m feed key confirms heard =>
    exact posts_prefix_answer { s with router := (s.router.add [key] (.feed feed)).1 } box _
  | handedOver box m => exact posts_prefix_answer _ box _
  | @watched s es request cell =>
    rcases watch_eq s request cell with watched | ⟨previous, -, watched⟩ <;>
      exact watched ▸ List.prefix_rfl
  | terminated live kind =>
    rw [terminate_eq live]
    exact List.prefix_append _ _
  | _ => exact List.prefix_rfl

/-- Replies that are put off have come for requests that waited for them when the step began. -/
structure Work.Awaited (routes : List (Route Target)) (w : Work) : Prop where
  waits : ∀ y ∈ w.session.router.routes, ∀ box change, y.handler = .reply box change → y ∈ routes
  errands : ∀ box m change, .handOver box m (some change) ∈ w.errands →
    ∃ y ∈ routes, y.handler = .reply box (some change) ∧ y.takes (RouteKey.ofMessage m) = true

theorem Work.Awaited.part {routes : List (Route Target)} (awaited : w.Awaited routes)
    (part : Part input w w') : w'.Awaited routes where
  waits y there box change own := by
    rcases part.route_origin there with old | ⟨-, ⟨feed, fed, -⟩ | ⟨cell, shows, -⟩⟩
    · exact awaited.waits y old box change own
    · cases own.symm.trans fed
    · cases own.symm.trans shows
  errands box m change there := by
    rcases part.errand_origin there with ⟨change', old, rfl | ⟨none', -⟩⟩ | ⟨x, among, own, takes⟩
    · exact awaited.errands box m change old
    · cases none'
    · exact ⟨x, awaited.waits x among box _ own, own, takes⟩

/-- A route that was not there is of a registration or subscription that a reply has confirmed, or
of an invocation, or a request has asked for it. -/
theorem route_origin_step (sound : s.Sound) {x : Route Target}
    (there : x ∈ (s.step input).router.routes) :
    x ∈ s.router.routes ∨
      x.Granted (s.prepared input).router.routes (s.step input).posts ∨
      (∃ cell, x.handler = .interrupt cell ∧
        ∃ request, x.keys = [RouteKey.ofReply .interrupt request]) ∨
      ∃ m box, input = .command (.request m x.keys x.handler box) := by
  have before : ∀ w, Parts input ⟨s.prepared input, []⟩ w →
      w.Awaited (s.prepared input).router.routes ∧ (x ∈ w.session.router.routes →
        x ∈ (s.prepared input).router.routes ∨
        x.Granted (s.prepared input).router.routes w.session.posts ∨
        ∃ cell, x.handler = .interrupt cell ∧
          ∃ request, x.keys = [RouteKey.ofReply .interrupt request]) := by
    intro w parts
    induction parts with
    | refl =>
      exact ⟨⟨fun y there _ _ _ => there, fun _ _ _ put => absurd put List.not_mem_nil⟩, Or.inl⟩
    | tail _ part ih =>
      obtain ⟨awaited, origin⟩ := ih
      refine ⟨awaited.part part, fun there => ?_⟩
      rcases part.route_origin there with old |
        ⟨-, ⟨feed, fed, m, key, box, confirms, keys, put, told⟩ | made⟩
      · exact (origin old).imp_right (Or.imp_left fun granted =>
          granted.mono fun e told => part.posts_prefix.subset told)
      · exact Or.inr (Or.inl ⟨feed, fed, m, key, box, confirms, keys, awaited.errands _ _ _ put,
          told⟩)
      · exact Or.inr (Or.inr made)
  rcases (before _ (parts_step sound.tidy input)).2 there with old | fed | cell
  · rcases prepared_cases s input with same | ⟨m, keys, target, box, rfl, -, added⟩
    · exact Or.inl (same ▸ old)
    · rw [added] at old
      rcases mem_routes_add.mp old with old | rfl
      · exact Or.inl old
      · exact Or.inr (Or.inr (Or.inr ⟨m, box, rfl⟩))
  · exact Or.inr (Or.inl fed)
  · exact Or.inr (Or.inr (Or.inl cell))

/-- What would take a route out was asked for. -/
theorem removes_origin_step (sound : s.Sound) {x : Route Target}
    (there : x ∈ (s.step input).router.routes) (removes : x.handler.removes h = true) :
    x ∈ s.router.routes ∨ input.removes h = true := by
  rcases route_origin_step sound there with old | ⟨feed, fed, -⟩ | ⟨cell, own, -⟩ | ⟨m, box, rfl⟩
  · exact Or.inl old
  · simp [fed, Target.removes] at removes
  · simp [own, Target.removes] at removes
  · exact Or.inr removes

/-- A route goes with a message of its own, with the session, or because somebody asked for it. -/
theorem not_withdraws (routes : ∀ x ∈ s.router.routes, x.handler.removes h = false)
    (asks : input.removes h = false) : s.withdraws h input = false := by
  cases input with
  | arrival a =>
    cases a with
    | item i =>
      cases i with
      | message m =>
        have none' : s.router.routes.any (fun y =>
            y.handler.removes h && y.takes (RouteKey.ofMessage m)) = false :=
          List.any_eq_false.mpr fun y there => by simp [routes y there]
        rw [withdraws, none', Bool.and_false]
      | ping data => rfl
    | failed description => rfl
    | ended => rfl
  | command c =>
    cases c with
    | removeRoute route => exact asks
    | _ => rfl
  | _ => rfl

/-! ### Posts -/

/-- What was put into boxes stays there, and comes before what is put in later. -/
theorem posts_prefix_step (sound : s.Sound) (input : Input) : s.posts <+: (s.step input).posts := by
  have before : s.posts <+: (s.prepared input).posts := by
    rcases prepared_cases s input with same | ⟨m, keys, target, answer, -, -, added⟩
    · exact (congrArg Session.posts same).symm ▸ List.prefix_rfl
    · exact added ▸ List.prefix_rfl
  have all : ∀ w, Parts input ⟨s.prepared input, []⟩ w → s.posts <+: w.session.posts := by
    intro w parts
    induction parts with
    | refl => exact before
    | tail _ part ih => exact ih.trans part.posts_prefix
  exact all _ (parts_step sound.tidy input)

theorem posts_of_mem_step (sound : s.Sound) (input : Input) {e : Box × Post} (there : e ∈ s.posts) :
    e ∈ (s.step input).posts :=
  (posts_prefix_step sound input).subset there

/-- Nothing is put into a box that is gone. -/
theorem heard_of_mem_step (sound : s.Sound) {box : Box} {p : Post}
    (there : (box, p) ∈ (s.step input).posts) : (box, p) ∈ s.posts ∨ box ∉ s.gone := by
  have all : ∀ w, Parts input ⟨s.prepared input, []⟩ w →
      (box ∈ s.gone → box ∈ w.session.gone) ∧
        ((box, p) ∈ w.session.posts → (box, p) ∈ s.posts ∨ box ∉ s.gone) := by
    intro w parts
    induction parts with
    | refl =>
      rcases prepared_cases s input with same | ⟨m, keys, target, answer, -, -, added⟩
      · rw [same]
        exact ⟨id, Or.inl⟩
      · rw [added]
        exact ⟨id, Or.inl⟩
    | tail _ part ih =>
      refine ⟨fun gone => part.gone_of_mem (ih.1 gone), fun there => ?_⟩
      rcases part.post_origin there with old | ⟨here, -⟩
      · exact ih.2 old
      · exact Or.inr fun gone => here (ih.1 gone)
  exact (all _ (parts_step sound.tidy input)).2 there

/-- A request is accepted in the step that takes it up. -/
theorem accepted_of_mem_step (sound : s.Sound) {box : Box} {route : Handle}
    (there : (box, .accepted (.ok route)) ∈ (s.step input).posts) :
    (box, .accepted (.ok route)) ∈ s.posts ∨ s.phase = .established ∧
      route = s.router.lastHandle + 1 ∧
        ∃ m keys target, input = .command (.request m keys target (some box)) := by
  by_cases asks : ∃ m keys target answer, input = .command (.request m keys target answer)
  · obtain ⟨m, keys, target, answer, rfl⟩ := asks
    rcases route_known_request there rfl with old | ⟨live, rfl, same⟩
    · exact Or.inl old
    · exact Or.inr ⟨live, by simpa using same, m, keys, target, rfl⟩
  · have before : ∀ w, Parts input ⟨s.prepared input, []⟩ w →
        (box, .accepted (.ok route)) ∈ w.session.posts →
          (box, .accepted (.ok route)) ∈ s.posts := by
      intro w parts
      induction parts with
      | refl =>
        rcases prepared_cases s input with same | ⟨m, keys, target, answer, rfl, -⟩
        · rw [same]
          exact id
        · exact absurd ⟨m, keys, target, answer, rfl⟩ asks
      | tail _ part ih =>
        intro there
        rcases part.post_origin there with old | ⟨-, ⟨-, plain⟩ | ⟨m, keys, target, asked, -⟩ |
          ⟨x, -, -, m, -, same⟩ | ⟨m, change, -, route', same, -⟩ | ⟨f, -, told⟩⟩
        · exact ih old
        · exact absurd plain (by simp [Post.route?])
        · exact absurd ⟨m, keys, target, _, asked⟩ asks
        · cases same
        · cases same
        · have unknown := route?_of_mem_lastPosts told
          exact absurd unknown (by simp [Post.route?])
    exact Or.inl (before _ (parts_step sound.tidy input) there)

/-- The routes that are made known are all different, and have been given out. -/
structure Telling (s : Session) : Prop where
  bounded : ∀ e ∈ s.posts, ∀ h, e.2.route? = some h → h ≤ s.router.lastHandle
  once : ∀ e ∈ s.posts, ∀ e' ∈ s.posts, ∀ h, e.2.route? = some h → e'.2.route? = some h → e = e'

/-- One post at most makes a new route known. -/
theorem Telling.extend {t : Session} (telling : s.Telling) (box : Box) (p : Post)
    (handles : s.router.lastHandle ≤ t.router.lastHandle)
    (posts : ∀ e ∈ t.posts, ∀ h, e.2.route? = some h →
      e ∈ s.posts ∨ e = (box, p) ∧ s.router.lastHandle < h ∧ h ≤ t.router.lastHandle) :
    t.Telling where
  bounded e he h known := by
    rcases posts e he h known with old | ⟨-, -, high⟩
    · exact Nat.le_trans (telling.bounded e old h known) handles
    · exact high
  once e he e' he' h known known' := by
    rcases posts e he h known with old | ⟨rfl, low, -⟩
    · rcases posts e' he' h known' with old' | ⟨-, low, -⟩
      · exact telling.once e old e' old' h known known'
      · exact absurd (telling.bounded e old h known) (Nat.not_le_of_lt low)
    · rcases posts e' he' h known' with old' | ⟨rfl, -, -⟩
      · exact absurd (telling.bounded e' old' h known') (Nat.not_le_of_lt low)
      · rfl

theorem Telling.congr {t : Session} (telling : s.Telling)
    (handles : s.router.lastHandle ≤ t.router.lastHandle)
    (posts : ∀ e ∈ t.posts, ∀ h, e.2.route? = some h → e ∈ s.posts) : t.Telling :=
  telling.extend 0 .left handles fun e he h known => Or.inl (posts e he h known)

theorem Part.telling (part : Part input w w') (telling : w.session.Telling)
    (other : ∀ m keys target box, input ≠ .command (.request m keys target box)) :
    w'.session.Telling := by
  by_cases hands : ∃ box m feed key es, m.enrolledKey? = some key ∧
      w.errands = .handOver box m (some (.install feed)) :: es ∧
      w'.session = { w.session with
        router := (w.session.router.add [key] (.feed feed)).1 }.answer box
          (.reply (.ok (m, some (w.session.router.lastHandle + 1))))
  · obtain ⟨box, m, feed, key, es, -, -, same⟩ := hands
    rw [same]
    refine telling.extend (box.getD 0)
      (.reply (.ok (m, some (w.session.router.lastHandle + 1)))) ?_ fun e he h known => ?_
    · rw [answer_router]
      exact Nat.le_succ _
    · rw [answer_router]
      rcases mem_posts_answer.mp he with old | ⟨rfl, put, -⟩
      · exact Or.inl old
      · refine Or.inr ⟨Prod.ext rfl put.symm, ?_⟩
        rw [← put] at known
        obtain rfl := Option.some.inj known
        exact ⟨Nat.lt_succ_self _, Nat.le_refl _⟩
  · refine telling.congr part.lastHandle_le fun e he h known => ?_
    obtain ⟨box, p⟩ := e
    cases part with
    | enrolled box feed confirms heard => exact absurd ⟨_, _, _, _, _, confirms, rfl, rfl⟩ hands
    | quiet alike => rwa [alike.posts] at he
    | posted box' more plain =>
      rcases mem_posts_post.mp he with old | ⟨same, -⟩
      · exact old
      · obtain ⟨rfl, rfl⟩ : box = _ ∧ p = _ := by simpa using same
        simp [plain] at known
    | accepted asked => exact absurd asked (other _ _ _ _)
    | settled m there waits takes last =>
      rcases mem_posts_post.mp he with old | ⟨same, -⟩
      · exact old
      · obtain ⟨rfl, rfl⟩ : box = _ ∧ p = _ := by simpa using same
        exact nomatch known
    | handedOver box' m =>
      rcases mem_posts_answer.mp he with old | ⟨-, same, -⟩
      · exact old
      · obtain rfl : _ = p := same
        exact nomatch known
    | @watched s es request cell =>
      rcases watch_eq s request cell with watched | ⟨previous, -, watched⟩
      · rwa [watched] at he
      · rwa [watched] at he
    | @terminated s es f live kind =>
      rw [terminate_eq live] at he
      rcases List.mem_append.mp he with old | there
      · exact old
      · have unknown := route?_of_mem_lastPosts (mem_arriving.mp there).1
        exact absurd (unknown.symm.trans known) (by simp)
    | _ => simpa using he

theorem Telling.step (telling : s.Telling) (sound : s.Sound) (input : Input) :
    (s.step input).Telling := by
  by_cases asks : ∃ m keys target answer, input = .command (.request m keys target answer)
  · obtain ⟨m, keys, target, answer, rfl⟩ := asks
    refine telling.extend (answer.getD 0)
      (.accepted (.ok (s.router.lastHandle + 1))) (lastHandle_step sound _) ?_
    rintro ⟨box, p⟩ he h known
    rcases route_known_step sound he known with old | handles
    · exact Or.inl old
    · rcases route_known_request he known with old | ⟨-, rfl, same⟩
      · exact Or.inl old
      · exact Or.inr ⟨Prod.ext rfl same, handles⟩
  · have other : ∀ m keys target answer, input ≠ .command (.request m keys target answer) :=
      fun m keys target answer same => asks ⟨m, keys, target, answer, same⟩
    have same : s.prepared input = s := by
      rcases prepared_cases s input with same | ⟨m, keys, target, answer, rfl, -⟩
      · exact same
      · exact absurd rfl (other m keys target answer)
    have all : ∀ w, Parts input ⟨s, []⟩ w → w.session.Telling := by
      intro w parts
      induction parts with
      | refl => exact telling
      | tail _ part ih => exact part.telling ih other
    have parts := parts_step sound.tidy input
    rw [same] at parts
    exact all _ parts

theorem telling_established (wire : Wire) (now closeTimeout : Nat) :
    (established wire now closeTimeout).Telling :=
  ⟨fun _ he => absurd he List.not_mem_nil, fun _ he => absurd he List.not_mem_nil⟩

/-! ### Boxes that nothing is put into -/

theorem step_closed (closed : s.phase = .closed) (heeds : ∀ box, input ≠ .forget box) :
    s.step input = s := by
  cases input with
  | forget box => exact absurd rfl (heeds box)
  | _ => exact if_pos closed

theorem blank_of_not_feeds (live : s.phase ≠ .closed) (unfed : s.feeds b = false) :
    s.Blank b where
  routes x there := by
    by_contra fed
    have feeds := feeds_eq_true.mpr ⟨live, Or.inl ⟨x, there, by simpa using fed⟩⟩
    simp [unfed] at feeds
  waiters there := by
    have feeds := feeds_eq_true.mpr ⟨live, Or.inr there⟩
    simp [unfed] at feeds

/-- A box that nothing is put into stays as it is until somebody asks for it to be filled. -/
theorem Blank.step (blank : s.Blank b) (sound : s.Sound) (heard : b ∉ s.gone)
    (asks : input.feeds b = false) (heeds : ∀ box, input ≠ .forget box) :
    (s.step input).Blank b ∧ (s.step input).postsTo b = s.postsTo b := by
  by_cases live : s.phase = .closed
  · rw [step_closed live heeds]
    exact ⟨blank, rfl⟩
  · -- a route that would feed the box, but is not there
    let x : Route Target := ⟨0, [], .feed (.events b)⟩
    have mine : x.handler.feeds b = true := by simp [x, Target.feeds, Feed.box]
    have absent : x ∉ s.router.routes := fun there => by simp [blank.routes x there] at mine
    have due : ∀ f, x.handler.lastPostsTo b f = [] := fun _ => rfl
    have becomes := (blank.sole sound heard x).step_passed mine live asks heeds
      (fun _ _ there => absurd there absent) (Or.inl due)
    have unfed : ((s.outlook b).withdrawnIf (s.withdraws x.handle input)).fed = false := by
      simp [Outlook.withdrawnIf, outlook, blank.not_feeds]
    refine ⟨⟨fun y there => ?_, becomes.sole.waiters⟩, (becomes.postsTo_of_unfed unfed).1⟩
    by_contra fed
    have same := becomes.sole.routes y there (by simpa using fed)
    exact absent (becomes.back (same ▸ there))

theorem blank_established (wire : Wire) (now closeTimeout : Nat) (b : Box) :
    (established wire now closeTimeout).Blank b :=
  ⟨by simp [established, Router.empty], by simp [established]⟩

end Session

end WampClient
