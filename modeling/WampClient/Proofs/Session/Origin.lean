import WampClient.Proofs.Session.Parts

/-! Where things come from: the routes, the interrupts, the posts and what is put off after a part
of a step were there before it, or stem from something that was. -/
namespace WampClient.Session

variable {input : Input} {w w' : Work} {s : Session}

@[simp] theorem lastHandle_eraseRoute (s : Session) (route : Handle) :
    (s.eraseRoute route).router.lastHandle = s.router.lastHandle :=
  Router.lastHandle_erase _ _

@[simp] theorem interrupts_eraseRoute (s : Session) (route : Handle) :
    (s.eraseRoute route).interrupts = s.interrupts := rfl

@[simp] theorem gone_eraseRoute (s : Session) (route : Handle) :
    (s.eraseRoute route).gone = s.gone := rfl

@[simp] theorem phase_eraseRoute (s : Session) (route : Handle) :
    (s.eraseRoute route).phase = s.phase := rfl

@[simp] theorem posts_eraseRoute (s : Session) (route : Handle) :
    (s.eraseRoute route).posts = s.posts := rfl

theorem mem_routes_eraseRoute {x : Route Target} {route : Handle} :
    x ∈ (s.eraseRoute route).router.routes ↔ x ∈ s.router.routes ∧ x.handle ≠ route :=
  Router.mem_routes_erase

theorem mem_posts_post {box : Box} {p : Post} {e : Box × Post} :
    e ∈ (s.post box p).posts ↔ e ∈ s.posts ∨ e = (box, p) ∧ box ∉ s.gone := by
  rw [post_eq, List.mem_append, mem_arriving, List.mem_singleton]
  exact or_congr_right (and_congr_right fun same => by rw [same])

theorem mem_posts_answer {box : Option Box} {p : Post} {e : Box × Post} :
    e ∈ (s.answer box p).posts ↔ e ∈ s.posts ∨ box = some e.1 ∧ p = e.2 ∧ e.1 ∉ s.gone := by
  cases box with
  | none => simp [answer]
  | some box =>
    rw [answer, mem_posts_post]
    obtain ⟨b, q⟩ := e
    simp only [Prod.mk.injEq, Option.some.injEq]
    grind

/-- The session that watches an invocation, before it lets go of the route that did so till now. -/
def watching (s : Session) (request : Id) (cell : Cell) : Session :=
  { s with
    router := (s.router.add [RouteKey.ofReply .interrupt request] (.interrupt cell)).1
    interrupts := Assoc.alter request (fun _ => some (s.router.lastHandle + 1)) s.interrupts }

theorem watch_of_none {s : Session} {request : Id}
    (unknown : Assoc.get? request s.interrupts = none) (cell : Cell) :
    s.watch request cell = s.watching request cell := by
  have watched : s.watch request cell = (Assoc.get? request s.interrupts).elim
      (s.watching request cell) (s.watching request cell).eraseRoute := rfl
  rw [watched, unknown, Option.elim_none]

theorem watch_of_some {s : Session} {request : Id} {previous : Handle}
    (known : Assoc.get? request s.interrupts = some previous) (cell : Cell) :
    s.watch request cell = (s.watching request cell).eraseRoute previous := by
  have watched : s.watch request cell = (Assoc.get? request s.interrupts).elim
      (s.watching request cell) (s.watching request cell).eraseRoute := rfl
  rw [watched, known, Option.elim_some]

theorem watch_eq (s : Session) (request : Id) (cell : Cell) :
    s.watch request cell = s.watching request cell ∨
      ∃ previous, (request, previous) ∈ s.interrupts ∧
        s.watch request cell = (s.watching request cell).eraseRoute previous := by
  cases known : Assoc.get? request s.interrupts with
  | none => exact Or.inl (watch_of_none known cell)
  | some previous => exact Or.inr ⟨previous, Assoc.mem_of_get? known, watch_of_some known cell⟩

theorem lastHandle_watch (s : Session) (request : Id) (cell : Cell) :
    (s.watch request cell).router.lastHandle = s.router.lastHandle + 1 := by
  rcases watch_eq s request cell with watched | ⟨previous, -, watched⟩
  · rw [watched]
    rfl
  · rw [watched, lastHandle_eraseRoute]
    rfl

theorem Part.lastHandle_le (part : Part input w w') :
    w.session.router.lastHandle ≤ w'.session.router.lastHandle := by
  cases part with
  | quiet alike => exact Nat.le_of_eq (congrArg Router.lastHandle alike.router.symm)
  | enrolled box feed confirms heard =>
    rw [answer_router]
    exact Nat.le_succ _
  | disowned feed confirms gone =>
    rw [lastHandle_eraseRoute]
    exact Nat.le_succ _
  | watched request cell =>
    rw [lastHandle_watch]
    exact Nat.le_succ _
  | terminated live kind =>
    rw [terminate_eq live]
    exact Nat.le_refl _
  | _ => simp

theorem mem_routes_add {keys : List RouteKey} {target : Target} {x : Route Target} :
    x ∈ (s.router.add keys target).1.routes ↔
      x ∈ s.router.routes ∨ x = ⟨s.router.lastHandle + 1, keys, target⟩ := by
  rw [Router.routes_add, List.mem_append, List.mem_singleton]

/-- A route that was not there is the last one, and goes with a registration or subscription that
was confirmed, which whoever waited for the reply is told, or with an invocation. -/
theorem Part.route_origin (part : Part input w w') {x : Route Target}
    (there : x ∈ w'.session.router.routes) :
    x ∈ w.session.router.routes ∨
      (x.handle = w.session.router.lastHandle + 1 ∧
        w'.session.router.lastHandle = w.session.router.lastHandle + 1) ∧
        ((∃ feed, x.handler = .feed feed ∧ ∃ m key box, m.enrolledKey? = some key ∧
            x.keys = [key] ∧ .handOver box m (some (.install feed)) ∈ w.errands ∧
              ∀ b, box = some b → (b, .reply (.ok (m, some x.handle))) ∈ w'.session.posts) ∨
          ∃ cell, x.handler = .interrupt cell ∧
            ∃ request, x.keys = [RouteKey.ofReply .interrupt request]) := by
  cases part with
  | quiet alike =>
    rw [alike.router] at there
    exact Or.inl there
  | @enrolled s es box m feed key confirms heard =>
    rw [answer_router] at there
    rcases mem_routes_add.mp there with there | rfl
    · exact Or.inl there
    · refine Or.inr ⟨⟨rfl, by rw [answer_router]; rfl⟩, Or.inl ⟨feed, rfl, m, key, box, confirms,
        rfl, List.mem_cons_self, fun b own => ?_⟩⟩
      exact mem_posts_answer.mpr (Or.inr ⟨own, rfl, heard b own⟩)
  | @disowned s es box m feed key confirms gone =>
    obtain ⟨there, other⟩ := mem_routes_eraseRoute.mp there
    rcases mem_routes_add.mp there with there | rfl
    · exact Or.inl there
    · exact absurd rfl other
  | @watched s es request cell =>
    have added : x ∈ (s.watching request cell).router.routes := by
      rcases watch_eq s request cell with watched | ⟨previous, -, watched⟩
      · rwa [watched] at there
      · rw [watched] at there
        exact (mem_routes_eraseRoute.mp there).1
    rcases mem_routes_add.mp added with there | rfl
    · exact Or.inl there
    · exact Or.inr ⟨⟨rfl, lastHandle_watch s request cell⟩, Or.inr ⟨cell, rfl, request, rfl⟩⟩
  | removed asked => exact Or.inl (mem_routes_eraseRoute.mp there).1
  | replied m found waits takes => exact Or.inl (mem_routes_eraseRoute.mp there).1
  | settled m found waits takes last =>
    rw [post_router] at there
    exact Or.inl (mem_routes_eraseRoute.mp there).1
  | dropped found waits gone => exact Or.inl (mem_routes_eraseRoute.mp there).1
  | withdrawn box route confirms => exact Or.inl (mem_routes_eraseRoute.mp there).1
  | retired known => exact Or.inl (mem_routes_eraseRoute.mp there).1
  | terminated live kind =>
    rw [terminate_eq live] at there
    exact absurd there List.not_mem_nil
  | _ => exact Or.inl (by simpa using there)

theorem Part.interrupt_origin (part : Part input w w') {e : Id × Handle}
    (there : e ∈ w'.session.interrupts) :
    e ∈ w.session.interrupts ∨ e.2 = w.session.router.lastHandle + 1 ∧
      w'.session.router.lastHandle = w.session.router.lastHandle + 1 := by
  cases part with
  | quiet alike =>
    rw [alike.interrupts] at there
    exact Or.inl there
  | @watched s es request cell =>
    have altered : e ∈ (s.watching request cell).interrupts := by
      rcases watch_eq s request cell with watched | ⟨previous, -, watched⟩
      · rwa [watched] at there
      · rwa [watched] at there
    rcases Assoc.mem_alter altered with there | ⟨-, new⟩
    · exact Or.inl there
    · exact Or.inr ⟨(Option.some.inj new).symm, lastHandle_watch s request cell⟩
  | retired known => exact Or.inl (List.mem_of_mem_filter there)
  | terminated live kind =>
    rw [terminate_eq live] at there
    exact absurd there List.not_mem_nil
  | _ => exact Or.inl (by simpa using there)

/-- A reply is put off because a request waits for it; what it does to the routes may be done
before it is handed over, but a route is not installed before. -/
theorem Part.errand_origin (part : Part input w w') {box : Option Box} {m : Message}
    {change : Option RouteChange} (there : .handOver box m change ∈ w'.errands) :
    (∃ change', .handOver box m change' ∈ w.errands ∧ (change = change' ∨
        change = none ∧ ∀ feed, change' = some (.install feed) → m.enrolledKey? = none)) ∨
      ∃ x ∈ w.session.router.routes, x.handler = .reply box change ∧
        x.takes (RouteKey.ofMessage m) = true := by
  cases part with
  | replied m' found waits takes =>
    rcases List.mem_append.mp there with there | there
    · exact Or.inl ⟨change, there, Or.inl rfl⟩
    · obtain ⟨rfl, rfl, rfl⟩ : box = _ ∧ m = _ ∧ change = _ := by simpa using there
      exact Or.inr ⟨_, found, waits, takes⟩
  | deferred e other =>
    rcases List.mem_append.mp there with there | there
    · exact Or.inl ⟨change, there, Or.inl rfl⟩
    · exact absurd (List.mem_singleton.mp there).symm (other box m change)
  | withdrawn box' route confirms =>
    rcases List.mem_cons.mp there with same | there
    · obtain ⟨rfl, rfl, rfl⟩ : box = _ ∧ m = _ ∧ change = _ := by simpa using same
      exact Or.inl ⟨_, List.mem_cons_self, Or.inr ⟨rfl, by simp⟩⟩
    · exact Or.inl ⟨change, List.mem_cons_of_mem _ there, Or.inl rfl⟩
  | unchanged box' idle =>
    rcases List.mem_cons.mp there with same | there
    · obtain ⟨rfl, rfl, rfl⟩ : box = _ ∧ m = _ ∧ change = _ := by simpa using same
      refine Or.inl ⟨_, List.mem_cons_self, Or.inr ⟨rfl, fun feed installs => ?_⟩⟩
      rw [installs, changeRoutes] at idle
      split at idle
      next none' => exact none'
      next => cases (Prod.mk.inj idle).2
    · exact Or.inl ⟨change, List.mem_cons_of_mem _ there, Or.inl rfl⟩
  | enrolled box' feed confirms heard =>
    exact Or.inl ⟨change, List.mem_cons_of_mem _ there, Or.inl rfl⟩
  | disowned feed confirms gone =>
    exact Or.inl ⟨change, List.mem_cons_of_mem _ there, Or.inl rfl⟩
  | handedOver box' m' => exact Or.inl ⟨change, List.mem_cons_of_mem _ there, Or.inl rfl⟩
  | watched request cell => exact Or.inl ⟨change, List.mem_cons_of_mem _ there, Or.inl rfl⟩
  | skipped request => exact Or.inl ⟨change, List.mem_cons_of_mem _ there, Or.inl rfl⟩
  | _ => exact Or.inl ⟨change, there, Or.inl rfl⟩

/-- What is put into a box passes by, answers a request for its acceptance, settles a call, hands
over a reply, or is the last that there is to say. -/
theorem Part.post_origin (part : Part input w w') {box : Box} {p : Post}
    (there : (box, p) ∈ w'.session.posts) :
    (box, p) ∈ w.session.posts ∨ box ∉ w.session.gone ∧
      ((p.isLast = false ∧ p.route? = none) ∨
        (∃ m keys target, input = .command (.request m keys target (some box)) ∧
          p = .accepted (.ok w.session.router.lastHandle)) ∨
        (∃ x ∈ w.session.router.routes, x.handler = .call box ∧
          ∃ m, x.takes (RouteKey.ofMessage m) = true ∧ p = .outcome (.ok m)) ∨
        (∃ m change, .handOver (some box) m change ∈ w.errands ∧
          ∃ route, p = .reply (.ok (m, route)) ∧ (route = none → change = none) ∧
            ∀ h, route = some h → h = w.session.router.lastHandle + 1 ∧
              w'.session.router.lastHandle = w.session.router.lastHandle + 1) ∨
        ∃ f, f.kind = .network ∧ (box, p) ∈ w.session.lastPosts f) := by
  cases part with
  | quiet alike =>
    rw [alike.posts] at there
    exact Or.inl there
  | posted box' more plain =>
    rcases mem_posts_post.mp there with there | ⟨same, here⟩
    · exact Or.inl there
    · obtain ⟨rfl, rfl⟩ : box = _ ∧ p = _ := by simpa using same
      exact Or.inr ⟨here, Or.inl ⟨more, plain⟩⟩
  | @accepted s es m keys target box' asked =>
    rcases mem_posts_post.mp there with there | ⟨same, here⟩
    · exact Or.inl there
    · obtain ⟨rfl, rfl⟩ : box = _ ∧ p = _ := by simpa using same
      exact Or.inr ⟨here, Or.inr (Or.inl ⟨m, keys, target, asked, rfl⟩)⟩
  | @settled s es x box' m found waits takes last =>
    rcases mem_posts_post.mp there with there | ⟨same, here⟩
    · exact Or.inl there
    · obtain ⟨rfl, rfl⟩ : box = _ ∧ p = _ := by simpa using same
      exact Or.inr ⟨here, Or.inr (Or.inr (Or.inl ⟨x, found, waits, m, takes, rfl⟩))⟩
  | @enrolled s es box' m feed key confirms heard =>
    rcases mem_posts_answer.mp there with there | ⟨rfl, rfl, here⟩
    · exact Or.inl there
    · refine Or.inr ⟨here, Or.inr (Or.inr (Or.inr (Or.inl
        ⟨m, _, List.mem_cons_self, _, rfl, by simp, fun h same => ?_⟩)))⟩
      rw [answer_router]
      exact ⟨(Option.some.inj same).symm, rfl⟩
  | @handedOver s es box' m =>
    rcases mem_posts_answer.mp there with there | ⟨rfl, rfl, here⟩
    · exact Or.inl there
    · exact Or.inr ⟨here, Or.inr (Or.inr (Or.inr (Or.inl
        ⟨m, none, List.mem_cons_self, none, rfl, fun _ => rfl, fun h same => nomatch same⟩)))⟩
  | @watched s es request cell =>
    refine Or.inl ?_
    rcases watch_eq s request cell with watched | ⟨previous, -, watched⟩
    · rwa [watched] at there
    · rwa [watched] at there
  | @terminated s es f live kind =>
    rw [terminate_eq live] at there
    rcases List.mem_append.mp there with there | there
    · exact Or.inl there
    · obtain ⟨there, here⟩ := mem_arriving.mp there
      exact Or.inr ⟨here, Or.inr (Or.inr (Or.inr (Or.inr ⟨f, kind, there⟩)))⟩
  | _ => exact Or.inl (by simpa using there)

theorem Part.gone_origin (part : Part input w w') {box : Box} (there : box ∈ w'.session.gone) :
    box ∈ w.session.gone ∨ input = .forget box := by
  cases part with
  | quiet alike =>
    rw [alike.gone] at there
    exact Or.inl there
  | forgotten asked =>
    rcases List.mem_cons.mp there with rfl | there
    · exact Or.inr asked
    · exact Or.inl there
  | @watched s es request cell =>
    refine Or.inl ?_
    rcases watch_eq s request cell with watched | ⟨previous, -, watched⟩
    · rwa [watched] at there
    · rwa [watched] at there
  | terminated live kind =>
    rw [terminate_eq live] at there
    exact Or.inl there
  | _ => exact Or.inl (by simpa using there)

/-- With its end a session loses all of its routes. -/
theorem Part.phase_origin (part : Part input w w') (closed : w'.session.phase = .closed) :
    w.session.phase = .closed ∨ w'.session.router.routes = [] := by
  cases part with
  | quiet alike => exact Or.inl (alike.phase closed)
  | @watched s es request cell =>
    refine Or.inl ?_
    rcases watch_eq s request cell with watched | ⟨previous, -, watched⟩
    · rwa [watched] at closed
    · rwa [watched] at closed
  | terminated live kind =>
    rw [terminate_eq live]
    exact Or.inr rfl
  | _ => exact Or.inl (by simpa using closed)

end WampClient.Session
