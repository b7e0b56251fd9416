import WampClient.Proofs.Route.Refinement
import WampClient.Proofs.Session.Terminate
import Mathlib.Logic.Relation

/-! What a session does in a step, taken apart. Where the input is a request, its route is installed
first; what follows is a run of small parts, each of which changes one thing. What all of these
keep, every step keeps, and so does every run. -/
namespace WampClient

namespace Post

/-- Whether nothing that belongs to the same request follows it. -/
def isLast : Post → Bool
  | .reply _ => true
  | .outcome (.ok m) => !m.moreFollows
  | .outcome (.error _) => true
  | _ => false

/-- The route that is made known with it. -/
def route? : Post → Option Handle
  | .accepted (.ok route) => some route
  | .reply (.ok (_, route)) => route
  | _ => none

end Post

/-- The box that takes the reply, or the results. -/
def Target.waiter? : Target → Option Box
  | .reply box _ => box
  | .call box => some box
  | _ => none

theorem Target.handler_of_stays {gone : List Box} {m : Message} {h : Handle} {t : Target}
    {tray : Tray} (stays : (t.deliver gone m h tray).stays = true) :
    (t.deliver gone m h tray).handler = t := by
  cases t with
  | reply box change => simp [deliver] at stays
  | call box =>
    simp only [deliver]
    split <;> rfl
  | feed f =>
    cases f <;> cases m <;> simp only [deliver] <;> split <;> rfl
  | interrupt cell => cases m <;> rfl

namespace Session

/-- A session in the middle of a step, with what it has put off. -/
structure Work where
  session : Session
  errands : List Errand

/-- The sessions differ in nothing that a waiter could notice. -/
structure Alike (s t : Session) : Prop where
  router : t.router = s.router
  interrupts : t.interrupts = s.interrupts
  gone : t.gone = s.gone
  posts : t.posts = s.posts
  phase : t.phase = .closed → s.phase = .closed

/-- The session with the route that a request asks for. -/
def prepared (s : Session) : Input → Session
  | .command (.request _ keys target _) =>
    if s.phase = .established then { s with router := (s.router.add keys target).1 } else s
  | _ => s

/-- The smallest things that a session does because of an input. -/
inductive Part (input : Input) : Work → Work → Prop where
  | quiet {s t : Session} {es : List Errand} (alike : s.Alike t) : Part input ⟨s, es⟩ ⟨t, es⟩
  /-- Something is put into a box that neither ends a request nor makes a route known. -/
  | posted {s : Session} {es : List Errand} (box : Box) {p : Post} (more : p.isLast = false)
      (plain : p.route? = none) : Part input ⟨s, es⟩ ⟨s.post box p, es⟩
  | accepted {s : Session} {es : List Errand} {m : Message} {keys : List RouteKey}
      {target : Target} {box : Box} (asked : input = .command (.request m keys target (some box))) :
      Part input ⟨s, es⟩ ⟨s.post box (.accepted (.ok s.router.lastHandle)), es⟩
  | removed {s : Session} {es : List Errand} {route : Handle}
      (asked : input = .command (.removeRoute route)) : Part input ⟨s, es⟩ ⟨s.eraseRoute route, es⟩
  | forgotten {s : Session} {es : List Errand} {box : Box} (asked : input = .forget box) :
      Part input ⟨s, es⟩ ⟨{ s with gone := box :: s.gone }, es⟩
  /-- A reply comes for a request, and is to be handed over. -/
  | replied {s : Session} {es : List Errand} {x : Route Target} {box : Option Box}
      {change : Option RouteChange} (m : Message) (there : x ∈ s.router.routes)
      (waits : x.handler = .reply box change) (takes : x.takes (RouteKey.ofMessage m) = true) :
      Part input ⟨s, es⟩ ⟨s.eraseRoute x.handle, es ++ [.handOver box m change]⟩
  /-- The last result comes for a call. -/
  | settled {s : Session} {es : List Errand} {x : Route Target} {box : Box} (m : Message)
      (there : x ∈ s.router.routes) (waits : x.handler = .call box)
      (takes : x.takes (RouteKey.ofMessage m) = true) (last : m.moreFollows = false) :
      Part input ⟨s, es⟩ ⟨(s.eraseRoute x.handle).post box (.outcome (.ok m)), es⟩
  /-- A result comes for a call that nobody waits for any more. -/
  | dropped {s : Session} {es : List Errand} {x : Route Target} {box : Box}
      (there : x ∈ s.router.routes) (waits : x.handler = .call box) (gone : box ∈ s.gone) :
      Part input ⟨s, es⟩ ⟨s.eraseRoute x.handle, es⟩
  | deferred {s : Session} {es : List Errand} (e : Errand)
      (other : ∀ box m change, e ≠ .handOver box m change) : Part input ⟨s, es⟩ ⟨s, es ++ [e]⟩
  /-- The reply confirms a registration or subscription, whose route is installed. -/
  | enrolled {s : Session} {es : List Errand} (box : Option Box) {m : Message} (feed : Feed)
      {key : RouteKey} (confirms : m.enrolledKey? = some key)
      (heard : ∀ b, box = some b → b ∉ s.gone) :
      Part input ⟨s, .handOver box m (some (.install feed)) :: es⟩
        ⟨{ s with router := (s.router.add [key] (.feed feed)).1 }.answer box
          (.reply (.ok (m, some (s.router.lastHandle + 1)))), es⟩
  /-- Nobody takes the reply, nor the route that was installed because of it. -/
  | disowned {s : Session} {es : List Errand} {box : Box} {m : Message} (feed : Feed)
      {key : RouteKey} (confirms : m.enrolledKey? = some key) (gone : box ∈ s.gone) :
      Part input ⟨s, .handOver (some box) m (some (.install feed)) :: es⟩
        ⟨{ s with router := (s.router.add [key] (.feed feed)).1 }.eraseRoute
          (s.router.lastHandle + 1), es⟩
  /-- The reply confirms that a registration or subscription is gone, and its route goes too. -/
  | withdrawn {s : Session} {es : List Errand} (box : Option Box) {m : Message} (route : Handle)
      (confirms : m.confirmsGone = true) :
      Part input ⟨s, .handOver box m (some (.remove route)) :: es⟩
        ⟨s.eraseRoute route, .handOver box m none :: es⟩
  | unchanged {s : Session} {es : List Errand} (box : Option Box) {m : Message}
      {change : RouteChange} (idle : s.changeRoutes m (some change) = (s, none)) :
      Part input ⟨s, .handOver box m (some change) :: es⟩ ⟨s, .handOver box m none :: es⟩
  | handedOver {s : Session} {es : List Errand} (box : Option Box) (m : Message) :
      Part input ⟨s, .handOver box m none :: es⟩ ⟨s.answer box (.reply (.ok (m, none))), es⟩
  | watched {s : Session} {es : List Errand} (request : Id) (cell : Cell) :
      Part input ⟨s, .watch request cell :: es⟩ ⟨s.watch request cell, es⟩
  | skipped {s : Session} {es : List Errand} (request : Id) :
      Part input ⟨s, .turnAway request :: es⟩ ⟨s, es⟩
  /-- An invocation can no longer be interrupted. -/
  | retired {s : Session} {es : List Errand} {request : Id} {route : Handle}
      (known : Assoc.get? request s.interrupts = some route) :
      Part input ⟨s, es⟩
        ⟨{ s with interrupts := Assoc.erase request s.interrupts }.eraseRoute route, es⟩
  | terminated {s : Session} {es : List Errand} {f : Failure} (live : s.phase ≠ .closed)
      (kind : f.kind = .network) : Part input ⟨s, es⟩ ⟨s.terminate f, es⟩

abbrev Parts (input : Input) : Work → Work → Prop := Relation.ReflTransGen (Part input)

variable {input : Input} {s : Session} {es : List Errand}

/-! ### Handing a message around -/

/-- The session while a message is handed around, with what that has brought about so far. -/
def carrying (s : Session) (router : Router Target) (tray : Tray) : Session :=
  { s with router, nextCell := tray.nextCell, posts := s.posts ++ tray.posts,
           signals := s.signals ++ tray.signals }

theorem carrying_post (router : Router Target) (tray : Tray) {box : Box} (there : box ∉ s.gone)
    (p : Post) : s.carrying router (tray.post box p) = (s.carrying router tray).post box p := by
  simp [carrying, Tray.post, post, there]

theorem Alike.carrying (router : Router Target) {tray tray' : Tray}
    (same : tray'.posts = tray.posts) :
    (s.carrying router tray).Alike (s.carrying router tray') where
  router := rfl
  interrupts := rfl
  gone := rfl
  posts := by simp [Session.carrying, same]
  phase := id

/-- What a visit comes to: a target that stays is as it was. -/
theorem visit_deliver {router : Router Target} (tidy : router.Tidy) {x : Route Target}
    (there : x ∈ router.routes) (gone : List Box) (m : Message) (matched : Bool) (tray : Tray) :
    let v := x.handler.deliver gone m x.handle tray
    Router.visit (Target.deliver gone m) (router, matched, tray) x.handle =
      (if v.stays then router else router.erase x.handle, true, v.state) := by
  have found : router.route? x.handle = some x := tidy.route?_eq_some_iff.mpr ⟨there, rfl⟩
  rw [Router.visit_of_route? found]
  dsimp only
  split
  next stays => rw [Target.handler_of_stays stays, tidy.replace_self found]
  next => rw [Router.erase_replace found]

theorem parts_visit {router : Router Target} (tidy : router.Tidy) {x : Route Target} {m : Message}
    (there : x ∈ router.routes) (takes : x.takes (RouteKey.ofMessage m) = true) (matched : Bool)
    (tray : Tray) :
    let out := Router.visit (Target.deliver s.gone m) (router, matched, tray) x.handle
    Parts input ⟨s.carrying router tray, tray.errands⟩
      ⟨s.carrying out.1 out.2.2, out.2.2.errands⟩ := by
  rw [visit_deliver tidy there]
  cases waits : x.handler with
  | reply box change => exact .single (.replied m there waits takes)
  | call box =>
    by_cases gone : box ∈ s.gone
    · simp only [Target.deliver, List.contains_iff_mem, gone, ↓reduceIte]
      exact .single (.dropped there waits gone)
    · simp only [Target.deliver, List.contains_iff_mem, gone, ↓reduceIte]
      cases last : m.moreFollows with
      | false =>
        rw [carrying_post _ _ gone]
        exact .single (.settled m there waits takes last)
      | true =>
        rw [carrying_post _ _ gone]
        exact .single (.posted box (by simp [Post.isLast, last]) rfl)
  | feed f =>
    cases f with
    | invocations box =>
      cases m with
      | invocation request registration details payload =>
        by_cases gone : box ∈ s.gone
        · simp only [Target.deliver, List.contains_iff_mem, gone, ↓reduceIte]
          exact .single (.deferred (.turnAway request) (by simp))
        · simp only [Target.deliver, List.contains_iff_mem, gone, ↓reduceIte]
          let posted := tray.post box (.invocation ⟨request, registration, details, payload⟩
            tray.nextCell)
          have put : Part input ⟨s.carrying router tray, tray.errands⟩
              ⟨s.carrying router posted, tray.errands⟩ := by
            rw [carrying_post _ _ gone]
            exact .posted box rfl rfl
          have counted : (s.carrying router posted).Alike
              (s.carrying router { posted with nextCell := tray.nextCell + 1 }) :=
            Alike.carrying router rfl
          exact ((Relation.ReflTransGen.single put).tail (.quiet counted)).tail
            (.deferred (.watch request tray.nextCell) (by simp))
      | _ => exact .refl
    | events box =>
      cases m with
      | event subscription publication details payload =>
        by_cases gone : box ∈ s.gone
        · simp only [Target.deliver, List.contains_iff_mem, gone, ↓reduceIte]
          exact .refl
        · simp only [Target.deliver, List.contains_iff_mem, gone, ↓reduceIte]
          rw [carrying_post _ _ gone]
          exact .single (.posted box rfl rfl)
      | _ => exact .refl
  | interrupt cell =>
    cases m with
    | interrupt request options => exact .single (.quiet (Alike.carrying router rfl))
    | _ => exact .refl

theorem routes_visit_deliver {router : Router Target} (tidy : router.Tidy) {x : Route Target}
    (there : x ∈ router.routes) (gone : List Box) (m : Message) (matched : Bool) (tray : Tray) :
    ∀ y ∈ (Router.visit (Target.deliver gone m) (router, matched, tray) x.handle).1.routes,
      y ∈ router.routes := by
  intro y hy
  rw [visit_deliver tidy there] at hy
  dsimp only at hy
  split at hy
  · exact hy
  · exact (Router.mem_routes_erase.mp hy).1

theorem parts_visits {router : Router Target} (tidy : router.Tidy) {m : Message}
    {handles : List Handle}
    (takes : ∀ x ∈ router.routes, x.handle ∈ handles → x.takes (RouteKey.ofMessage m) = true)
    (matched : Bool) (tray : Tray) :
    let out := handles.foldl (Router.visit (Target.deliver s.gone m)) (router, matched, tray)
    Parts input ⟨s.carrying router tray, tray.errands⟩
      ⟨s.carrying out.1 out.2.2, out.2.2.errands⟩ := by
  induction handles generalizing router matched tray with
  | nil => exact .refl
  | cons h rest ih =>
    cases found : router.route? h with
    | none =>
      have unmoved : Router.visit (Target.deliver s.gone m) (router, matched, tray) h =
          (router, matched, tray) := by simp [Router.visit, found]
      rw [List.foldl_cons, unmoved]
      exact ih tidy (fun x hx later => takes x hx (List.mem_cons_of_mem _ later)) _ _
    | some x =>
      obtain ⟨there, rfl⟩ := Router.mem_of_route? found
      rw [List.foldl_cons]
      refine (parts_visit tidy there (takes x there List.mem_cons_self) matched tray).trans
        (ih (tidy.visit _ _ _ _) (fun y hy later => ?_) _ _)
      exact takes y (routes_visit_deliver tidy there _ _ _ _ y hy) (List.mem_cons_of_mem _ later)

/-! ### Sending -/

theorem alike_transmit (s : Session) (i : StreamItem) : s.Alike (s.transmit i).1 :=
  ⟨rfl, rfl, rfl, rfl, id⟩

/-- The session once an answer to an invocation has made an end of its interrupts. -/
def retiring (s : Session) (m : Message) : Session := m.settles?.elim s s.retire

theorem retiring_cases (s : Session) (m : Message) :
    s.retiring m = s ∨ ∃ request route, Assoc.get? request s.interrupts = some route ∧
      s.retiring m =
        { s with interrupts := Assoc.erase request s.interrupts }.eraseRoute route := by
  unfold retiring
  cases m.settles? with
  | none => exact Or.inl rfl
  | some request =>
    rw [Option.elim_some, retire]
    split
    next => exact Or.inl rfl
    next route known => exact Or.inr ⟨request, route, known, rfl⟩

theorem phase_retiring (s : Session) (m : Message) : (s.retiring m).phase = s.phase := by
  rcases retiring_cases s m with same | ⟨request, route, -, retired⟩
  · rw [same]
  · rw [retired]
    rfl

theorem lastHandle_retiring (s : Session) (m : Message) :
    (s.retiring m).router.lastHandle = s.router.lastHandle := by
  rcases retiring_cases s m with same | ⟨request, route, -, retired⟩
  · rw [same]
  · rw [retired]
    exact Router.lastHandle_erase _ _

theorem parts_retiring (m : Message) : Parts input ⟨s, es⟩ ⟨s.retiring m, es⟩ := by
  rcases retiring_cases s m with same | ⟨request, route, known, retired⟩
  · rw [same]
  · rw [retired]
    exact .single (.retired known)

/-- What a message that does not get out ends the session with. -/
def sendFailure (m : Message) (description : String) : Failure :=
  Failure.of (.sendFailed m.name description)

theorem sendOrTerminate_eq (s : Session) (m : Message) :
    s.sendOrTerminate m =
      match (s.retiring m).transmit (.message m) with
      | (t, none) => (t, .ok ())
      | (t, some description) =>
        (t.terminate (sendFailure m description), .error (sendFailure m description)) := rfl

theorem sendOrTerminate_left (s : Session) (m : Message) :
    (s.sendOrTerminate m).1 = ((s.retiring m).transmit (.message m)).1 ∨
      ∃ description, (s.sendOrTerminate m).1 =
        ((s.retiring m).transmit (.message m)).1.terminate (sendFailure m description) := by
  rw [sendOrTerminate_eq]
  rcases (s.retiring m).transmit (.message m) with ⟨t, trouble⟩
  cases trouble with
  | none => exact Or.inl rfl
  | some description => exact Or.inr ⟨description, rfl⟩

theorem parts_terminate {f : Failure} (kind : f.kind = .network) :
    Parts input ⟨s, es⟩ ⟨s.terminate f, es⟩ := by
  by_cases live : s.phase = .closed
  · rw [terminate_closed live]
  · exact .single (.terminated live kind)

theorem parts_sendOrTerminate (m : Message) :
    Parts input ⟨s, es⟩ ⟨(s.sendOrTerminate m).1, es⟩ := by
  have sent : Parts input ⟨s, es⟩ ⟨((s.retiring m).transmit (.message m)).1, es⟩ :=
    (parts_retiring m).tail (.quiet (alike_transmit _ _))
  rcases sendOrTerminate_left s m with left | ⟨description, left⟩
  · rwa [left]
  · rw [left]
    exact sent.trans (parts_terminate rfl)

theorem handOver_none (s : Session) (box : Option Box) (m : Message) :
    s.handOver box m none = s.answer box (.reply (.ok (m, none))) := by
  cases box with
  | none => rfl
  | some box =>
    by_cases gone : box ∈ s.gone <;> simp [handOver, changeRoutes, answer, post, gone]

theorem handOver_of_idle {box : Option Box} {m : Message} {change : RouteChange}
    (idle : s.changeRoutes m (some change) = (s, none)) :
    s.handOver box m (some change) = s.handOver box m none := by
  rw [handOver, handOver, idle]
  rfl

theorem parts_handOver (box : Option Box) (m : Message) (change : Option RouteChange) :
    Parts input ⟨s, .handOver box m change :: es⟩ ⟨s.handOver box m change, es⟩ := by
  have handed : ∀ t : Session,
      Parts input ⟨t, .handOver box m none :: es⟩ ⟨t.handOver box m none, es⟩ := by
    intro t
    rw [handOver_none]
    exact .single (.handedOver box m)
  have idle : ∀ c : RouteChange, s.changeRoutes m (some c) = (s, none) →
      Parts input ⟨s, .handOver box m (some c) :: es⟩ ⟨s.handOver box m (some c), es⟩ := by
    intro c none
    rw [handOver_of_idle none]
    exact .head (.unchanged box none) (handed s)
  rcases change with _ | feed | route
  · exact handed s
  · cases confirms : m.enrolledKey? with
    | none => exact idle _ (by simp [changeRoutes, confirms])
    | some key =>
      have added : s.changeRoutes m (some (.install feed)) =
          ({ s with router := (s.router.add [key] (.feed feed)).1 },
            some (s.router.lastHandle + 1)) := by
        simp [changeRoutes, confirms, Router.add]
      cases box with
      | none =>
        rw [handOver, added]
        exact .single (.enrolled none feed confirms (by simp))
      | some box =>
        rw [handOver, added]
        dsimp only
        by_cases gone : box ∈ s.gone
        · rw [if_pos (by simpa using gone)]
          exact .single (.disowned feed confirms gone)
        · rw [if_neg (by simpa using gone)]
          exact .single (.enrolled (some box) feed confirms (by simpa using gone))
  · cases confirms : m.confirmsGone with
    | false => exact idle _ (by simp [changeRoutes, confirms])
    | true =>
      have removed : s.handOver box m (some (.remove route)) =
          (s.eraseRoute route).handOver box m none := by
        rw [handOver, handOver]
        simp [changeRoutes, confirms]
      rw [removed]
      exact .head (.withdrawn box route confirms) (handed _)

theorem parts_errands : Parts input ⟨s, es⟩ ⟨es.foldl runErrand s, []⟩ := by
  induction es generalizing s with
  | nil => exact .refl
  | cons e rest ih =>
    refine Relation.ReflTransGen.trans ?_ ih
    cases e with
    | handOver box reply change => exact parts_handOver box reply change
    | watch request cell => exact .single (.watched request cell)
    | turnAway request =>
      exact (Relation.ReflTransGen.single (.skipped request)).trans (parts_sendOrTerminate _)

/-! ### Inputs -/

theorem parts_report (description : String) (m : Message) :
    Parts input ⟨s, es⟩ ⟨s.report description m, es⟩ := .single (.quiet ⟨rfl, rfl, rfl, rfl, id⟩)

theorem parts_noteUnmatched (m : Message) : Parts input ⟨s, es⟩ ⟨s.noteUnmatched m, es⟩ := by
  cases m with
  | invocation request registration details payload =>
    exact (parts_sendOrTerminate (Message.rejection request)).trans (parts_report unmatched _)
  | _ => exact parts_report unmatched _

/-- A message is handed around, and everything else is put off. -/
theorem parts_dispatch (tidy : s.router.Tidy) (m : Message) :
    let out := s.router.dispatch (RouteKey.ofMessage m) (Target.deliver s.gone m)
      ⟨[], [], s.nextCell, []⟩
    Parts input ⟨s, []⟩ ⟨s.carrying out.1 out.2.2, out.2.2.errands⟩ := by
  have start : s.carrying s.router ⟨[], [], s.nextCell, []⟩ = s := by simp [carrying]
  have takes : ∀ x ∈ s.router.routes, x.handle ∈ s.router.matching (RouteKey.ofMessage m) →
      x.takes (RouteKey.ofMessage m) = true := by
    intro x hx listed
    obtain ⟨y, hy, same, takes⟩ := tidy.mem_matching_iff.mp listed
    rwa [Router.eq_of_handle_eq tidy.ordered hx hy same.symm]
  have visits : Parts input ⟨s.carrying s.router ⟨[], [], s.nextCell, []⟩, []⟩ _ :=
    parts_visits tidy takes false ⟨[], [], s.nextCell, []⟩
  rwa [start] at visits

theorem parts_distribute (tidy : s.router.Tidy) (m : Message) :
    Parts input ⟨s, []⟩ ⟨s.distribute m, []⟩ := by
  let out := s.router.dispatch (RouteKey.ofMessage m) (Target.deliver s.gone m)
    ⟨[], [], s.nextCell, []⟩
  let handed := out.2.2.errands.foldl runErrand (s.carrying out.1 out.2.2)
  have distributed : s.distribute m = if out.2.1 then handed else handed.noteUnmatched m := rfl
  have done : Parts input ⟨s, []⟩ ⟨handed, []⟩ := (parts_dispatch tidy m).trans parts_errands
  rw [distributed]
  split
  · exact done
  · exact done.trans (parts_noteUnmatched m)

theorem alike_enter_closing (s : Session) : s.Alike (s.enter .closing) := by
  by_cases may : s.phase.mayEnter .closing = true
  · rw [enter_of_may may]
    exact ⟨rfl, rfl, rfl, rfl, by simp⟩
  · rw [enter_of_not may]
    exact ⟨rfl, rfl, rfl, rfl, id⟩

theorem parts_partFrom (reason : Uri) (m : Message) :
    Parts input ⟨s, []⟩ ⟨s.partFrom reason m, []⟩ :=
  ((Relation.ReflTransGen.single (.quiet (alike_enter_closing s))).tail
    (.quiet (alike_transmit _ _))).trans (parts_terminate rfl)

theorem parts_receive (tidy : s.router.Tidy) (m : Message) :
    Parts input ⟨s, []⟩ ⟨s.receive m, []⟩ := by
  rcases receive_cases s m with
    ⟨-, ⟨details, reason, -, -, same⟩ | ⟨f, expected, same⟩ | same⟩ | same <;> rw [same]
  · exact parts_partFrom reason m
  · exact parts_terminate expected.network
  · exact parts_report late m
  · exact parts_distribute tidy m

theorem parts_arrive (tidy : s.router.Tidy) (a : Arrival) :
    Parts input ⟨s, []⟩ ⟨s.arrive a, []⟩ := by
  cases a with
  | item i =>
    cases i with
    | message m => exact parts_receive tidy m
    | ping data => exact .single (.quiet (alike_transmit s _))
  | failed description =>
    exact (Relation.ReflTransGen.single (.quiet (alike_transmit s _))).trans (parts_terminate rfl)
  | ended => exact parts_terminate rfl

theorem parts_answer {p : Post} (more : p.isLast = false) (plain : p.route? = none)
    (box : Option Box) : Parts input ⟨s, es⟩ ⟨s.answer box p, es⟩ := by
  cases box with
  | none => exact .refl
  | some box => exact .single (.posted box more plain)

theorem parts_startLeaving (box : Option Box) : Parts input ⟨s, []⟩ ⟨s.startLeaving box, []⟩ := by
  rcases startLeaving_cases s box with ⟨-, same⟩ | ⟨-, same⟩ | same <;> rw [same]
  · have left : s.Alike (s.settingOut box) := ⟨rfl, rfl, rfl, rfl, by simp [settingOut]⟩
    exact (Relation.ReflTransGen.single (.quiet left)).trans (parts_sendOrTerminate _)
  · exact .single (.quiet ⟨rfl, rfl, rfl, rfl, id⟩)
  · exact parts_answer rfl rfl box

/-- Nothing is left to take out once the session has ended. -/
theorem eraseRoute_terminate (live : s.phase ≠ .closed) (f : Failure) (route : Handle) :
    (s.terminate f).eraseRoute route = s.terminate f := by
  rw [terminate_eq live]
  rfl

theorem prepared_request (live : s.phase = .established) (m : Message) (keys : List RouteKey)
    (target : Target) (box : Option Box) :
    s.prepared (.command (.request m keys target box)) =
      { s with router := (s.router.add keys target).1 } := if_pos live

theorem prepared_cases (s : Session) (input : Input) :
    s.prepared input = s ∨ ∃ m keys target box, input = .command (.request m keys target box) ∧
      s.phase = .established ∧
        s.prepared input = { s with router := (s.router.add keys target).1 } := by
  cases input with
  | command c =>
    cases c with
    | request m keys target box =>
      by_cases live : s.phase = .established
      · exact Or.inr ⟨m, keys, target, box, rfl, live, prepared_request live m keys target box⟩
      · exact Or.inl (if_neg live)
    | _ => exact Or.inl rfl
  | _ => exact Or.inl rfl

theorem obey_request (live : s.phase = .established) (m : Message) (keys : List RouteKey)
    (target : Target) (box : Option Box) :
    s.obey (.request m keys target box) =
      match ({ s with router := (s.router.add keys target).1 } : Session).sendOrTerminate m with
      | (t, .ok ()) => t.answer box (.accepted (.ok (s.router.lastHandle + 1)))
      | (t, .error f) =>
        (t.eraseRoute (s.router.lastHandle + 1)).answer box (.accepted (.error f)) := if_pos live

theorem obey_request_late (late : s.phase ≠ .established) (m : Message) (keys : List RouteKey)
    (target : Target) (box : Option Box) :
    s.obey (.request m keys target box) =
      s.answer box (.accepted (.error Failure.sessionClosed)) := if_neg late

/-- What is kept as a message is sent behind a new route, as that route is erased, and as the sender
is answered, is kept with a request. -/
theorem request_keeps {P : Session → Prop} (start : P s) (m : Message) (keys : List RouteKey)
    (target : Target) (box : Option Box)
    (sends : s.phase = .established →
      P (({ s with router := (s.router.add keys target).1 } : Session).sendOrTerminate m).1)
    (erases : ∀ t, P t → P (t.eraseRoute (s.router.lastHandle + 1)))
    (answers : ∀ t result, P t → P (t.answer box (.accepted result))) :
    P (s.obey (.request m keys target box)) := by
  by_cases opened : s.phase = .established
  · have sent := sends opened
    rw [obey_request opened]
    rcases went : ({ s with router := (s.router.add keys target).1 } : Session).sendOrTerminate m
      with ⟨t, result⟩
    rw [went] at sent
    cases result with
    | ok _ => exact answers t _ sent
    | error f => exact answers _ _ (erases t sent)
  · rw [obey_request_late opened]
    exact answers s _ start

theorem parts_request (m : Message) (keys : List RouteKey) (target : Target) (box : Option Box) :
    let input : Input := .command (.request m keys target box)
    Parts input ⟨s.prepared input, []⟩ ⟨s.obey (.request m keys target box), []⟩ := by
  intro input
  by_cases live : s.phase = .established
  · let t : Session := { s with router := (s.router.add keys target).1 }
    rcases h : (t.retiring m).transmit (.message m) with ⟨u, trouble⟩
    have same : u = ((t.retiring m).transmit (.message m)).1 := by rw [h]
    have phase : u.phase = .established := by
      rw [same]
      exact (phase_retiring t m).trans live
    have route : u.router.lastHandle = s.router.lastHandle + 1 := by
      rw [same]
      exact lastHandle_retiring t m
    have sent : Parts input ⟨t, []⟩ ⟨u, []⟩ := by
      rw [same]
      exact (parts_retiring m).tail (.quiet (alike_transmit _ _))
    rw [prepared_request live, obey_request live, sendOrTerminate_eq, h]
    refine Relation.ReflTransGen.trans sent ?_
    cases trouble with
    | none =>
      cases box with
      | none => exact .refl
      | some box =>
        dsimp only
        rw [← route]
        exact .single (.accepted rfl)
    | some description =>
      have ended : Parts input ⟨u, []⟩ ⟨u.terminate (sendFailure m description), []⟩ :=
        parts_terminate rfl
      dsimp only
      rw [eraseRoute_terminate (by simp [phase])]
      exact ended.trans (parts_answer rfl rfl box)
  · have unprepared : s.prepared input = s := if_neg live
    rw [unprepared, obey, if_neg live]
    exact parts_answer rfl rfl box

theorem parts_obey (c : Command) :
    Parts (.command c) ⟨s.prepared (.command c), []⟩ ⟨s.obey c, []⟩ := by
  cases c with
  | send m box =>
    rw [obey]
    split
    · exact (parts_sendOrTerminate m).trans (parts_answer rfl rfl box)
    · exact parts_answer rfl rfl box
  | request m keys target box => exact parts_request m keys target box
  | removeRoute route => exact .single (.removed rfl)
  | close box => exact parts_startLeaving box

theorem parts_elapse (time : Nat) : Parts input ⟨s, []⟩ ⟨s.elapse time, []⟩ := by
  have later : Parts input ⟨s, []⟩ ⟨{ s with now := s.now + time }, []⟩ :=
    .single (.quiet ⟨rfl, rfl, rfl, rfl, id⟩)
  rcases elapse_cases s time with same | same <;> rw [same]
  · exact later
  · exact later.trans (parts_terminate rfl)

theorem prepared_closed (closed : s.phase = .closed) (input : Input) : s.prepared input = s := by
  rcases prepared_cases s input with same | ⟨m, keys, target, box, -, live, -⟩
  · exact same
  · simp [closed] at live

/-- Every step is made of parts. -/
theorem parts_step (tidy : s.router.Tidy) (input : Input) :
    Parts input ⟨s.prepared input, []⟩ ⟨s.step input, []⟩ := by
  cases input with
  | forget box => exact .single (.forgotten rfl)
  | arrival a =>
    rw [step]
    split
    · exact .refl
    · exact parts_arrive tidy a
  | command c =>
    rw [step]
    split
    next closed =>
      rw [prepared_closed closed]
    next => exact parts_obey c
  | elapse time =>
    rw [step]
    split
    · exact .refl
    · exact parts_elapse time
  | orphaned =>
    rw [step]
    split
    · exact .refl
    · exact parts_startLeaving none

end Session

end WampClient
