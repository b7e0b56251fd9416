import WampClient.Proofs.Session.Aftermath
import WampClient.Proofs.Session.Watches

/-! How a route comes to be taken out while its session goes on. The route of a reply or of a call
goes with a message of its own. Apart from that a route goes because somebody has asked for that
very route to be taken out, or because of a reply that takes it along; and if so, it goes at once
and for good. -/
namespace WampClient.Session

variable {x y : Route Target} {s t u : Session} {m : Message} {input : Input} {h : Handle}

/-- The route, if it was there, is there still, unless the session has ended. -/
structure Retains (x : Route Target) (s t : Session) : Prop where
  live : t.phase ≠ .closed → s.phase ≠ .closed
  route : t.phase ≠ .closed → x ∈ s.router.routes → x ∈ t.router.routes

theorem Retains.trans (one : Retains x s t) (two : Retains x t u) : Retains x s u where
  live going := one.live (two.live going)
  route going there := two.route going (one.route (two.live going) there)

theorem retains_quiet (router : t.router = s.router) (phase : t.phase = s.phase) :
    Retains x s t where
  live going := phase ▸ going
  route _ there := router ▸ there

theorem Retains.refl (x : Route Target) (s : Session) : Retains x s s := retains_quiet rfl rfl

theorem retains_answer (s : Session) (box : Option Box) (p : Post) :
    Retains x s (s.answer box p) :=
  retains_quiet (answer_router s box p) (answer_phase s box p)

theorem retains_eraseRoute (other : x ∈ s.router.routes → x.handle ≠ h) :
    Retains x s (s.eraseRoute h) where
  live := id
  route _ there := mem_routes_eraseRoute.mpr ⟨there, other there⟩

theorem retains_add (s : Session) (keys : List RouteKey) (target : Target) :
    Retains x s { s with router := (s.router.add keys target).1 } where
  live := id
  route _ there := mem_routes_add.mpr (Or.inl there)

/-- Nothing is said of a route once the session has ended. -/
theorem retains_terminate (s : Session) (f : Failure) : Retains x s (s.terminate f) where
  live going := absurd (phase_terminate s f) going
  route going := absurd (phase_terminate s f) going

/-! ### Sending -/

section
variable (sound : s.Sound) (lasts : ∀ cell, x.handler ≠ .interrupt cell)
include sound lasts

theorem retains_retiring (m : Message) : Retains x s (s.retiring m) where
  live going := phase_retiring s m ▸ going
  route _ there := by
    rcases retiring_cases s m with same | ⟨request, route, known, same⟩
    · rwa [same]
    · rw [same]
      refine mem_routes_eraseRoute.mpr ⟨there, fun own => ?_⟩
      obtain ⟨cell, interrupts⟩ := sound.interrupts _ (Assoc.mem_of_get? known) x there own
      exact lasts cell interrupts

theorem retains_sendOrTerminate (m : Message) : Retains x s (s.sendOrTerminate m).1 := by
  have sent : Retains x s ((s.retiring m).transmit (.message m)).1 :=
    (retains_retiring sound lasts m).trans (retains_quiet rfl rfl)
  rcases sendOrTerminate_left s m with left | ⟨description, left⟩
  · rwa [left]
  · rw [left]
    exact sent.trans (retains_terminate _ _)

theorem retains_noteUnmatched (m : Message) : Retains x s (s.noteUnmatched m) := by
  cases m with
  | invocation request registration details payload =>
    exact (retains_sendOrTerminate sound lasts _).trans (retains_quiet rfl rfl)
  | _ => exact retains_quiet rfl rfl

/-! ### What is put off -/

theorem retains_watch (request : Id) (cell : Cell) : Retains x s (s.watch request cell) where
  live going := phase_congr (outward_watch s request cell) ▸ going
  route _ there := by
    refine (mem_routes_watch sound request cell).mpr (Or.inl ⟨there, fun known => ?_⟩)
    obtain ⟨cell', interrupts⟩ := sound.interrupts _ (Assoc.mem_of_get? known) x there rfl
    exact lasts cell' interrupts

omit sound lasts in
theorem retains_changeRoutes (m : Message) (box : Option Box) {change : Option RouteChange}
    (spares : (Errand.handOver box m change).removes x.handle = false) :
    Retains x s (s.changeRoutes m change).1 := by
  rcases change with _ | feed | route
  · exact .refl x s
  · rw [changeRoutes]
    split
    · exact .refl x s
    · exact retains_add s _ _
  · rw [changeRoutes]
    split
    next confirms =>
      refine retains_eraseRoute fun _ same => ?_
      simp [Errand.removes, Target.removes, confirms, same] at spares
    next => exact .refl x s

omit lasts in
/-- The route that a reply has installed is a new one. -/
theorem lt_of_changeRoutes {change : Option RouteChange}
    (there : x ∈ s.router.routes) (new : (s.changeRoutes m change).2 = some h) : x.handle < h := by
  have bound := sound.tidy.bounded x there
  rcases change with _ | feed | route
  · cases new
  · rw [changeRoutes] at new
    split at new
    · cases new
    · rw [← Option.some.inj new]
      exact Nat.lt_succ_of_le bound
  · cases new

omit lasts in
theorem retains_handOver (box : Option Box) (m : Message) {change : Option RouteChange}
    (spares : (Errand.handOver box m change).removes x.handle = false) :
    Retains x s (s.handOver box m change) := by
  have changed : Retains x s (s.changeRoutes m change).1 := retains_changeRoutes m box spares
  rw [handOver]
  cases box with
  | none => exact changed
  | some box =>
    dsimp only
    split
    next gone =>
      cases new : (s.changeRoutes m change).2 with
      | none => exact changed
      | some route =>
        refine ⟨changed.live, fun going there => ?_⟩
        exact mem_routes_eraseRoute.mpr ⟨changed.route going there,
          Nat.ne_of_lt (lt_of_changeRoutes sound there new)⟩
    next => exact changed.trans (retains_quiet (post_router _ _ _) (post_phase _ _ _))

theorem retains_runErrand {e : Errand} (spares : e.removes x.handle = false) :
    Retains x s (s.runErrand e) := by
  cases e with
  | handOver box m change => exact retains_handOver sound box m spares
  | watch request cell => exact retains_watch sound lasts request cell
  | turnAway request => exact retains_sendOrTerminate sound lasts _

end

theorem Sound.errands (sound : s.Sound) (es : List Errand) : (es.foldl runErrand s).Sound := by
  have parts : Parts .orphaned ⟨s, es⟩ ⟨es.foldl runErrand s, []⟩ := parts_errands
  exact Sound.parts sound parts

theorem retains_errands (lasts : ∀ cell, x.handler ≠ .interrupt cell) {es : List Errand}
    (sound : s.Sound) (spares : ∀ e ∈ es, e.removes x.handle = false) :
    Retains x s (es.foldl runErrand s) := by
  induction es generalizing s with
  | nil => exact .refl x s
  | cons e rest ih =>
    obtain ⟨first, others⟩ := List.forall_mem_cons.mp spares
    exact (retains_runErrand sound lasts first).trans (ih (sound.errands [e]) others)

/-! ### Messages that come in -/

theorem Sound.handedAround (sound : s.Sound) (m : Message) : (s.handedAround m).Sound := by
  have parts : Parts .orphaned ⟨s, []⟩ ⟨s.handedAround m, _⟩ := parts_dispatch sound.tidy m
  exact Sound.parts sound parts

theorem stays_deliver_feed (gone : List Box) (m : Message) (h : Handle) (feed : Feed)
    (tray : Tray) : ((Target.feed feed).deliver gone m h tray).stays = true := by
  cases feed <;> cases m <;> simp only [Target.deliver] <;> split <;> rfl

/-- A route stays that is not visited, and so does one that is visited for what comes in. -/
theorem mem_routes_visits_of_lasting {router : Router Target} (tidy : router.Tidy)
    (gone : List Box) (m : Message) {handles : List Handle} (matched : Bool) (tray : Tray)
    (there : x ∈ router.routes)
    (own : x.handle ∈ handles → ∃ feed, x.handler = .feed feed) :
    x ∈ (handles.foldl (Router.visit (Target.deliver gone m))
      (router, matched, tray)).1.routes := by
  induction handles generalizing router matched tray with
  | nil => exact there
  | cons g rest ih =>
    rw [List.foldl_cons]
    refine ih (tidy.visit (Target.deliver gone m) matched tray g) _ _ ?_
      fun later => own (List.mem_cons_of_mem _ later)
    cases found : router.route? g with
    | none => simpa [Router.visit, found] using there
    | some y =>
      obtain ⟨among, rfl⟩ := Router.mem_of_route? found
      by_cases same : x.handle = y.handle
      · obtain rfl := Router.eq_of_handle_eq tidy.ordered there among same
        obtain ⟨feed, handler⟩ := own List.mem_cons_self
        rw [visit_deliver tidy there, handler, stays_deliver_feed]
        exact there
      · exact mem_routes_visit tidy among gone m matched tray there same

section
variable (sound : s.Sound) (lasts : ∀ cell, x.handler ≠ .interrupt cell)
  (own : x.takes (RouteKey.ofMessage m) = true → ∃ feed, x.handler = .feed feed)
include sound own

theorem retains_handedAround : Retains x s (s.handedAround m) where
  live := id
  route _ there := mem_routes_visits_of_lasting sound.tidy s.gone m _ _ there fun called =>
    own ((mem_matching sound there).mp called)

include lasts

theorem retains_distribute
    (spares : s.withdraws x.handle (.arrival (.item (.message m))) = false) :
    Retains x s (s.distribute m) := by
  rw [← any_removes_errands sound, List.any_eq_false] at spares
  have around := sound.handedAround m
  have done : Retains x s ((s.distributed m).2.2.errands.foldl runErrand (s.handedAround m)) :=
    (retains_handedAround sound own).trans (retains_errands lasts around fun e put =>
      Bool.eq_false_iff.mpr (spares e put))
  rw [distribute_eq]
  dsimp only
  split
  · exact done
  · exact done.trans (retains_noteUnmatched (around.errands _) lasts m)

end

/-! ### Steps -/

section
variable (sound : s.Sound) (lasts : ∀ cell, x.handler ≠ .interrupt cell)
include sound lasts

theorem retains_startLeaving (box : Option Box) : Retains x s (s.startLeaving box) := by
  rcases startLeaving_cases s box with ⟨opened, same⟩ | ⟨-, same⟩ | same <;> rw [same]
  · have left : Retains x s (s.settingOut box) :=
      ⟨fun _ => by simp [opened], fun _ there => there⟩
    have sound' : (s.settingOut box).Sound := sound.congr rfl rfl
    exact left.trans (retains_sendOrTerminate sound' lasts _)
  · exact retains_quiet rfl rfl
  · exact retains_answer s box _

theorem retains_request (m : Message) (keys : List RouteKey) (target : Target)
    (box : Option Box) : Retains x s (s.obey (.request m keys target box)) := by
  by_cases opened : s.phase = .established
  · rw [obey_request opened]
    have sent := (retains_add (x := x) s keys target).trans
      (retains_sendOrTerminate (sound.add keys target) lasts m)
    obtain ⟨-, went⟩ := sendOrTerminate_cases
      ({ s with router := (s.router.add keys target).1 } : Session) m
    rcases made : Session.sendOrTerminate
      ({ s with router := (s.router.add keys target).1 } : Session) m with ⟨t, result⟩
    rw [made] at sent went
    cases result with
    | ok _ => exact sent.trans (retains_answer t box _)
    | error f =>
      -- the session has ended with the request, and its route goes with all others
      obtain ⟨-, -, -, ended⟩ := went.resolve_left fun ⟨got, _⟩ => nomatch got
      have ends : ∀ p, ((t.eraseRoute (s.router.add keys target).2).answer box p).phase =
          .closed := fun p => (answer_phase _ _ _).trans ended
      exact ⟨fun going => absurd (ends _) going, fun going => absurd (ends _) going⟩
  · rw [obey_request_late opened]
    exact retains_answer s box _

theorem retains_obey {c : Command} (spares : s.withdraws x.handle (.command c) = false) :
    Retains x s (s.obey c) := by
  cases c with
  | send m box =>
    rw [obey]
    split
    · exact (retains_sendOrTerminate sound lasts m).trans (retains_answer _ box _)
    · exact retains_answer s box _
  | request m keys target box => exact retains_request sound lasts m keys target box
  | removeRoute route =>
    exact retains_eraseRoute fun _ same => by simp [withdraws, same] at spares
  | close box => exact retains_startLeaving sound lasts box

omit sound lasts in
theorem retains_elapse (time : Nat) : Retains x s (s.elapse time) := by
  have later : Retains x s { s with now := s.now + time } := retains_quiet rfl rfl
  rcases elapse_cases s time with same | same <;> rw [same]
  · exact later
  · exact later.trans (retains_terminate _ _)

theorem retains_arrive {a : Arrival}
    (own : ∀ m, a = .item (.message m) → x.takes (RouteKey.ofMessage m) = true →
      ∃ feed, x.handler = .feed feed)
    (spares : s.withdraws x.handle (.arrival a) = false) : Retains x s (s.arrive a) := by
  have ends : ∀ (t : Session) (f : Failure), Retains x s (t.terminate f) := fun t f =>
    ⟨fun going => absurd (phase_terminate t f) going,
      fun going => absurd (phase_terminate t f) going⟩
  rcases a with (m | data) | description | -
  · rw [arrive]
    rcases receive_cases s m with
      ⟨-, ⟨details, reason, -, -, same⟩ | ⟨f, -, same⟩ | same⟩ | same <;> rw [same]
    · exact ends _ _
    · exact ends _ _
    · exact retains_quiet rfl rfl
    · exact retains_distribute sound lasts (own m rfl) spares
  · exact retains_quiet rfl rfl
  · exact ends _ _
  · exact ends _ _

/-- A route that does not take INTERRUPT is still there after a step, unless the session has ended,
or the route was to be taken out, or it was waiting for a reply or a result and this has come. -/
theorem retains_step
    (own : ∀ m, input = .arrival (.item (.message m)) → x.takes (RouteKey.ofMessage m) = true →
      ∃ feed, x.handler = .feed feed)
    (spares : s.withdraws x.handle input = false) : Retains x s (s.step input) := by
  cases input with
  | forget box => exact retains_quiet rfl rfl
  | arrival a =>
    rw [step]
    split
    · exact .refl x s
    · exact retains_arrive sound lasts (fun m same => own m (same ▸ rfl)) spares
  | command c =>
    rw [step]
    split
    · exact .refl x s
    · exact retains_obey sound lasts spares
  | elapse time =>
    rw [step]
    split
    · exact .refl x s
    · exact retains_elapse time
  | orphaned =>
    rw [step]
    split
    · exact .refl x s
    · exact retains_startLeaving sound lasts none

end

/-! ### What is taken out -/

/-- No route has the handle. -/
def Lacks (h : Handle) (s : Session) : Prop := ∀ x ∈ s.router.routes, x.handle ≠ h

theorem lacks_eraseRoute (h : Handle) (s : Session) : Lacks h (s.eraseRoute h) :=
  fun _ there => (mem_routes_eraseRoute.mp there).2

/-- A handle that was given out is not used again. -/
theorem Lacks.parts {w w' : Work} (lacks : Lacks h w.session)
    (old : h ≤ w.session.router.lastHandle) (parts : Parts input w w') : Lacks h w'.session :=
  fun x there same => lacks x (parts.route_old there (same ▸ old)) same

theorem Lacks.step (lacks : Lacks h s) (sound : s.Sound) (old : h ≤ s.router.lastHandle)
    (input : Input) : Lacks h (s.step input) :=
  fun x there same => lacks x (route_old_step sound there (same ▸ old)) same

/-- A reply that takes the route out along with it, when it is handed over. -/
theorem lacks_handOver {box : Option Box} {change : Option RouteChange}
    (removes : (Errand.handOver box m change).removes h = true) :
    Lacks h (s.handOver box m change) := by
  rw [Errand.removes, Bool.and_eq_true] at removes
  obtain ⟨confirms, own⟩ := removes
  obtain rfl : change = some (.remove h) := by
    rcases change with _ | feed | route <;> simp_all [Target.removes]
  have changed : s.changeRoutes m (some (.remove h)) = (s.eraseRoute h, none) := by
    rw [changeRoutes, if_pos confirms]
  rw [handOver, changed]
  cases box with
  | none => exact lacks_eraseRoute h s
  | some box =>
    dsimp only
    split
    · exact lacks_eraseRoute h s
    · intro x there
      rw [post_router] at there
      exact lacks_eraseRoute h s x there

theorem lacks_errands {es : List Errand} {e : Errand} (put : e ∈ es) (removes : e.removes h = true)
    (old : h ≤ s.router.lastHandle) : Lacks h (es.foldl runErrand s) := by
  obtain ⟨before, after, rfl⟩ := List.append_of_mem put
  rw [List.foldl_append, List.foldl_cons]
  let t := before.foldl runErrand s
  have early : Parts .orphaned ⟨s, before ++ [e]⟩ ⟨(before ++ [e]).foldl runErrand s, []⟩ :=
    parts_errands
  have late : Parts .orphaned ⟨t.runErrand e, after⟩ ⟨after.foldl runErrand (t.runErrand e), []⟩ :=
    parts_errands
  have taken : Lacks h (t.runErrand e) := by
    cases e with
    | handOver box m change => exact lacks_handOver removes
    | _ => exact nomatch removes
  refine taken.parts (Nat.le_trans old ?_) late
  simpa [t] using Parts.lastHandle_le early

/-- A route that is to be taken out is gone after the step. -/
theorem lacks_step (sound : s.Sound) (live : s.phase ≠ .closed) (old : h ≤ s.router.lastHandle)
    (withdrawn : s.withdraws h input = true) : Lacks h (s.step input) := by
  rcases input with ((m | data) | description | -) | c | time | - | box
  case command =>
    rw [step, if_neg live]
    cases c with
    | removeRoute route =>
      obtain rfl := beq_iff_eq.mp withdrawn
      exact lacks_eraseRoute route s
    | _ => cases withdrawn
  case arrival.item.message =>
    have due := withdrawn
    rw [← any_removes_errands sound, List.any_eq_true] at due
    obtain ⟨e, put, removes⟩ := due
    have around : Parts .orphaned ⟨s, []⟩ ⟨s.handedAround m, _⟩ := parts_dispatch sound.tidy m
    have done : Lacks h ((s.distributed m).2.2.errands.foldl runErrand (s.handedAround m)) :=
      lacks_errands put removes (Nat.le_trans old (Parts.lastHandle_le around))
    have handed : Lacks h (s.distribute m) := by
      rw [distribute_eq]
      dsimp only
      split
      · exact done
      · let t := (s.distributed m).2.2.errands.foldl runErrand (s.handedAround m)
        have run : Parts .orphaned ⟨s.handedAround m, (s.distributed m).2.2.errands⟩ ⟨t, []⟩ :=
          parts_errands
        have noted : Parts .orphaned ⟨t, []⟩ ⟨t.noteUnmatched m, []⟩ := parts_noteUnmatched m
        refine done.parts ?_ noted
        exact Nat.le_trans (Nat.le_trans old (Parts.lastHandle_le around)) (Parts.lastHandle_le run)
    have confirms := (Bool.and_eq_true_iff.mp withdrawn).1
    rw [step, if_neg live, arrive]
    cases m with
    | unregistered request => exact handed
    | unsubscribed request => exact handed
    | error requestType request details reason payload => exact handed
    | _ => cases confirms
  all_goals cases withdrawn

end WampClient.Session
