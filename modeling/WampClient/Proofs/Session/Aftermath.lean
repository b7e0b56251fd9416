import WampClient.Proofs.Session.Lifecycle
import WampClient.Proofs.Session.Provenance

/-! What is left of a session that has ended. It waits for nothing, and nothing gets out any more.
Its routes are gone too, with one exception: where it ends over an invocation that it turns away,
the same invocation may still be put into a box after that, and then its interrupts have a route
that nothing will use. -/
namespace WampClient.Session

variable {s t : Session} {request : Id}

/-- There is no deadline any more, nobody waits for the close, and nothing gets out. -/
structure Finished (s : Session) : Prop where
  deadline : s.deadline = none
  closeWaiters : s.closeWaiters = []
  wire : s.wire.closed = true

/-- What may be left of the routes after an invocation: the one of its interrupts. -/
inductive Remains (request : Id) (s : Session) : Prop where
  | nothing (routes : s.router.routes = []) (interrupts : s.interrupts = [])
  | watch (route : Handle) (cell : Cell) (given : route ≤ s.router.lastHandle)
      (routes : s.router.routes =
        [⟨route, [RouteKey.ofReply .interrupt request], .interrupt cell⟩])
      (interrupts : s.interrupts = [(request, route)])

/-- If the session has ended, nothing is left of it. -/
def Cleared (s : Session) : Prop :=
  s.phase = .closed → s.Finished ∧ s.router.routes = [] ∧ s.interrupts = []

/-- If the session has ended, nothing is left of it but what remains after the invocation. -/
def Emptied (request : Id) (s : Session) : Prop :=
  s.phase = .closed → s.Finished ∧ Remains request s

theorem Finished.congr (finished : s.Finished) (same : t.outward = s.outward) : t.Finished := by
  obtain ⟨-, wire, deadline, closeWaiters⟩ :
      t.toLifecycle = s.toLifecycle ∧ t.wire = s.wire ∧ t.deadline = s.deadline ∧
        t.closeWaiters = s.closeWaiters := by simpa [outward] using same
  exact ⟨deadline.trans finished.deadline, closeWaiters.trans finished.closeWaiters,
    wire ▸ finished.wire⟩

theorem phase_congr (same : t.outward = s.outward) : t.phase = s.phase :=
  congrArg (fun x : Lifecycle × Wire × Option Nat × List Box => x.1.phase) same

theorem Finished.transmit (finished : s.Finished) (i : StreamItem) :
    (s.transmit i).1.Finished := by
  obtain ⟨deadline, closeWaiters, wire⟩ := finished
  exact ⟨deadline, closeWaiters, by simp [Session.transmit, Wire.send, wire]⟩

/-! ### What leaves nothing -/

theorem cleared_of_live (live : s.phase ≠ .closed) : s.Cleared := fun closed => absurd closed live

theorem Cleared.congr (cleared : s.Cleared) (same : t.outward = s.outward)
    (router : t.router = s.router) (interrupts : t.interrupts = s.interrupts) : t.Cleared := by
  intro closed
  rw [phase_congr same] at closed
  obtain ⟨finished, routes, table⟩ := cleared closed
  exact ⟨finished.congr same, by rw [router, routes], by rw [interrupts, table]⟩

theorem cleared_terminate (cleared : s.Cleared) (f : Failure) : (s.terminate f).Cleared := by
  by_cases live : s.phase = .closed
  · rwa [terminate_closed live]
  · rw [terminate_eq live]
    exact fun _ => ⟨⟨rfl, rfl, rfl⟩, rfl, rfl⟩

theorem Cleared.transmit (cleared : s.Cleared) (i : StreamItem) : (s.transmit i).1.Cleared := by
  intro closed
  obtain ⟨finished, left⟩ := cleared closed
  exact ⟨finished.transmit i, left⟩

theorem Cleared.answer (cleared : s.Cleared) (box : Option Box) (p : Post) :
    (s.answer box p).Cleared :=
  cleared.congr (outward_answer s box p) (answer_router s box p) (answer_interrupts s box p)

/-- A session that does not end with a message was still going on before it, or else had nothing
left. -/
theorem cleared_sendOrTerminate (live : s.phase ≠ .closed) (m : Message) :
    (s.sendOrTerminate m).1.Cleared := by
  have sent : ((s.retiring m).transmit (.message m)).1.Cleared :=
    cleared_of_live (by
      have phase : ((s.retiring m).transmit (.message m)).1.phase = s.phase := phase_retiring s m
      rwa [phase])
  rcases sendOrTerminate_left s m with left | ⟨description, left⟩
  · rwa [left]
  · rw [left]
    exact cleared_terminate sent _

theorem cleared_startLeaving (live : s.phase ≠ .closed) (box : Option Box) :
    (s.startLeaving box).Cleared := by
  rcases startLeaving_cases s box with ⟨-, same⟩ | ⟨-, same⟩ | same <;> rw [same]
  · exact cleared_sendOrTerminate (s := s.settingOut box) (by simp [settingOut]) _
  · exact cleared_of_live live
  · exact (cleared_of_live live).answer box _

theorem cleared_obey (live : s.phase ≠ .closed) (c : Command) : (s.obey c).Cleared := by
  cases c with
  | send m box =>
    rw [obey]
    split
    · exact (cleared_sendOrTerminate live m).answer box _
    · exact (cleared_of_live live).answer box _
  | request m keys target box =>
    let u : Session := { s with router := (s.router.add keys target).1 }
    refine request_keeps (P := Cleared) (cleared_of_live live) m keys target box
      (fun _ => cleared_sendOrTerminate (s := u) live m) (fun t sent closed => ?_)
      (fun t _ sent => sent.answer box _)
    obtain ⟨finished, routes, table⟩ : t.Finished ∧ t.router.routes = [] ∧ t.interrupts = [] :=
      sent closed
    exact ⟨finished.congr rfl, by simp [eraseRoute, routes], table⟩
  | removeRoute route => exact cleared_of_live live
  | close box => exact cleared_startLeaving live box

theorem cleared_elapse (live : s.phase ≠ .closed) (time : Nat) : (s.elapse time).Cleared := by
  let t : Session := { s with now := s.now + time }
  have later : t.Cleared := cleared_of_live (s := t) live
  rcases elapse_cases s time with same | same <;> rw [same]
  · exact later
  · exact cleared_terminate later _

/-! ### Messages that are handed around -/

/-- Whatever is put off because of another message than an invocation, no session ends with it. -/
theorem phase_distribute (sound : s.Sound) {m : Message}
    (other : ∀ request registration details payload,
      m ≠ .invocation request registration details payload) :
    (s.distribute m).phase = s.phase := by
  have replies : ∀ e ∈ (s.distributed m).2.2.errands, ∃ box m change,
      e = .handOver box m change := by
    intro e put
    obtain ⟨y, -, -, cell, due⟩ := errand_origin sound put
    obtain ⟨box, change, same⟩ := Errand.handOver_of_mem other due
    exact ⟨box, m, change, same⟩
  have done := phase_errands (s := s.handedAround m) replies
  rw [distribute_eq]
  dsimp only
  split
  · exact done
  · cases m with
    | invocation request registration details payload => exact absurd rfl (other _ _ _ _)
    | _ => exact done

theorem Emptied.congr (emptied : s.Emptied request) (same : t.outward = s.outward)
    (router : t.router = s.router) (interrupts : t.interrupts = s.interrupts) :
    t.Emptied request := by
  intro closed
  rw [phase_congr same] at closed
  obtain ⟨finished, remains⟩ := emptied closed
  refine ⟨finished.congr same, ?_⟩
  cases remains with
  | nothing routes table => exact .nothing (by rw [router, routes]) (by rw [interrupts, table])
  | watch route cell given routes table =>
    exact .watch route cell (by rwa [router]) (by rw [router, routes]) (by rw [interrupts, table])

theorem Emptied.transmit (emptied : s.Emptied request) (i : StreamItem) :
    (s.transmit i).1.Emptied request := by
  intro closed
  obtain ⟨finished, remains⟩ := emptied closed
  refine ⟨finished.transmit i, ?_⟩
  cases remains with
  | nothing routes table => exact .nothing routes table
  | watch route cell given routes table => exact .watch route cell given routes table

/-- With the answer to the invocation the route of its interrupts goes as well. -/
theorem Remains.retiring (remains : s.Remains request) :
    (s.retiring (Message.rejection request)).Remains request := by
  have settles : (Message.rejection request).settles? = some request := by
    simp [Message.rejection, Message.settles?]
  rw [Session.retiring, settles, Option.elim_some, retire]
  cases remains with
  | nothing routes table =>
    rw [table]
    exact .nothing routes table
  | watch route cell given routes table =>
    have known : Assoc.get? request s.interrupts = some route := by simp [table, Assoc.get?]
    rw [known]
    refine .nothing ?_ ?_
    · simp [eraseRoute, routes]
    · simp [eraseRoute, table, Assoc.erase]

/-- An invocation that is watched after the end leaves the route of its interrupts. -/
theorem Emptied.watch (emptied : s.Emptied request) (cell : Cell) :
    (s.watch request cell).Emptied request := by
  intro closed
  have same := outward_watch s request cell
  rw [phase_congr same] at closed
  obtain ⟨finished, remains⟩ := emptied closed
  refine ⟨finished.congr same, ?_⟩
  cases remains with
  | nothing routes table =>
    have unknown : Assoc.get? request s.interrupts = none := by
      rw [table]
      rfl
    rw [watch_of_none unknown]
    refine .watch (s.router.lastHandle + 1) cell (Nat.le_refl _) ?_ ?_
    · rw [watching, Router.routes_add, routes, List.nil_append]
    · rw [watching, table]
      rfl
  | watch route cell' given routes table =>
    have known : Assoc.get? request s.interrupts = some route := by simp [table, Assoc.get?]
    have later : s.router.lastHandle + 1 ≠ route := Nat.ne_of_gt (Nat.lt_succ_of_le given)
    rw [watch_of_some known]
    refine .watch (s.router.lastHandle + 1) cell ?_ ?_ ?_
    · rw [lastHandle_eraseRoute]
      exact Nat.le_refl _
    · simp [eraseRoute, watching, Router.routes_add, routes, later]
    · simp [eraseRoute, watching, table, Assoc.alter]

/-- An invocation that is turned away takes the route of its interrupts with it. -/
theorem Emptied.turnAway (emptied : s.Emptied request) :
    (s.sendOwn (Message.rejection request)).Emptied request := by
  by_cases live : s.phase = .closed
  · obtain ⟨finished, remains⟩ := emptied live
    have retired : (s.retiring (Message.rejection request)).Emptied request := fun _ =>
      ⟨finished.congr (outward_retiring s _), remains.retiring⟩
    have sent : ((s.retiring (Message.rejection request)).transmit
        (.message (Message.rejection request))).1.Emptied request := retired.transmit _
    have late : ((s.retiring (Message.rejection request)).transmit
        (.message (Message.rejection request))).1.phase = .closed :=
      (phase_retiring s _).trans live
    rw [sendOwn]
    rcases sendOrTerminate_left s (Message.rejection request) with left | ⟨description, left⟩
    · rwa [left]
    · rwa [left, terminate_closed late]
  · intro closed
    obtain ⟨finished, routes, table⟩ := cleared_sendOrTerminate live (Message.rejection request)
      closed
    exact ⟨finished, .nothing routes table⟩

/-- Whatever is put off because of an invocation has to do with that invocation. -/
theorem emptied_errands {m : Message} {registration : Id} {details : Dictionary} {payload : Payload}
    (invokes : m = .invocation request registration details payload) (gone : List Box)
    {es : List Errand} (due : ∀ e ∈ es, ∃ target : Target, ∃ cell, e ∈ target.errands gone m cell)
    (emptied : s.Emptied request) : (es.foldl runErrand s).Emptied request := by
  induction es generalizing s with
  | nil => exact emptied
  | cons e rest ih =>
    refine ih (fun e there => due e (List.mem_cons_of_mem _ there)) ?_
    obtain ⟨target, cell, put⟩ := due e List.mem_cons_self
    cases target with
    | reply box change =>
      obtain rfl := List.mem_singleton.mp put
      have idle : s.changeRoutes m change = (s, none) := by
        subst invokes
        rcases change with _ | feed | route <;> rfl
      have handed : s.handOver box m change = s.answer box (.reply (.ok (m, none))) := by
        rw [← handOver_none, handOver, handOver, idle]
        rfl
      have put : (s.answer box (.reply (.ok (m, none)))).Emptied request :=
        emptied.congr (outward_answer s box _) (answer_router s box _) (answer_interrupts s box _)
      rwa [← handed] at put
    | feed f =>
      subst invokes
      cases f with
      | events box => simp [Target.errands] at put
      | invocations box =>
        simp only [Target.errands] at put
        split at put
        · obtain rfl := List.mem_singleton.mp put
          exact emptied.turnAway
        · obtain rfl := List.mem_singleton.mp put
          exact emptied.watch cell
    | call box => simp [Target.errands] at put
    | interrupt cell' => simp [Target.errands] at put

theorem emptied_distribute (sound : s.Sound) (live : s.phase ≠ .closed) (registration : Id)
    (details : Dictionary) (payload : Payload) :
    (s.distribute (.invocation request registration details payload)).Emptied request := by
  let m : Message := .invocation request registration details payload
  have around : (s.handedAround m).Emptied request := fun closed => absurd closed live
  have done : ((s.distributed m).2.2.errands.foldl runErrand (s.handedAround m)).Emptied request :=
    emptied_errands rfl s.gone (fun e put => by
      obtain ⟨y, -, -, cell, due⟩ := errand_origin sound put
      exact ⟨y.handler, cell, due⟩) around
  rw [distribute_eq]
  dsimp only
  split
  · exact done
  · exact done.turnAway.congr rfl rfl rfl

/-! ### Steps -/

theorem cleared_receive (sound : s.Sound) (live : s.phase ≠ .closed) {m : Message}
    (other : ∀ request registration details payload,
      m ≠ .invocation request registration details payload) : (s.receive m).Cleared := by
  rcases receive_cases s m with
    ⟨-, ⟨details, reason, -, opened, same⟩ | ⟨f, -, same⟩ | same⟩ | same <;> rw [same]
  · refine cleared_terminate (Cleared.transmit (cleared_of_live ?_) _) _
    simp [enter_of_may (Front.mayEnter_closing opened)]
  · exact cleared_terminate (cleared_of_live live) f
  · exact cleared_of_live live
  · exact cleared_of_live (by rwa [phase_distribute sound other])

theorem cleared_arrive (sound : s.Sound) (live : s.phase ≠ .closed) {a : Arrival}
    (other : ∀ request registration details payload,
      a ≠ .item (.message (.invocation request registration details payload))) :
    (s.arrive a).Cleared := by
  cases a with
  | item i =>
    cases i with
    | message m =>
      refine cleared_receive sound live fun request registration details payload same => ?_
      exact other request registration details payload (by rw [same])
    | ping data => exact (cleared_of_live live).transmit _
  | failed description => exact cleared_terminate ((cleared_of_live live).transmit _) _
  | ended => exact cleared_terminate (cleared_of_live live) _

/-- What a step leaves with which a session ends: nothing, or what remains after an invocation. -/
theorem step_leaves (sound : s.Sound) (live : s.phase ≠ .closed) (input : Input)
    (closed : (s.step input).phase = .closed) :
    (s.step input).Finished ∧
      ((s.step input).router.routes = [] ∧ (s.step input).interrupts = [] ∨
        ∃ request registration details payload,
          input = .arrival (.item (.message (.invocation request registration details payload))) ∧
            (s.step input).Remains request) := by
  by_cases invokes : ∃ request registration details payload,
      input = .arrival (.item (.message (.invocation request registration details payload)))
  · obtain ⟨request, registration, details, payload, rfl⟩ := invokes
    have same : s.step (.arrival (.item (.message
        (.invocation request registration details payload)))) =
        s.distribute (.invocation request registration details payload) := if_neg live
    rw [same] at closed ⊢
    obtain ⟨finished, remains⟩ := emptied_distribute sound live registration details payload closed
    exact ⟨finished, Or.inr ⟨request, registration, details, payload, rfl, remains⟩⟩
  · have cleared : (s.step input).Cleared := by
      cases input with
      | forget box => exact cleared_of_live live
      | elapse time =>
        rw [step, if_neg live]
        exact cleared_elapse live time
      | orphaned =>
        rw [step, if_neg live]
        exact cleared_startLeaving live none
      | command c =>
        rw [step, if_neg live]
        exact cleared_obey live c
      | arrival a =>
        rw [step, if_neg live]
        refine cleared_arrive sound live fun request registration details payload same => ?_
        exact invokes ⟨request, registration, details, payload, by rw [same]⟩
    obtain ⟨finished, left⟩ := cleared closed
    exact ⟨finished, Or.inl left⟩

/-- Two registrations go under one id, and nobody looks into the box of the first any more when an
invocation comes. -/
def twoRegistrations : List Input :=
  [.command (.request (.register Id.min [] ⟨"com.a"⟩) [RouteKey.ofReply .registered Id.min]
      (.reply none (some (.install (.invocations 0)))) none),
    .command (.request (.register Id.min.next [] ⟨"com.b"⟩)
      [RouteKey.ofReply .registered Id.min.next] (.reply none (some (.install (.invocations 1))))
      none),
    .arrival (.item (.message (.registered Id.min Id.max))),
    .arrival (.item (.message (.registered Id.min.next Id.max))),
    .forget 0,
    .arrival (.item (.message (.invocation Id.min Id.max [] Payload.empty)))]

/-- The invocation is turned away for the first. That does not get out and ends the session, and
then the invocation is put into the box of the second. -/
example :
    let wire := Wire.fresh fun n => if n = 2 then some "no route" else none
    let s := (established wire 0 5000).run twoRegistrations
    s.phase = .closed ∧ s.router.routes.length = 1 ∧ s.interrupts.length = 1 := by
  decide

/-- Whatever comes after the end changes nothing about the session but which boxes are looked
into. -/
theorem run_of_closed (closed : s.phase = .closed) (inputs : List Input) :
    ∃ gone, s.run inputs = { s with gone } := by
  induction inputs generalizing s with
  | nil => exact ⟨s.gone, rfl⟩
  | cons input rest ih =>
    by_cases heeds : ∃ box, input = .forget box
    · obtain ⟨box, rfl⟩ := heeds
      exact ih (s := { s with gone := box :: s.gone }) closed
    · have same : s.step input = s := step_closed closed fun box is => heeds ⟨box, is⟩
      have onward : s.run (input :: rest) = (s.step input).run rest := rfl
      rw [onward, same]
      exact ih closed

/-- Once a session has ended, what is left of its routes takes INTERRUPT. -/
theorem interrupts_of_ended (sound : s.Sound) (live : s.phase ≠ .closed) {inputs : List Input}
    (closed : (s.run inputs).phase = .closed) :
    ∀ x ∈ (s.run inputs).router.routes, ∃ cell, x.handler = .interrupt cell := by
  induction inputs generalizing s with
  | nil => exact absurd closed live
  | cons input rest ih =>
    have onward : s.run (input :: rest) = (s.step input).run rest := rfl
    rw [onward] at closed ⊢
    by_cases ends : (s.step input).phase = .closed
    · obtain ⟨gone, same⟩ := run_of_closed ends rest
      intro x there
      rw [same] at there
      obtain ⟨-, ⟨routes, -⟩ | ⟨request, registration, details, payload, -, remains⟩⟩ :=
        step_leaves sound live input ends
      · exact absurd (routes ▸ there) List.not_mem_nil
      · cases remains with
        | nothing routes interrupts => exact absurd (routes ▸ there) List.not_mem_nil
        | watch route cell given routes interrupts =>
          exact ⟨cell, congrArg Route.handler (List.mem_singleton.mp (routes ▸ there))⟩
    · exact ih (sound.step input) ends closed

end WampClient.Session
