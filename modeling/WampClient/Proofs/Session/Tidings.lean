import WampClient.Proofs.Session.Closing
import WampClient.Proofs.Session.Intake

/-! What lies in the box of somebody who waits for the close of a session. Where nobody asks for
anything else to be put into it, the box stays empty as long as the session goes on, and once that
is over there is the news in it, for each time that it was asked for, and nothing besides. -/
namespace WampClient.Session

variable {b : Box} {s t u : Session} {m : Message} {input : Input} {box : Option Box}

/-- No route puts anything into the box. -/
def Bare (b : Box) (s : Session) : Prop := ∀ x ∈ s.router.routes, x.handler.feeds b = false

/-- What lies in the box besides the news of the close. -/
def besides (b : Box) (s : Session) : List Post := (s.postsTo b).filter fun p => !p.isLeft

/-- Nothing but the news of the close is put into the box, nor can it be later on. -/
def Spared (b : Box) (s t : Session) : Prop := s.Bare b → t.Bare b ∧ t.besides b = s.besides b

theorem spared_refl (b : Box) (s : Session) : Spared b s s := fun bare => ⟨bare, rfl⟩

theorem Spared.trans (one : Spared b s t) (two : Spared b t u) : Spared b s u := by
  intro bare
  obtain ⟨bare', same⟩ := one bare
  obtain ⟨bare'', same'⟩ := two bare'
  exact ⟨bare'', same'.trans same⟩

theorem besides_append {entries : List (Box × Post)} (posts : t.posts = s.posts ++ entries)
    (news : ∀ p, (b, p) ∈ entries → p.isLeft = true) : t.besides b = s.besides b := by
  have nothing : (entries.filterMap fun e => if e.1 = b then some e.2 else none).filter
      (fun p => !p.isLeft) = [] := by
    refine List.filter_eq_nil_iff.mpr fun p put => ?_
    obtain ⟨⟨own, p'⟩, there, same⟩ := List.mem_filterMap.mp put
    split at same
    next mine =>
      obtain rfl := Option.some.inj same
      obtain rfl : own = b := mine
      simp [news _ there]
    next => exact nomatch same
  rw [besides, postsTo_append posts, List.filter_append, nothing, List.append_nil]
  rfl

theorem spared_quiet (router : t.router = s.router) (posts : t.posts = s.posts) :
    Spared b s t := by
  refine fun bare => ⟨?_, besides_append (posts.trans (List.append_nil _).symm) (by simp)⟩
  rwa [Bare, router]

theorem spared_eraseRoute (s : Session) (route : Handle) : Spared b s (s.eraseRoute route) :=
  fun bare => ⟨fun x there => bare x (mem_routes_eraseRoute.mp there).1, rfl⟩

theorem spared_add (s : Session) (keys : List RouteKey) {target : Target}
    (silent : target.feeds b = false) :
    Spared b s { s with router := (s.router.add keys target).1 } := by
  refine fun bare => ⟨fun x there => ?_, rfl⟩
  rcases mem_routes_add.mp there with old | rfl
  · exact bare x old
  · exact silent

theorem spared_answer (s : Session) (p : Post) (right : box ≠ some b ∨ p.isLeft = true) :
    Spared b s (s.answer box p) := by
  intro bare
  refine ⟨fun x there => bare x (by rwa [answer_router] at there), ?_⟩
  refine besides_append (congrArg Session.posts (answer_eq s box p)) fun q put => ?_
  obtain ⟨own, there, same⟩ := List.mem_map.mp (mem_arriving.mp put).1
  obtain ⟨rfl, rfl⟩ := Prod.mk.inj same
  exact right.resolve_left fun other => other (Option.mem_toList.mp there)

/-! ### The end -/

theorem isLeft_of_mem_lastPosts (bare : s.Bare b) {f : Failure} {p : Post}
    (put : (b, p) ∈ s.lastPosts f) : p.isLeft = true := by
  rcases List.mem_append.mp put with routes | waiters
  · obtain ⟨x, there, due⟩ := List.mem_flatMap.mp routes
    have mine : p ∈ x.handler.lastPostsTo b f := List.mem_filterMap.mpr ⟨_, due, if_pos rfl⟩
    rw [Target.lastPostsTo_of_not_feeds (bare x there)] at mine
    exact absurd mine List.not_mem_nil
  · obtain ⟨own, -, same⟩ := List.mem_map.mp waiters
    rw [← (Prod.mk.inj same).2]
    rfl

theorem spared_terminate (s : Session) (f : Failure) : Spared b s (s.terminate f) := by
  intro bare
  by_cases live : s.phase = .closed
  · rw [terminate_closed live]
    exact ⟨bare, rfl⟩
  · rw [terminate_eq live]
    refine ⟨fun x there => absurd there List.not_mem_nil, besides_append rfl fun p put => ?_⟩
    exact isLeft_of_mem_lastPosts bare (mem_arriving.mp put).1

theorem spared_sendOrTerminate (s : Session) (m : Message) :
    Spared b s (s.sendOrTerminate m).1 := by
  have retired : Spared b s (s.retiring m) := by
    rcases retiring_cases s m with same | ⟨request, route, -, same⟩
    · rw [same]
      exact spared_refl b s
    · rw [same]
      exact spared_eraseRoute { s with interrupts := _ } route
  have sent := retired.trans (spared_quiet (t := ((s.retiring m).transmit (.message m)).1) rfl rfl)
  rcases sendOrTerminate_left s m with left | ⟨description, left⟩
  · rwa [left]
  · rw [left]
    exact sent.trans (spared_terminate _ _)

/-! ### Messages that are handed around -/

theorem spared_changeRoutes (s : Session) (m : Message) {change : Option RouteChange}
    (silent : (Target.reply box change).feeds b = false) :
    Spared b s (s.changeRoutes m change).1 := by
  rcases change with _ | feed | route
  · exact spared_refl b s
  · simp only [changeRoutes]
    split
    · exact spared_refl b s
    · exact spared_add s _ (Bool.or_eq_false_iff.mp silent).2
  · simp only [changeRoutes]
    split
    · exact spared_eraseRoute s route
    · exact spared_refl b s

theorem spared_handOver (s : Session) (m : Message) {change : Option RouteChange}
    (silent : (Target.reply box change).feeds b = false) :
    Spared b s (s.handOver box m change) := by
  have changed := spared_changeRoutes s m silent
  rw [handOver]
  cases box with
  | none => exact changed
  | some own =>
    have other : some own ≠ some b := by simpa using (Bool.or_eq_false_iff.mp silent).1
    dsimp only
    split
    · refine changed.trans ?_
      cases (s.changeRoutes m change).2 with
      | none => exact spared_refl b _
      | some route => exact spared_eraseRoute _ route
    · exact changed.trans (spared_answer _ _ (Or.inl other))

theorem spared_errands {es : List Errand} (silent : ∀ e ∈ es, e.feeds b = false) (s : Session) :
    Spared b s (es.foldl runErrand s) := by
  induction es generalizing s with
  | nil => exact spared_refl b s
  | cons e rest ih =>
    refine Spared.trans ?_ (ih (fun e there => silent e (List.mem_cons_of_mem _ there)) _)
    have own := silent e List.mem_cons_self
    cases e with
    | handOver box reply change => exact spared_handOver s reply own
    | watch request cell =>
      have watching : Spared b s (s.watching request cell) := spared_add s _ rfl
      rcases watch_eq s request cell with watched | ⟨previous, -, watched⟩ <;>
        rw [runErrand, watched]
      · exact watching
      · exact watching.trans (spared_eraseRoute _ previous)
    | turnAway request => exact spared_sendOrTerminate s _

theorem spared_noteUnmatched (s : Session) (m : Message) : Spared b s (s.noteUnmatched m) := by
  have noted : ∀ t : Session, Spared b t (t.report unmatched m) := fun t => spared_quiet rfl rfl
  cases m with
  | invocation request registration details payload =>
    exact (spared_sendOrTerminate s _).trans (noted _)
  | _ => exact noted s

theorem spared_handedAround (sound : s.Sound) (m : Message) : Spared b s (s.handedAround m) := by
  intro bare
  obtain ⟨new, posts, origin⟩ := posts_handedAround sound m
  refine ⟨fun x there => ?_, besides_append posts fun p put => ?_⟩
  · exact bare x (mem_routes_of_visits sound.tidy s.gone m _ _ _ there)
  · obtain ⟨x, there, -, cell, due⟩ := origin _ put
    exact nomatch (bare x there).symm.trans (Target.feeds_of_mem_posts due)

theorem spared_distribute (sound : s.Sound) (m : Message) : Spared b s (s.distribute m) := by
  intro bare
  have silent : ∀ e ∈ (s.distributed m).2.2.errands, e.feeds b = false := by
    intro e put
    by_contra feeds
    obtain ⟨x, there, -, cell, due⟩ := errand_origin sound put
    exact nomatch (bare x there).symm.trans (Errand.feeds_of_mem due (by simpa using feeds))
  have done := (spared_handedAround sound m).trans (spared_errands silent _)
  rw [distribute_eq]
  dsimp only
  split
  · exact done bare
  · exact done.trans (spared_noteUnmatched _ m) bare

/-! ### Steps -/

theorem spared_partFrom (s : Session) (reason : Uri) (m : Message) :
    Spared b s (s.partFrom reason m) := by
  have entered : Spared b s
      ((s.enter .closing).transmitAnyway (.message CloseReason.goodbyeAndOut.goodbye)) :=
    spared_quiet rfl rfl
  exact entered.trans (spared_terminate _ _)

theorem spared_receive (sound : s.Sound) (m : Message) : Spared b s (s.receive m) := by
  rcases receive_cases s m with
    ⟨-, ⟨details, reason, -, -, same⟩ | ⟨f, -, same⟩ | same⟩ | same <;> rw [same]
  · exact spared_partFrom s reason m
  · exact spared_terminate s f
  · exact spared_quiet rfl rfl
  · exact spared_distribute sound m

theorem spared_arrive (sound : s.Sound) (a : Arrival) : Spared b s (s.arrive a) := by
  have sent : ∀ i, Spared b s (s.transmitAnyway i) := fun i => spared_quiet rfl rfl
  cases a with
  | item i =>
    cases i with
    | message m => exact spared_receive sound m
    | ping data => exact sent _
  | failed description => exact (sent _).trans (spared_terminate _ _)
  | ended => exact spared_terminate s _

theorem spared_startLeaving (s : Session) (box : Option Box) :
    Spared b s (s.startLeaving box) := by
  rcases startLeaving_cases s box with ⟨-, same⟩ | ⟨-, same⟩ | same <;> rw [same]
  · have left : Spared b s (s.settingOut box) := spared_quiet rfl rfl
    exact left.trans (spared_sendOrTerminate _ _)
  · exact spared_quiet rfl rfl
  · exact spared_answer s .left (Or.inr rfl)

theorem spared_obey {c : Command} (asks : c.feeds b = true → (Input.command c).closer? = some b)
    (s : Session) : Spared b s (s.obey c) := by
  cases c with
  | send m box =>
    have other : box ≠ some b := by
      rintro rfl
      simp [Input.closer?, Command.feeds] at asks
    rw [obey]
    split
    · exact (spared_sendOrTerminate s m).trans (spared_answer _ _ (Or.inl other))
    · exact spared_answer s _ (Or.inl other)
  | request m keys target box =>
    have silent : (Command.request m keys target box).feeds b = false :=
      Bool.eq_false_iff.mpr fun fed => absurd (asks fed) (by simp [Input.closer?])
    obtain ⟨other, silent⟩ := Bool.or_eq_false_iff.mp silent
    have other : box ≠ some b := by simpa using other
    exact request_keeps (P := Spared b s) (spared_quiet rfl rfl) m keys target box
      (fun _ => (spared_add s keys silent).trans (spared_sendOrTerminate _ m))
      (fun t sent => sent.trans (spared_eraseRoute t _))
      (fun t _ sent => sent.trans (spared_answer t _ (Or.inl other)))
  | removeRoute route => exact spared_eraseRoute s route
  | close box => exact spared_startLeaving s box

/-- Where an input asks for nothing but the close to be told in the box, it is spared. -/
theorem spared_step (sound : s.Sound) (asks : input.feeds b = true → input.closer? = some b) :
    Spared b s (s.step input) := by
  cases input with
  | forget box => exact spared_quiet rfl rfl
  | arrival a =>
    rw [step]
    split
    · exact spared_refl b s
    · exact spared_arrive sound a
  | command c =>
    rw [step]
    split
    · exact spared_refl b s
    · exact spared_obey asks s
  | elapse time =>
    rw [step]
    split
    · exact spared_refl b s
    · have waited : Spared b s { s with now := s.now + time } := spared_quiet rfl rfl
      rcases elapse_cases s time with same | same <;> rw [same]
      · exact waited
      · exact waited.trans (spared_terminate _ _)
  | orphaned =>
    rw [step]
    split
    · exact spared_refl b s
    · exact spared_startLeaving s none

theorem spared_run (sound : s.Sound) {inputs : List Input}
    (asks : ∀ input ∈ inputs, input.feeds b = true → input.closer? = some b) :
    Spared b s (s.run inputs) := by
  induction inputs generalizing s with
  | nil => exact spared_refl b s
  | cons input rest ih =>
    have first := spared_step sound (asks input List.mem_cons_self)
    exact first.trans (ih (sound.step input) fun i there => asks i (List.mem_cons_of_mem _ there))

/-- Whoever waits for the close, or asks to be told of it, waits as long as the session goes on. -/
theorem mem_closeWaiters_step (sound : s.Sound) (fit : s.parting.Fit)
    (live : (s.step input).phase ≠ .closed) (asked : b ∈ s.closeWaiters ∨ input.closer? = some b) :
    b ∈ (s.step input).closeWaiters := by
  rcases parting_step sound fit input with same | ⟨-, ended⟩
  · have phase := phase_of_parting same
    have waiters : (s.step input).closeWaiters = (s.awaiting input).waiters :=
      congrArg Parting.waiters same
    have told : b ∈ s.closeWaiters ++ input.closer?.toList := by simpa using asked
    rw [waiters]
    cases closes : input.closes with
    | false =>
      rw [closer?_of_other closes, Option.toList_none, List.append_nil] at told
      rwa [awaiting_of_other closes]
    | true =>
      rw [awaiting_of_closes closes] at phase ⊢
      rcases fit.phase with opened | left | closed
      · rwa [Parting.leaving_of_established opened]
      · rwa [Parting.leaving_of_closing left]
      · rw [Parting.leaving_of_closed closed] at phase
        exact absurd (phase.trans closed) live
  · exact absurd (phase_of_parting ended) live

/-! ### What lies in the box -/

theorem count_told (s : Session) (b : Box) : s.told.count b = (s.postsTo b).countP Post.isLeft := by
  rw [told, postsTo]
  induction s.posts with
  | nil => rfl
  | cons e rest ih =>
    obtain ⟨own, p⟩ := e
    by_cases mine : own = b <;> cases news : p.isLeft <;>
      simp [mine, news, ih]

/-- Where there is only news of the close, there is as much of it as was told. -/
theorem postsTo_of_besides (nothing : s.besides b = []) :
    s.postsTo b = List.replicate (s.told.count b) .left := by
  have all : ∀ p ∈ s.postsTo b, p.isLeft = true := by
    intro p there
    by_contra other
    have put : p ∈ s.besides b := List.mem_filter.mpr ⟨there, by simpa using other⟩
    rw [nothing] at put
    exact absurd put List.not_mem_nil
  refine List.eq_replicate_iff.mpr ⟨?_, fun p there => ?_⟩
  · rw [count_told, List.countP_eq_length.mpr all]
  · have news := all p there
    cases p with
    | left => rfl
    | _ => exact nomatch news

/-! ### Runs -/

/-- How it stands with the close of a session that has just been established, after these inputs:
whether it is due, and who has been told of it. -/
structure Closes (s : Session) (inputs : List Input) : Prop where
  deadline : (s.run inputs).deadline.isSome = true ↔ (s.run inputs).phase = .closing
  waiters : (s.run inputs).closeWaiters ≠ [] → (s.run inputs).phase = .closing
  /-- The deadline is counted from when the program has left the realm. -/
  since : (s.run inputs).phase = .closing → ∃ before input after,
    inputs = before ++ input :: after ∧ (s.run before).phase = .established ∧
      input.closes = true ∧ (s.run before).now = s.now + waited before ∧
      (s.run inputs).deadline = some ((s.run before).now + s.closeTimeout)
  unmoved : (s.run inputs).phase = .closing → ∀ later, (s.run (inputs ++ later)).phase = .closing →
    (s.run (inputs ++ later)).deadline = (s.run inputs).deadline
  ends : (s.run inputs).phase = .closing → ∀ later time, s.closeTimeout ≤ waited later + time →
    (s.run (inputs ++ later ++ [.elapse time])).phase = .closed
  awaits : (s.run inputs).phase ≠ .closed → ∀ box, box ∉ (s.run inputs).gone →
    (s.run inputs).told.count box = 0 ∧
      (s.run inputs).closeWaiters.count box = closings box (s.heeded inputs)
  tells : (s.run inputs).phase = .closed → ∀ box, box ∉ (s.run inputs).gone →
    (s.run inputs).told.count box = closings box (s.heeded inputs)
  /-- Whoever wants to leave when all is over is told at once. -/
  late : (s.run inputs).phase = .closed → ∀ box, box ∉ (s.run inputs).gone →
    ((s.run inputs).startLeaving (some box)).told = (s.run inputs).told ++ [box]
  /-- Where nothing else is asked for, nothing else is in the box. -/
  only : ∀ box, (∀ input ∈ inputs, input.feeds box = true → input.closer? = some box) →
    (s.run inputs).postsTo box = List.replicate ((s.run inputs).told.count box) .left

theorem closes_run (sound : s.Sound) (fit : s.parting.Fit) (opened : s.phase = .established)
    (untold : s.posts = []) (bare : s.router.routes = []) (inputs : List Input) :
    s.Closes inputs := by
  have sound' : (s.run inputs).Sound := sound.run inputs
  have fit' : (s.run inputs).parting.Fit := fit_run sound fit inputs
  have fresh : s.phase ≠ .closing := by simp [opened]
  have nobody : s.told = [] ∧ s.closeWaiters = [] := by
    refine ⟨by rw [told, untold]; rfl, ?_⟩
    by_contra waiting
    exact fresh (fit.waiters waiting)
  have account : ∀ box, box ∉ (s.run inputs).gone →
      (s.run inputs).told.count box + (s.run inputs).closeWaiters.count box =
        closings box (s.heeded inputs) := by
    intro box heard
    rw [count_run sound fit inputs heard, nobody.1, nobody.2]
    exact Nat.zero_add _
  have since : (s.run inputs).phase = .closing → ∃ before input after,
      inputs = before ++ input :: after ∧ (s.run before).phase = .established ∧
        input.closes = true ∧ (s.run before).now = s.now + waited before ∧
        (s.run inputs).deadline = some ((s.run before).now + s.closeTimeout) := by
    intro left
    obtain ⟨before, input, after, split, opened, closes, due⟩ :=
      deadline_run sound fit fresh inputs left
    have clock := now_run sound fit before (Or.inl opened)
    exact ⟨before, input, after, split, opened, closes, clock, clock ▸ due⟩
  exact {
    deadline := fit'.deadline
    waiters := fit'.waiters
    since := since
    unmoved := by
      intro left later still
      rw [run_append] at still ⊢
      rcases run_of_closing sound' fit' left later with closed | ⟨-, same, -⟩
      · simp [closed] at still
      · exact same
    ends := by
      intro left later time reached
      obtain ⟨before, input, after, split, -, -, clock, due⟩ := since left
      have clock' := now_run sound fit inputs (Or.inr left)
      have elapsed : waited before ≤ waited inputs := by simp [split, waited_append]
      rw [List.append_assoc, run_append]
      exact run_of_overdue sound' fit' due later (by omega)
    awaits := by
      intro live box heard
      have untold : (s.run inputs).told = [] := by
        by_contra told
        exact live (fit'.told told)
      have sum := account box heard
      rw [untold] at sum ⊢
      exact ⟨rfl, by simpa using sum⟩
    tells := by
      intro closed box heard
      have nobody : (s.run inputs).closeWaiters = [] := by
        by_contra waiting
        have left : (s.run inputs).phase = .closing := fit'.waiters waiting
        simp [closed] at left
      have sum := account box heard
      rwa [nobody, List.count_nil, Nat.add_zero] at sum
    late := by
      intro closed box heard
      have answered : (s.run inputs).startLeaving (some box) =
          (s.run inputs).answer (some box) .left := by rw [startLeaving, closed]
      have posts : ((s.run inputs).answer (some box) .left).posts =
          (s.run inputs).posts ++ [(box, .left)] := by simp [answer, post, heard]
      rw [answered, told_append posts]
      rfl
    only := by
      intro box asks
      have bare' : s.Bare box := fun x there => by
        rw [bare] at there
        exact absurd there List.not_mem_nil
      have start : s.besides box = [] := by rw [besides, postsTo, untold]; rfl
      exact postsTo_of_besides ((spared_run sound asks bare').2.trans start) }

end WampClient.Session
