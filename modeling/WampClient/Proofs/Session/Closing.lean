import WampClient.Proofs.Session.Lifecycle
import WampClient.Proofs.Session.Watches

/-! How a session comes to its close. It has a deadline just as long as it is closing, which is set
as the program leaves the realm and does not move after that, whatever happens. Those who wait for
the close are told when the session ends, each once, and nobody is told before. -/
namespace WampClient

def Post.isLeft : Post → Bool
  | .left => true
  | _ => false

namespace Input

/-- Whether the program leaves the realm, or would if it had not done so before. -/
def closes : Input → Bool
  | .command (.close _) => true
  | .orphaned => true
  | _ => false

/-- Who is to be told that the realm has been left. -/
def closer? : Input → Option Box
  | .command (.close box) => box
  | _ => none

/-- The time that goes by, in milliseconds. -/
def wait : Input → Nat
  | .elapse time => time
  | _ => 0

end Input

/-- What there is to the close of a session: how far it has come, who waits for it, and who has been
told. -/
structure Parting where
  phase : Phase
  deadline : Option Nat
  waiters : List Box
  told : List Box

namespace Parting

/-- The session has ended, and everyone has been told. -/
def ended (p : Parting) (gone : List Box) : Parting :=
  ⟨.closed, none, [], p.told ++ p.waiters.filter fun box => !gone.contains box⟩

/-- The program leaves the realm. Once it has, there is only somebody more who waits. -/
def leaving (p : Parting) (due : Nat) (box : Option Box) : Parting :=
  match p.phase with
  | .established => ⟨.closing, some due, p.waiters ++ box.toList, p.told⟩
  | .closing => { p with waiters := p.waiters ++ box.toList }
  | _ => p

variable {p : Parting} {due : Nat} {box : Option Box}

theorem leaving_of_established (opened : p.phase = .established) :
    p.leaving due box = ⟨.closing, some due, p.waiters ++ box.toList, p.told⟩ := by
  rw [leaving, opened]

theorem leaving_of_closing (left : p.phase = .closing) :
    p.leaving due box = { p with waiters := p.waiters ++ box.toList } := by
  rw [leaving, left]

theorem leaving_of_closed (closed : p.phase = .closed) : p.leaving due box = p := by
  rw [leaving, closed]

/-- There is a deadline just while the session is closing, nobody waits at any other time, and
nobody has been told before the end. -/
structure Fit (p : Parting) : Prop where
  phase : p.phase = .established ∨ p.phase = .closing ∨ p.phase = .closed
  deadline : p.deadline.isSome = true ↔ p.phase = .closing
  waiters : p.waiters ≠ [] → p.phase = .closing
  told : p.told ≠ [] → p.phase = .closed

theorem fit_ended (p : Parting) (gone : List Box) : (p.ended gone).Fit :=
  ⟨Or.inr (Or.inr rfl), by simp [ended], by simp [ended], fun _ => rfl⟩

theorem Fit.leaving (fit : p.Fit) (due : Nat) (box : Option Box) : (p.leaving due box).Fit := by
  rcases fit.phase with opened | left | closed
  · rw [leaving_of_established opened]
    refine ⟨Or.inr (Or.inl rfl), by simp, fun _ => rfl, fun some => ?_⟩
    exact absurd (opened.symm.trans (fit.told some)) (by simp)
  · rw [leaving_of_closing left]
    exact ⟨fit.phase, fit.deadline, fun _ => left, fit.told⟩
  · rwa [leaving_of_closed closed]

end Parting

namespace Session

variable {s t u : Session} {m : Message} {input : Input}

def told (s : Session) : List Box := (s.posts.filter fun e => e.2.isLeft).map Prod.fst

def parting (s : Session) : Parting := ⟨s.phase, s.deadline, s.closeWaiters, s.told⟩

/-- What no part of a step touches. -/
def setting (s : Session) : Nat × Nat × List Box := (s.now, s.closeTimeout, s.gone)

/-- Nothing comes of it for those who leave, unless the session ends. -/
structure Lingers (s t : Session) : Prop where
  setting : t.setting = s.setting
  parting : t.parting = s.parting ∨ s.phase ≠ .closed ∧ t.parting = s.parting.ended s.gone

theorem Lingers.gone (lingers : s.Lingers t) : t.gone = s.gone :=
  congrArg (fun x : Nat × Nat × List Box => x.2.2) lingers.setting

theorem phase_of_parting {p : Parting} (same : t.parting = p) : t.phase = p.phase :=
  congrArg Parting.phase same

theorem Lingers.trans (one : s.Lingers t) (two : t.Lingers u) : s.Lingers u where
  setting := two.setting.trans one.setting
  parting := by
    rcases one.parting with same | ⟨live, ended⟩
    · have phase : t.phase = s.phase := phase_of_parting same
      rcases two.parting with same' | ⟨live, ended⟩
      · exact Or.inl (same'.trans same)
      · rw [same, one.gone] at ended
        exact Or.inr ⟨phase ▸ live, ended⟩
    · have closed : t.phase = .closed := phase_of_parting ended
      rcases two.parting with same' | ⟨live', -⟩
      · exact Or.inr ⟨live, same'.trans ended⟩
      · exact absurd closed live'

theorem lingers_refl (s : Session) : s.Lingers s := ⟨rfl, Or.inl rfl⟩

/-! ### Posts -/

theorem told_append {entries : List (Box × Post)} (posts : t.posts = s.posts ++ entries) :
    t.told = s.told ++ (entries.filter fun e => e.2.isLeft).map Prod.fst := by
  rw [told, told, posts, List.filter_append, List.map_append]

theorem told_of_other {entries : List (Box × Post)} (posts : t.posts = s.posts ++ entries)
    (other : ∀ e ∈ entries, e.2.isLeft = false) : t.told = s.told := by
  have none : (entries.filter fun e => e.2.isLeft) = [] :=
    List.filter_eq_nil_iff.mpr fun e there => by simp [other e there]
  rw [told_append posts, none, List.map_nil, List.append_nil]

theorem lingers_posts {entries : List (Box × Post)} (outward : t.outward = s.outward)
    (setting : t.setting = s.setting) (posts : t.posts = s.posts ++ entries)
    (other : ∀ e ∈ entries, e.2.isLeft = false) : s.Lingers t := by
  obtain ⟨lifecycle, -, deadline, waiters⟩ :
      t.toLifecycle = s.toLifecycle ∧ t.wire = s.wire ∧ t.deadline = s.deadline ∧
        t.closeWaiters = s.closeWaiters := by simpa [Session.outward] using outward
  refine ⟨setting, Or.inl ?_⟩
  rw [parting, parting, lifecycle, deadline, waiters, told_of_other posts other]

theorem lingers_quiet (outward : t.outward = s.outward) (setting : t.setting = s.setting)
    (posts : t.posts = s.posts) : s.Lingers t :=
  lingers_posts outward setting (posts.trans (List.append_nil _).symm) (by simp)

theorem lingers_answer (s : Session) (box : Option Box) {p : Post} (other : p.isLeft = false) :
    s.Lingers (s.answer box p) := by
  have posts := congrArg Session.posts (answer_eq s box p)
  refine lingers_posts (outward_answer s box p) (by rw [answer_eq]; rfl) posts fun e there => ?_
  obtain ⟨b, -, rfl⟩ := List.mem_map.mp (mem_arriving.mp there).1
  exact other

/-! ### The end -/

theorem isLeft_of_lastPosts {f : Failure} {target : Target} {e : Box × Post}
    (put : e ∈ target.lastPosts f) : e.2.isLeft = false := by
  rcases target with ⟨_ | box, change⟩ | box | feed | cell <;>
    simp only [Target.lastPosts, List.not_mem_nil, List.mem_singleton] at put <;> rw [put] <;> rfl

theorem told_lastPosts (s : Session) (f : Failure) :
    ((s.arriving (s.lastPosts f)).filter fun e => e.2.isLeft).map Prod.fst =
      s.closeWaiters.filter fun box => !s.gone.contains box := by
  have routes : (s.router.routes.flatMap fun x => x.handler.lastPosts f).filter
      (fun e => e.2.isLeft) = [] := by
    refine List.filter_eq_nil_iff.mpr fun e there => ?_
    obtain ⟨x, -, put⟩ := List.mem_flatMap.mp there
    simp [isLeft_of_lastPosts put]
  have waiters : (s.closeWaiters.map fun box => ((box, .left) : Box × Post)).filter
      (fun e => e.2.isLeft) = s.closeWaiters.map fun box => (box, .left) :=
    List.filter_eq_self.mpr fun e there => by
      obtain ⟨box, -, rfl⟩ := List.mem_map.mp there
      rfl
  have heard : ((s.lastPosts f).filter fun e => e.2.isLeft) =
      s.closeWaiters.map fun box => (box, .left) := by
    rw [lastPosts, List.filter_append, routes, waiters, List.nil_append]
  rw [arriving, List.filter_comm, heard, List.filter_map, List.map_map]
  exact List.map_id _

theorem parting_terminate (live : s.phase ≠ .closed) (f : Failure) :
    (s.terminate f).parting = s.parting.ended s.gone := by
  rw [terminate_eq live, parting, told_append rfl, told_lastPosts]
  rfl

theorem setting_terminate (s : Session) (f : Failure) : (s.terminate f).setting = s.setting := by
  by_cases live : s.phase = .closed
  · rw [terminate_closed live]
  · rw [terminate_eq live]
    rfl

theorem lingers_terminate (s : Session) (f : Failure) : s.Lingers (s.terminate f) := by
  refine ⟨setting_terminate s f, ?_⟩
  by_cases live : s.phase = .closed
  · rw [terminate_closed live]
    exact Or.inl rfl
  · exact Or.inr ⟨live, parting_terminate live f⟩

theorem lingers_transmit (s : Session) (i : StreamItem) : s.Lingers (s.transmit i).1 :=
  ⟨rfl, Or.inl rfl⟩

theorem lingers_retiring (s : Session) (m : Message) : s.Lingers (s.retiring m) := by
  rcases retiring_cases s m with same | ⟨request, route, -, retired⟩
  · rw [same]
    exact lingers_refl s
  · rw [retired]
    exact ⟨rfl, Or.inl rfl⟩

theorem lingers_sendOrTerminate (s : Session) (m : Message) :
    s.Lingers (s.sendOrTerminate m).1 := by
  have sent := (lingers_retiring s m).trans (lingers_transmit _ (.message m))
  rcases sendOrTerminate_left s m with left | ⟨description, left⟩
  · rwa [left]
  · rw [left]
    exact sent.trans (lingers_terminate _ _)

/-! ### Messages that are handed around -/

theorem lingers_handOver (s : Session) (box : Option Box) (m : Message)
    (change : Option RouteChange) : s.Lingers (s.handOver box m change) := by
  have changed : s.Lingers (s.changeRoutes m change).1 := by
    rcases change with _ | feed | route
    · exact lingers_refl s
    · simp only [changeRoutes]
      split <;> exact ⟨rfl, Or.inl rfl⟩
    · simp only [changeRoutes]
      split <;> exact ⟨rfl, Or.inl rfl⟩
  rw [handOver]
  cases box with
  | none => exact changed
  | some box =>
    dsimp only
    split
    · refine changed.trans ?_
      cases (s.changeRoutes m change).2 with
      | none => exact lingers_refl _
      | some route => exact ⟨rfl, Or.inl rfl⟩
    · exact changed.trans (lingers_answer _ (some box) rfl)

theorem lingers_errands (es : List Errand) (s : Session) : s.Lingers (es.foldl runErrand s) := by
  induction es generalizing s with
  | nil => exact lingers_refl s
  | cons e rest ih =>
    refine Lingers.trans ?_ (ih _)
    cases e with
    | handOver box reply change => exact lingers_handOver s box reply change
    | watch request cell =>
      rcases watch_eq s request cell with watched | ⟨previous, -, watched⟩ <;>
        exact lingers_quiet (by rw [runErrand, watched]; rfl) (by rw [runErrand, watched]; rfl)
          (by rw [runErrand, watched]; rfl)
    | turnAway request => exact lingers_sendOrTerminate s _

theorem lingers_noteUnmatched (s : Session) (m : Message) : s.Lingers (s.noteUnmatched m) := by
  have noted : ∀ t : Session, t.Lingers (t.report unmatched m) := fun t => ⟨rfl, Or.inl rfl⟩
  cases m with
  | invocation request registration details payload =>
    exact (lingers_sendOrTerminate s _).trans (noted _)
  | _ => exact noted s

theorem isLeft_of_posts {gone : List Box} {cell : Cell} {target : Target} {e : Box × Post}
    (put : e ∈ target.posts gone m cell) : e.2.isLeft = false := by
  rcases target with ⟨box, change⟩ | box | (box | box) | cell <;> cases m <;>
    simp only [Target.posts, List.not_mem_nil] at put <;> split at put <;> simp_all [Post.isLeft]

theorem lingers_handedAround (sound : s.Sound) (m : Message) : s.Lingers (s.handedAround m) := by
  obtain ⟨new, posts, origin⟩ := posts_handedAround sound m
  refine lingers_posts rfl rfl posts fun e there => ?_
  obtain ⟨y, -, -, cell, put⟩ := origin e there
  exact isLeft_of_posts put

theorem lingers_distribute (sound : s.Sound) (m : Message) : s.Lingers (s.distribute m) := by
  have done := (lingers_handedAround sound m).trans
    (lingers_errands (s.distributed m).2.2.errands _)
  rw [distribute_eq]
  dsimp only
  split
  · exact done
  · exact done.trans (lingers_noteUnmatched _ m)

/-! ### Steps -/

theorem lingers_partFrom (opened : s.phase = .established) (reason : Uri) (m : Message) :
    s.Lingers (s.partFrom reason m) := by
  let t : Session :=
    (s.enter .closing).transmitAnyway (.message CloseReason.goodbyeAndOut.goodbye)
  have entered := enter_of_may (Front.mayEnter_closing opened)
  have phase : t.phase = .closing := by
    simp only [t, transmitAnyway, transmit, entered]
  have setting : t.setting = s.setting := by
    simp only [t, transmitAnyway, transmit, entered]
    rfl
  have both : t.parting.ended t.gone = s.parting.ended s.gone := by
    simp only [t, transmitAnyway, transmit, entered]
    rfl
  have still : t.phase ≠ .closed := by simp [phase]
  exact ⟨(setting_terminate t _).trans setting,
    Or.inr ⟨by simp [opened], (parting_terminate still _).trans both⟩⟩

theorem lingers_receive (sound : s.Sound) (m : Message) : s.Lingers (s.receive m) := by
  rcases receive_cases s m with
    ⟨-, ⟨details, reason, -, opened, same⟩ | ⟨f, -, same⟩ | same⟩ | same <;> rw [same]
  · exact lingers_partFrom opened reason m
  · exact lingers_terminate s f
  · exact ⟨rfl, Or.inl rfl⟩
  · exact lingers_distribute sound m

theorem lingers_arrive (sound : s.Sound) (a : Arrival) : s.Lingers (s.arrive a) := by
  cases a with
  | item i =>
    cases i with
    | message m => exact lingers_receive sound m
    | ping data => exact lingers_transmit s _
  | failed description => exact (lingers_transmit s _).trans (lingers_terminate _ _)
  | ended => exact lingers_terminate s _

theorem lingers_obey {c : Command} (other : (Input.command c).closes = false) :
    s.Lingers (s.obey c) := by
  cases c with
  | send m box =>
    rw [obey]
    split
    · exact (lingers_sendOrTerminate s m).trans (lingers_answer _ box rfl)
    · exact lingers_answer s box rfl
  | request m keys target box =>
    have added : s.Lingers { s with router := (s.router.add keys target).1 } := ⟨rfl, Or.inl rfl⟩
    exact request_keeps (P := s.Lingers) (lingers_refl s) m keys target box
      (fun _ => added.trans (lingers_sendOrTerminate _ m))
      (fun _ sent => sent.trans ⟨rfl, Or.inl rfl⟩)
      (fun t _ sent => sent.trans (lingers_answer t box rfl))
  | removeRoute route => exact ⟨rfl, Or.inl rfl⟩
  | close box => simp [Input.closes] at other

/-- The session at the time that it is by the end of the input. -/
def later (s : Session) (input : Input) : Session := { s with now := s.now + input.wait }

theorem lingers_elapse (s : Session) (time : Nat) :
    (s.later (.elapse time)).Lingers (s.elapse time) := by
  rcases elapse_cases s time with same | same <;> rw [same]
  · exact lingers_refl _
  · exact lingers_terminate _ _

/-- What is left of the close, for those who leave, after an input that does not end the session. -/
def awaiting (s : Session) (input : Input) : Parting :=
  if input.closes then s.parting.leaving (s.now + s.closeTimeout) input.closer? else s.parting

/-- The session is one that has joined its realm, and has not ended yet. -/
def Goes (s : Session) : Prop := s.phase = .established ∨ s.phase = .closing

theorem Goes.live (goes : s.Goes) : s.phase ≠ .closed := by
  rcases goes with opened | left
  · simp [opened]
  · simp [left]

theorem lingers_startLeaving (goes : s.Goes) (box : Option Box) :
    (s.startLeaving box).setting = s.setting ∧
      let p := s.parting.leaving (s.now + s.closeTimeout) box
      ((s.startLeaving box).parting = p ∨ (s.startLeaving box).parting = p.ended s.gone) := by
  rcases goes with opened | leaving
  · have parting : (s.settingOut box).parting =
        s.parting.leaving (s.now + s.closeTimeout) box := by
      rw [Parting.leaving_of_established opened]
      rfl
    have lingers := lingers_sendOrTerminate (s.settingOut box) CloseReason.closeRealm.goodbye
    rw [startLeaving_of_established opened, ← parting]
    exact ⟨lingers.setting, lingers.parting.imp_right And.right⟩
  · rw [startLeaving_of_closing leaving, Parting.leaving_of_closing leaving]
    exact ⟨rfl, Or.inl rfl⟩

/-- What an input comes to for those who leave: the session goes on, or it ends and they are
told. -/
theorem step_of_goes (sound : s.Sound) (goes : s.Goes) (heeds : ∀ box, input ≠ .forget box) :
    (s.step input).setting = (s.later input).setting ∧
      ((s.step input).parting = s.awaiting input ∨
        (s.step input).parting = (s.awaiting input).ended s.gone) := by
  have live := goes.live
  have calm : ∀ t, input.closes = false → (s.later input).Lingers t →
      t.setting = (s.later input).setting ∧
        (t.parting = s.awaiting input ∨ t.parting = (s.awaiting input).ended s.gone) := by
    intro t other lingers
    have awaits : s.awaiting input = s.parting := by
      rw [awaiting, other]
      rfl
    rw [awaits]
    exact ⟨lingers.setting, lingers.parting.imp_right And.right⟩
  cases input with
  | forget box => exact absurd rfl (heeds box)
  | arrival a =>
    rw [step, if_neg live]
    exact calm _ rfl (lingers_arrive sound a)
  | elapse time =>
    rw [step, if_neg live]
    exact calm _ rfl (lingers_elapse s time)
  | orphaned =>
    rw [step, if_neg live]
    exact lingers_startLeaving goes none
  | command c =>
    rw [step, if_neg live]
    cases c with
    | close box => exact lingers_startLeaving goes box
    | _ => exact calm _ rfl (lingers_obey rfl)

theorem awaiting_of_other (other : input.closes = false) : s.awaiting input = s.parting := by
  rw [awaiting, other]
  rfl

theorem awaiting_of_closes (closes : input.closes = true) :
    s.awaiting input = s.parting.leaving (s.now + s.closeTimeout) input.closer? := if_pos closes

theorem awaiting_of_closed (closed : s.phase = .closed) : s.awaiting input = s.parting := by
  rw [awaiting]
  split
  · exact Parting.leaving_of_closed closed
  · rfl

theorem awaiting_of_left (left : s.phase = .closing) (input : Input) :
    (s.awaiting input).phase = .closing ∧ (s.awaiting input).deadline = s.deadline := by
  rw [awaiting]
  split
  · rw [Parting.leaving_of_closing left]
    exact ⟨left, rfl⟩
  · exact ⟨left, rfl⟩

theorem parting_step (sound : s.Sound) (fit : s.parting.Fit) (input : Input) :
    (s.step input).parting = s.awaiting input ∨
      s.Goes ∧ (s.step input).parting = (s.awaiting input).ended s.gone := by
  by_cases heeds : ∃ box, input = .forget box
  · obtain ⟨box, rfl⟩ := heeds
    exact Or.inl rfl
  have heeds' : ∀ box, input ≠ .forget box := fun box same => heeds ⟨box, same⟩
  have goes : s.Goes → _ := fun goes =>
    (step_of_goes sound goes heeds').2.imp_right fun ended => And.intro goes ended
  rcases fit.phase with opened | left | closed
  · exact goes (Or.inl opened)
  · exact goes (Or.inr left)
  · rw [step_closed closed heeds', awaiting_of_closed closed]
    exact Or.inl rfl

theorem fit_step (sound : s.Sound) (fit : s.parting.Fit) (input : Input) :
    (s.step input).parting.Fit := by
  have awaits : (s.awaiting input).Fit := by
    rw [awaiting]
    split
    · exact fit.leaving _ _
    · exact fit
  rcases parting_step sound fit input with same | ⟨-, ended⟩
  · rwa [same]
  · rw [ended]
    exact Parting.fit_ended _ _

/-- A session that is closing after a step was before, with the same deadline, or the program has
just left the realm. -/
theorem closing_step (sound : s.Sound) (fit : s.parting.Fit)
    (leaving : (s.step input).phase = .closing) :
    s.phase = .closing ∧ (s.step input).deadline = s.deadline ∨
      s.phase = .established ∧ input.closes = true ∧
        (s.step input).deadline = some (s.now + s.closeTimeout) := by
  have phase : (s.step input).parting.phase = .closing := leaving
  have deadline : (s.step input).deadline = (s.step input).parting.deadline := rfl
  rcases parting_step sound fit input with same | ⟨-, ended⟩
  · rw [deadline, same]
    rw [same] at phase
    cases closes : input.closes with
    | false =>
      rw [awaiting_of_other closes] at phase ⊢
      exact Or.inl ⟨phase, rfl⟩
    | true =>
      rw [awaiting_of_closes closes] at phase ⊢
      rcases fit.phase with opened | left | closed
      · rw [Parting.leaving_of_established opened]
        exact Or.inr ⟨opened, rfl, rfl⟩
      · rw [Parting.leaving_of_closing left]
        exact Or.inl ⟨left, rfl⟩
      · rw [Parting.leaving_of_closed closed] at phase
        exact nomatch closed.symm.trans phase
  · rw [ended] at phase
    exact nomatch phase

/-- How a step changes what there is besides. -/
structure Onward (s : Session) (input : Input) (t : Session) : Prop where
  timeout : t.closeTimeout = s.closeTimeout
  clock : s.Goes → t.now = s.now + input.wait
  gone : ∀ box, box ∉ t.gone → box ∉ s.gone

theorem onward_step (sound : s.Sound) (fit : s.parting.Fit) (input : Input) :
    s.Onward input (s.step input) := by
  by_cases heeds : ∃ box, input = .forget box
  · obtain ⟨box, rfl⟩ := heeds
    exact ⟨rfl, fun _ => rfl, fun b heard there => heard (List.mem_cons_of_mem _ there)⟩
  have heeds' : ∀ box, input ≠ .forget box := fun box same => heeds ⟨box, same⟩
  have goes : s.Goes → s.Onward input (s.step input) := fun goes => by
    have setting := (step_of_goes sound goes heeds').1
    obtain ⟨now, timeout, gone⟩ : (s.step input).now = (s.later input).now ∧
        (s.step input).closeTimeout = s.closeTimeout ∧ (s.step input).gone = s.gone := by
      simpa [Session.setting, later] using setting
    exact ⟨timeout, fun _ => now, fun box heard => gone ▸ heard⟩
  rcases fit.phase with opened | left | closed
  · exact goes (Or.inl opened)
  · exact goes (Or.inr left)
  · rw [step_closed closed heeds']
    exact ⟨rfl, fun goes => absurd closed goes.live, fun _ => id⟩

/-! ### Runs -/

def waited : List Input → Nat
  | [] => 0
  | input :: rest => input.wait + waited rest

theorem waited_append (before after : List Input) :
    waited (before ++ after) = waited before + waited after := by
  induction before with
  | nil => exact (Nat.zero_add _).symm
  | cons input rest ih => rw [List.cons_append, waited, waited, ih, Nat.add_assoc]

/-- How often it is asked for the box to be told of the close. -/
def closings (box : Box) (inputs : List Input) : Nat :=
  inputs.countP fun input => input.closer? == some box

/-- The inputs that the session takes up before it has ended. -/
def heeded (s : Session) : List Input → List Input
  | [] => []
  | input :: rest => if s.phase = .closed then [] else input :: (s.step input).heeded rest

theorem heeded_of_closed (closed : s.phase = .closed) (inputs : List Input) :
    s.heeded inputs = [] := by
  cases inputs with
  | nil => rfl
  | cons input rest => exact if_pos closed

theorem heeded_append (s : Session) (before after : List Input) :
    s.heeded (before ++ after) = s.heeded before ++ (s.run before).heeded after := by
  induction before generalizing s with
  | nil => rfl
  | cons input rest ih =>
    by_cases closed : s.phase = .closed
    · have late : (s.run (input :: rest)).phase = .closed := closed_run closed _
      rw [heeded_of_closed closed, heeded_of_closed closed, heeded_of_closed late, List.append_nil]
    · have split : ∀ inputs, s.heeded (input :: inputs) = input :: (s.step input).heeded inputs :=
        fun _ => if_neg closed
      rw [List.cons_append, split, split, ih]
      rfl

theorem run_concat (s : Session) (inputs : List Input) (input : Input) :
    s.run (inputs ++ [input]) = (s.run inputs).step input := run_append s inputs [input]

theorem fit_run (sound : s.Sound) (fit : s.parting.Fit) (inputs : List Input) :
    (s.run inputs).parting.Fit := by
  induction inputs generalizing s with
  | nil => exact fit
  | cons input rest ih => exact ih (sound.step input) (fit_step sound fit input)

theorem goes_of_step (fit : s.parting.Fit) (goes : (s.step input).Goes) : s.Goes := by
  rcases fit.phase with opened | left | closed
  · exact Or.inl opened
  · exact Or.inr left
  · exact absurd (closed_step closed input) goes.live

theorem now_run (sound : s.Sound) (fit : s.parting.Fit) (inputs : List Input)
    (goes : (s.run inputs).Goes) : (s.run inputs).now = s.now + waited inputs := by
  induction inputs using List.reverseRecOn with
  | nil => rfl
  | append_singleton inputs input ih =>
    have sound' := sound.run inputs
    have fit' := fit_run sound fit inputs
    rw [run_concat] at goes ⊢
    have before := goes_of_step fit' goes
    rw [(onward_step sound' fit' input).clock before, ih before, waited_append, Nat.add_assoc]
    rfl

theorem timeout_run (sound : s.Sound) (fit : s.parting.Fit) (inputs : List Input) :
    (s.run inputs).closeTimeout = s.closeTimeout := by
  induction inputs generalizing s with
  | nil => rfl
  | cons input rest ih =>
    exact (ih (sound.step input) (fit_step sound fit input)).trans
      (onward_step sound fit input).timeout

/-- A session is closing because the program has left the realm; the deadline is counted from that
moment on. -/
theorem deadline_run (sound : s.Sound) (fit : s.parting.Fit) (fresh : s.phase ≠ .closing)
    (inputs : List Input) (leaving : (s.run inputs).phase = .closing) :
    ∃ before input after, inputs = before ++ input :: after ∧
      (s.run before).phase = .established ∧ input.closes = true ∧
        (s.run inputs).deadline = some (s.now + waited before + s.closeTimeout) := by
  induction inputs using List.reverseRecOn with
  | nil => exact absurd leaving fresh
  | append_singleton inputs input ih =>
    have sound' := sound.run inputs
    have fit' := fit_run sound fit inputs
    rw [run_concat] at leaving ⊢
    rcases closing_step sound' fit' leaving with ⟨left, same⟩ | ⟨opened, closes, due⟩
    · obtain ⟨before, first, after, rfl, opened, closes, due⟩ := ih left
      refine ⟨before, first, after ++ [input], by simp, opened, closes, same.trans due⟩
    · rw [now_run sound fit inputs (Or.inl opened), timeout_run sound fit] at due
      exact ⟨inputs, input, [], rfl, opened, closes, due⟩

/-- From then on it stays closing, with the deadline that it has, until it ends. -/
theorem run_of_closing (sound : s.Sound) (fit : s.parting.Fit) (left : s.phase = .closing)
    (inputs : List Input) : (s.run inputs).phase = .closed ∨
      (s.run inputs).phase = .closing ∧ (s.run inputs).deadline = s.deadline ∧
        (s.run inputs).now = s.now + waited inputs := by
  induction inputs using List.reverseRecOn with
  | nil => exact Or.inr ⟨left, rfl, rfl⟩
  | append_singleton inputs input ih =>
    have sound' := sound.run inputs
    have fit' := fit_run sound fit inputs
    rw [run_concat]
    rcases ih with closed | ⟨still, same, now⟩
    · exact Or.inl (closed_step closed input)
    · rcases parting_step sound' fit' input with awaits | ⟨-, ended⟩
      · obtain ⟨phase, deadline⟩ := awaiting_of_left still input
        have clock := (onward_step sound' fit' input).clock (Or.inr still)
        refine Or.inr ⟨(phase_of_parting awaits).trans phase,
          (congrArg Parting.deadline awaits).trans (deadline.trans same), ?_⟩
        rw [clock, now, waited_append, Nat.add_assoc]
        rfl
      · exact Or.inl (phase_of_parting ended)

/-- A session that is closing ends when the close timeout has gone by, if it has not ended
before. -/
theorem run_of_overdue (sound : s.Sound) (fit : s.parting.Fit) {due : Nat}
    (deadline : s.deadline = some due) (later : List Input) {time : Nat}
    (reached : due ≤ s.now + waited later + time) :
    (s.run (later ++ [.elapse time])).phase = .closed := by
  have left : s.phase = .closing := fit.deadline.mp (by simp [parting, deadline])
  rw [run_concat]
  rcases run_of_closing sound fit left later with closed | ⟨still, same, now⟩
  · exact closed_step closed _
  · let t := (s.run later).later (.elapse time)
    have live : t.phase ≠ .closed := Goes.live (s := s.run later) (Or.inr still)
    have due' : t.deadline = some due := same.trans deadline
    have reached : due ≤ t.now := by
      show due ≤ (s.run later).now + time
      rwa [now]
    have ended : (s.run later).step (.elapse time) = t.terminate Failure.sessionClosed :=
      (if_neg live).trans (elapse_of_due due' reached)
    rw [ended]
    exact phase_of_parting (parting_terminate live _)

/-! ### Answers -/

theorem closer?_of_other (other : input.closes = false) : input.closer? = none := by
  cases input with
  | command c => cases c <;> first | rfl | exact nomatch other
  | _ => rfl

theorem count_awaiting (goes : s.Goes) (input : Input) (box : Box) :
    (s.awaiting input).told.count box + (s.awaiting input).waiters.count box =
      s.told.count box + s.closeWaiters.count box + closings box [input] := by
  cases closes : input.closes with
  | false =>
    have nobody : closings box [input] = 0 := by simp [closings, closer?_of_other closes]
    rw [awaiting_of_other closes, nobody]
    rfl
  | true =>
    have asked : closings box [input] = input.closer?.toList.count box := by
      cases who : input.closer? <;> simp [closings, who, List.count_singleton]
    rw [awaiting_of_closes closes, asked]
    rcases goes with opened | left
    · rw [Parting.leaving_of_established opened, List.count_append, Nat.add_assoc]
      rfl
    · rw [Parting.leaving_of_closing left, List.count_append, Nat.add_assoc]
      rfl

theorem count_ended (p : Parting) {gone : List Box} {box : Box} (heard : box ∉ gone) :
    (p.ended gone).told.count box + (p.ended gone).waiters.count box =
      p.told.count box + p.waiters.count box := by
  have counted : (p.waiters.filter fun b => !gone.contains b).count box = p.waiters.count box :=
    List.count_filter (by simpa using heard)
  rw [Parting.ended, List.count_append, counted]
  rfl

theorem count_step (sound : s.Sound) (fit : s.parting.Fit) (input : Input) {box : Box}
    (heard : box ∉ (s.step input).gone) :
    (s.step input).told.count box + (s.step input).closeWaiters.count box =
      s.told.count box + s.closeWaiters.count box + closings box (s.heeded [input]) := by
  have shares : ∀ t : Session, t.told.count box + t.closeWaiters.count box =
    t.parting.told.count box + t.parting.waiters.count box := fun _ => rfl
  have goes : s.Goes → (s.step input).told.count box + (s.step input).closeWaiters.count box =
      s.told.count box + s.closeWaiters.count box + closings box (s.heeded [input]) := by
    intro goes
    have all : s.heeded [input] = [input] := if_neg goes.live
    rw [all, ← count_awaiting goes, shares]
    rcases parting_step sound fit input with same | ⟨-, ended⟩
    · rw [same]
    · rw [ended, count_ended _ ((onward_step sound fit input).gone box heard)]
  rcases fit.phase with opened | left | closed
  · exact goes (Or.inl opened)
  · exact goes (Or.inr left)
  · rcases parting_step sound fit input with same | ⟨live, -⟩
    · rw [shares, same, awaiting_of_closed closed, heeded_of_closed closed]
      rfl
    · exact absurd closed live.live

/-- Everyone who was told of the close, or waits for it, has asked for that. -/
theorem count_run (sound : s.Sound) (fit : s.parting.Fit) (inputs : List Input) {box : Box}
    (heard : box ∉ (s.run inputs).gone) :
    (s.run inputs).told.count box + (s.run inputs).closeWaiters.count box =
      s.told.count box + s.closeWaiters.count box + closings box (s.heeded inputs) := by
  induction inputs using List.reverseRecOn with
  | nil => rfl
  | append_singleton inputs input ih =>
    have sound' := sound.run inputs
    have fit' := fit_run sound fit inputs
    rw [run_concat] at heard ⊢
    have heard' := (onward_step sound' fit' input).gone box heard
    have all : closings box (s.heeded (inputs ++ [input])) =
        closings box (s.heeded inputs) + closings box ((s.run inputs).heeded [input]) := by
      rw [heeded_append]
      exact List.countP_append
    rw [count_step sound' fit' input heard, ih heard', all, Nat.add_assoc]

theorem fit_established (wire : Wire) (now closeTimeout : Nat) :
    (established wire now closeTimeout).parting.Fit :=
  ⟨Or.inl rfl, by simp [parting, established, Lifecycle.joined, Lifecycle.enter, Lifecycle.joining,
    Lifecycle.begun, Phase.mayEnter], fun some => absurd rfl some, fun some => absurd rfl some⟩

end Session

end WampClient
