import WampClient.Proofs.Session.Deliveries

/-! A step of a session, as someone sees it who waits on a box that one route alone feeds. -/
namespace WampClient

/-- Whether the input asks for something to be put into the box. -/
def Input.feeds (b : Box) : Input → Bool
  | .command c => c.feeds b
  | _ => false

/-- With more posts in the box. -/
def Outlook.given (o : Outlook) (new : List Post) : Outlook := { o with posts := o.posts ++ new }

theorem Route.id_of_takes {x : Route Target} {key : RouteKey}
    (ided : ∀ key ∈ x.keys, key.id ≠ none) (takes : x.takes key = true) : key.id ≠ none := by
  rcases (x.takes_iff key).mp takes with general | own
  · exact absurd rfl (ided _ general)
  · exact ided _ own

namespace Session

variable {x : Route Target} {b : Box} {s : Session} {m : Message} {input : Input}

/-- Whether the input makes an end of the use of the route: it is to be taken out, or the reply has
come that it is taken out with. -/
def withdraws (s : Session) (h : Handle) : Input → Bool
  | .arrival (.item (.message m)) => m.confirmsGone &&
    s.router.routes.any fun y => y.handler.removes h && y.takes (RouteKey.ofMessage m)
  | .command (.removeRoute route) => route == h
  | _ => false

/-- The routes, whether there was one for the message, and what has come of handing it around. -/
def distributed (s : Session) (m : Message) : Router Target × Bool × Tray :=
  s.router.dispatch (RouteKey.ofMessage m) (Target.deliver s.gone m) ⟨[], [], s.nextCell, []⟩

/-- The session once a message has been handed around, with everything else still put off. -/
def handedAround (s : Session) (m : Message) : Session :=
  s.carrying (s.distributed m).1 (s.distributed m).2.2

theorem distribute_eq (s : Session) (m : Message) :
    s.distribute m =
      let t := (s.distributed m).2.2.errands.foldl runErrand (s.handedAround m)
      if (s.distributed m).2.1 then t else t.noteUnmatched m := rfl

theorem carrying_self (s : Session) : s.carrying s.router ⟨[], [], s.nextCell, []⟩ = s := by
  simp [carrying]

/-! ### What is put off -/

theorem mem_matching (sound : s.Sound) {y : Route Target} (there : y ∈ s.router.routes)
    {key : RouteKey} : y.handle ∈ s.router.matching key ↔ y.takes key = true := by
  rw [sound.tidy.mem_matching_iff]
  refine ⟨fun ⟨z, among, same, takes⟩ => ?_, fun takes => ⟨y, there, rfl, takes⟩⟩
  rwa [Router.eq_of_handle_eq sound.tidy.ordered there among same.symm]

theorem errand_origin (sound : s.Sound) {e : Errand} (put : e ∈ (s.distributed m).2.2.errands) :
    ∃ y ∈ s.router.routes, y.takes (RouteKey.ofMessage m) = true ∧
      ∃ cell, e ∈ y.handler.errands s.gone m cell := by
  obtain ⟨new, same, origin⟩ := errands_visits sound.tidy s.gone m
    (s.router.matching (RouteKey.ofMessage m)) false ⟨[], [], s.nextCell, []⟩
  obtain ⟨y, there, called, due⟩ := origin e (by rwa [← List.nil_append new, ← same])
  exact ⟨y, there, (mem_matching sound there).mp called, due⟩

theorem any_removes_errands (sound : s.Sound) (m : Message) (h : Handle) :
    (s.distributed m).2.2.errands.any (fun e => e.removes h) =
      s.withdraws h (.arrival (.item (.message m))) := by
  rw [Bool.eq_iff_iff, List.any_eq_true, withdraws, Bool.and_eq_true, List.any_eq_true]
  constructor
  · rintro ⟨e, put, removes⟩
    obtain ⟨y, there, takes, cell, due⟩ := errand_origin sound put
    obtain ⟨confirms, own⟩ := Errand.removes_of_mem due removes
    exact ⟨confirms, y, there, by simp [own, takes]⟩
  · rintro ⟨confirms, y, there, own⟩
    obtain ⟨own, takes⟩ := Bool.and_eq_true_iff.mp own
    obtain ⟨box, waits⟩ : ∃ box, y.handler = .reply box (some (.remove h)) := by
      rcases handler : y.handler with ⟨box, _ | feed | route⟩ | box | feed | cell <;>
        simp_all [Target.removes]
    have put := mem_errands_visits sound.tidy s.gone m false ⟨[], [], s.nextCell, []⟩ waits there
      ((mem_matching sound there).mpr takes)
    exact ⟨_, put, by simp [Errand.removes, confirms, Target.removes]⟩

/-- What is put off is done, and a message that nobody took is noted. -/
theorem Sole.becomes_distribute (sole : (s.handedAround m).Sole x b)
    (mine : x.handler.feeds b = true) (sound : s.Sound)
    (silent : ∀ e ∈ (s.distributed m).2.2.errands, e.feeds b = false)
    (free : (∀ f, x.handler.lastPostsTo b f = []) ∨
      s.withdraws x.handle (.arrival (.item (.message m))) = false) :
    Becomes x b (((s.handedAround m).outlook b).withdrawnIf
      (s.withdraws x.handle (.arrival (.item (.message m))))) (s.handedAround m)
      (s.distribute m) := by
  rw [← any_removes_errands sound] at free ⊢
  have done := sole.becomes_errands mine silent free
  rw [distribute_eq]
  dsimp only
  split
  · exact done
  · exact done.trans (done.sole.calm_noteUnmatched m)

theorem not_feeds_errands (sole : s.Sole x b) (apart : x ∈ s.router.routes →
      x.takes (RouteKey.ofMessage m) = false ∨ ∀ box change, x.handler ≠ .reply box change) :
    ∀ e ∈ (s.distributed m).2.2.errands, e.feeds b = false := by
  intro e put
  by_contra feeds
  obtain ⟨y, there, takes, cell, due⟩ := errand_origin sole.sound put
  have fed : e.feeds b = true := by simpa using feeds
  obtain rfl := sole.routes y there (Errand.feeds_of_mem due fed)
  rcases apart there with passes | other
  · simp [takes] at passes
  · rcases Errand.of_mem due with ⟨box, change, waits, -⟩ | ⟨silent, -⟩
    · exact other box change waits
    · simp [silent b] at fed

/-! ### A message comes in -/

theorem Sole.calm_handedAround (sole : s.Sole x b)
    (passes : x ∈ s.router.routes → x.takes (RouteKey.ofMessage m) = false) :
    Calm x b s (s.handedAround m) := by
  have start : (s.carrying s.router ⟨[], [], s.nextCell, []⟩).Sole x b := by rwa [carrying_self]
  have apart : x ∈ s.router.routes → x.handle ∉ s.router.matching (RouteKey.ofMessage m) := by
    intro there called
    simp [(mem_matching sole.sound there).mp called] at passes
    exact passes there
  have visits := start.calm_visits apart m false
  rwa [carrying_self] at visits

/-- The route does not take the message, or is not there. -/
theorem Sole.distribute_passed (sole : s.Sole x b) (mine : x.handler.feeds b = true)
    (passes : x ∈ s.router.routes → x.takes (RouteKey.ofMessage m) = false)
    (free : (∀ f, x.handler.lastPostsTo b f = []) ∨
      s.withdraws x.handle (.arrival (.item (.message m))) = false) :
    Becomes x b ((s.outlook b).withdrawnIf
      (s.withdraws x.handle (.arrival (.item (.message m))))) s (s.distribute m) := by
  have visits := sole.calm_handedAround passes
  have silent := not_feeds_errands sole fun there => Or.inl (passes there)
  exact visits.withdraws (visits.sole.becomes_distribute mine sole.sound silent free) free

/-- A visit to the route that feeds the box. -/
theorem Sole.becomes_visit {router : Router Target} {tray : Tray}
    (sole : (s.carrying router tray).Sole x b) (mouth : x.Mouth b)
    (there : x ∈ router.routes) (m : Message) (matched : Bool) :
    let o := (s.carrying router tray).outlook b
    let out := Router.visit (Target.deliver s.gone m) (router, matched, tray) x.handle
    ∃ new, new.map Post.item? = (x.handler.item? m).toList.map some ∧
      Becomes x b ((o.given new).withdrawnIf !x.handler.keeps m) (s.carrying router tray)
        (s.carrying out.1 out.2.2) := by
  intro o out
  have here : b ∉ s.gone := sole.heard
  let v := x.handler.deliver s.gone m x.handle tray
  have posts := Target.posts_deliver s.gone m x.handle x.handler tray
  obtain ⟨new, into, items⟩ := mouth.posts here m tray.nextCell
  have look : (s.carrying router v.state).outlook b = o.given new := by
    rw [outlook, postsTo_carrying s router tray v.state posts, into]
    rfl
  have put : Becomes x b (o.given new) (s.carrying router tray) (s.carrying router v.state) :=
    ⟨⟨sole.sound.congr rfl rfl, sole.routes, sole.waiters, sole.heard⟩, id, rfl, Nat.le_refl _,
      Or.inl look⟩
  have visited : out = (if x.handler.keeps m then router else router.erase x.handle, true,
      v.state) := by
    rw [← mouth.stays here m x.handle tray]
    exact visit_deliver sole.sound.tidy there s.gone m matched tray
  refine ⟨new, items, ?_⟩
  rw [visited]
  dsimp only
  cases keeps : x.handler.keeps m with
  | true => simpa using put
  | false =>
    have erased := put.sole.becomes_eraseRoute mouth.feeds x.handle
    rw [look, beq_self_eq_true] at erased
    exact put.after erased

/-- The route takes the message. -/
theorem Sole.distribute_taken (sole : s.Sole x b) (mouth : x.Mouth b) (live : s.phase ≠ .closed)
    (there : x ∈ s.router.routes) (takes : x.takes (RouteKey.ofMessage m) = true)
    (free : (∀ f, x.handler.lastPostsTo b f = []) ∨
      s.withdraws x.handle (.arrival (.item (.message m))) = false) :
    ∃ new, new.map Post.item? = (x.handler.item? m).toList.map some ∧
      Becomes x b ((((s.outlook b).given new).withdrawnIf !x.handler.keeps m).withdrawnIf
        (s.withdraws x.handle (.arrival (.item (.message m))))) s (s.distribute m) := by
  have start : (s.carrying s.router ⟨[], [], s.nextCell, []⟩).Sole x b := by rwa [carrying_self]
  obtain ⟨before, after, split, early, late⟩ :=
    Router.matching_split sole.sound.tidy there mouth.keys takes
  have first := start.calm_visits (fun _ => early) m false
  have same := first.look_of_live live
  rw [carrying_self] at first same
  rcases visited : before.foldl (Router.visit (Target.deliver s.gone m))
    (s.router, false, ⟨[], [], s.nextCell, []⟩) with ⟨router, matched, tray⟩
  rw [visited] at first same
  have there' : x ∈ router.routes := by
    have fed := (sole.feeds_iff mouth.feeds).mpr ⟨live, there⟩
    have still : (s.carrying router tray).feeds b = true := (congrArg Outlook.fed same).trans fed
    exact ((first.sole.feeds_iff mouth.feeds).mp still).2
  obtain ⟨new, items, own⟩ := first.sole.becomes_visit mouth there' m matched
  have gave := own.look_of_live live
  rw [same] at own gave
  have last := own.sole.calm_visits (fun _ => late) m
    (Router.visit (Target.deliver s.gone m) (router, matched, tray) x.handle).2.1
  have around : s.distributed m = after.foldl (Router.visit (Target.deliver s.gone m))
      (Router.visit (Target.deliver s.gone m) (router, matched, tray) x.handle) := by
    rw [distributed, Router.dispatch, split, List.foldl_append, List.foldl_cons, visited]
  have final : Becomes x b (((s.outlook b).given new).withdrawnIf !x.handler.keeps m) s
      (s.handedAround m) := by
    rw [handedAround, around]
    exact (first.after own).trans last
  have silent := not_feeds_errands sole (m := m) fun _ => Or.inr mouth.not_reply
  have rest := final.sole.becomes_distribute mouth.feeds sole.sound silent free
  exact ⟨new, items, final.withdraws rest free⟩

theorem receive_of_id (keyed : (RouteKey.ofMessage m).id ≠ none) :
    s.receive m = s.distribute m := by
  cases m with
  | hello realm details => exact absurd rfl keyed
  | welcome id details => exact absurd rfl keyed
  | challenge method extra => exact absurd rfl keyed
  | authenticate signature extra => exact absurd rfl keyed
  | abort details reason payload => exact absurd rfl keyed
  | goodbye details reason => exact absurd rfl keyed
  | _ => rfl

/-- A message that a route with ids takes is handed around. -/
theorem step_of_takes (live : s.phase ≠ .closed) (ided : ∀ key ∈ x.keys, key.id ≠ none)
    (takes : x.takes (RouteKey.ofMessage m) = true) :
    s.step (.arrival (.item (.message m))) = s.distribute m := by
  rw [step, if_neg live]
  exact receive_of_id (Route.id_of_takes ided takes)

/-! ### Steps -/

theorem Becomes.of_calm {t : Session} (spares : s.withdraws x.handle input = false)
    (calm : Calm x b s t) :
    Becomes x b ((s.outlook b).withdrawnIf (s.withdraws x.handle input)) s t := by
  rwa [spares, Outlook.withdrawnIf_false]

theorem Sole.calm_partFrom (sole : s.Sole x b) (reason : Uri) (m : Message) :
    Calm x b s (s.partFrom reason m) := by
  have entered := sole.calm_enter_closing
  have sent := entered.trans
    (entered.sole.calm_transmit (.message CloseReason.goodbyeAndOut.goodbye))
  exact sent.trans (sent.sole.calm_terminate rfl)

theorem Sole.becomes_receive (sole : s.Sole x b) (mine : x.handler.feeds b = true)
    (passes : x ∈ s.router.routes → x.takes (RouteKey.ofMessage m) = false)
    (free : (∀ f, x.handler.lastPostsTo b f = []) ∨
      s.withdraws x.handle (.arrival (.item (.message m))) = false) :
    Becomes x b ((s.outlook b).withdrawnIf
      (s.withdraws x.handle (.arrival (.item (.message m))))) s (s.receive m) := by
  have distributed := sole.distribute_passed mine passes free
  -- what is not handed around confirms nothing
  have calm : m.confirmsGone = false → Calm x b s (s.receive m) →
      Becomes x b ((s.outlook b).withdrawnIf
        (s.withdraws x.handle (.arrival (.item (.message m))))) s (s.receive m) :=
    fun idle => Becomes.of_calm (by rw [withdraws, idle, Bool.false_and])
  rcases receive_cases s m with ⟨idle, ended⟩ | same
  · refine calm idle ?_
    rcases ended with ⟨details, reason, -, -, same⟩ | ⟨f, expected, same⟩ | same <;> rw [same]
    · exact sole.calm_partFrom reason m
    · exact sole.calm_terminate expected.network
    · exact sole.calm_report _ _
  · rwa [same]

theorem Sole.calm_startLeaving (sole : s.Sole x b) {box : Option Box} (other : box ≠ some b) :
    Calm x b s (s.startLeaving box) := by
  have away : b ∉ box.toList := fun there => other (Option.mem_toList.mp there)
  rcases startLeaving_cases s box with ⟨opened, same⟩ | ⟨-, same⟩ | same <;> rw [same]
  · have left : Calm x b s (s.settingOut box) :=
      sole.calm_quiet rfl rfl rfl (by simp [settingOut, away]) (by simp [settingOut, opened]) rfl
    exact left.trans (left.sole.calm_sendOrTerminate CloseReason.closeRealm.goodbye)
  · exact sole.calm_quiet rfl rfl rfl (by simp [away]) Iff.rfl rfl
  · exact sole.calm_answer other .left

theorem Sole.calm_request (sole : s.Sole x b) (mine : x.handler.feeds b = true) (m : Message)
    (keys : List RouteKey) {target : Target} (silent : target.feeds b = false) {box : Option Box}
    (other : box ≠ some b) : Calm x b s (s.obey (.request m keys target box)) := by
  have added := sole.calm_add keys silent mine
  refine request_keeps (P := Calm x b s) sole.calm_refl m keys target box
    (fun _ => added.trans (added.sole.calm_sendOrTerminate m)) (fun t sent => ?_)
    (fun t _ sent => sent.trans (sent.sole.calm_answer other _))
  refine sent.trans (sent.sole.calm_eraseRoute (s.router.lastHandle + 1) fun there _ same => ?_)
  have bound := sole.sound.tidy.bounded x (sent.back there)
  rw [same] at bound
  exact Nat.not_succ_le_self _ bound

theorem Sole.becomes_obey (sole : s.Sole x b) (mine : x.handler.feeds b = true) {c : Command}
    (asks : c.feeds b = false) :
    Becomes x b ((s.outlook b).withdrawnIf (s.withdraws x.handle (.command c))) s (s.obey c) := by
  cases c with
  | send m box =>
    have other : box ≠ some b := by simpa [Command.feeds] using asks
    refine .of_calm rfl ?_
    rw [obey]
    split
    · have sent := sole.calm_sendOrTerminate m
      exact sent.trans (sent.sole.calm_answer other _)
    · exact sole.calm_answer other _
  | request m keys target box =>
    obtain ⟨other, silent⟩ := Bool.or_eq_false_iff.mp asks
    exact .of_calm rfl (sole.calm_request mine m keys silent (by simpa using other))
  | removeRoute route => exact sole.becomes_eraseRoute mine route
  | close box =>
    have other : box ≠ some b := by simpa [Command.feeds] using asks
    exact .of_calm rfl (sole.calm_startLeaving other)

theorem Sole.calm_elapse (sole : s.Sole x b) (time : Nat) : Calm x b s (s.elapse time) := by
  have later : Calm x b s { s with now := s.now + time } :=
    sole.calm_quiet rfl rfl rfl Iff.rfl Iff.rfl rfl
  rcases elapse_cases s time with same | same <;> rw [same]
  · exact later
  · exact later.trans (later.sole.calm_terminate rfl)

/-- The route takes the message that comes in. -/
theorem Sole.step_taken (sole : s.Sole x b) (mouth : x.Mouth b) (live : s.phase ≠ .closed)
    (there : x ∈ s.router.routes) (takes : x.takes (RouteKey.ofMessage m) = true)
    (free : (∀ f, x.handler.lastPostsTo b f = []) ∨
      s.withdraws x.handle (.arrival (.item (.message m))) = false) :
    ∃ new, new.map Post.item? = (x.handler.item? m).toList.map some ∧
      Becomes x b ((((s.outlook b).given new).withdrawnIf !x.handler.keeps m).withdrawnIf
        (s.withdraws x.handle (.arrival (.item (.message m))))) s
          (s.step (.arrival (.item (.message m)))) := by
  rw [step_of_takes live mouth.keys takes]
  exact sole.distribute_taken mouth live there takes free

/-- The box is let alone by a step unless the route takes the message that comes in. -/
theorem Sole.step_passed (sole : s.Sole x b) (mine : x.handler.feeds b = true)
    (live : s.phase ≠ .closed) (asks : input.feeds b = false) (heeds : ∀ box, input ≠ .forget box)
    (passes : ∀ m, input = .arrival (.item (.message m)) → x ∈ s.router.routes →
      x.takes (RouteKey.ofMessage m) = false)
    (free : (∀ f, x.handler.lastPostsTo b f = []) ∨ s.withdraws x.handle input = false) :
    Becomes x b ((s.outlook b).withdrawnIf (s.withdraws x.handle input)) s (s.step input) := by
  cases input with
  | forget box => exact absurd rfl (heeds box)
  | arrival a =>
    rw [step, if_neg live]
    cases a with
    | item i =>
      cases i with
      | message m => exact sole.becomes_receive mine (passes m rfl) free
      | ping data => exact .of_calm rfl (sole.calm_transmit _)
    | failed description =>
      have sent := sole.calm_transmit
        (.message (Message.abortWith Complaint.protocolViolation.uri description))
      exact .of_calm rfl (sent.trans (sent.sole.calm_terminate rfl))
    | ended => exact .of_calm rfl (sole.calm_terminate rfl)
  | command c =>
    rw [step, if_neg live]
    exact sole.becomes_obey mine asks
  | elapse time =>
    rw [step, if_neg live]
    exact .of_calm rfl (sole.calm_elapse time)
  | orphaned =>
    rw [step, if_neg live]
    exact .of_calm rfl (sole.calm_startLeaving (by simp))

/-! ### Messages that nobody waits for -/

theorem noteUnmatched_of_other (other : ∀ request registration details payload,
    m ≠ .invocation request registration details payload) :
    s.noteUnmatched m = s.report unmatched m := by
  cases m with
  | invocation request registration details payload => exact absurd rfl (other _ _ _ _)
  | _ => rfl

theorem distributed_of_passes (sound : s.Sound)
    (passes : ∀ y ∈ s.router.routes, y.takes (RouteKey.ofMessage m) = false) :
    s.distributed m = (s.router, false, ⟨[], [], s.nextCell, []⟩) := by
  have none' : s.router.matching (RouteKey.ofMessage m) = [] := by
    refine List.eq_nil_iff_forall_not_mem.mpr fun h called => ?_
    obtain ⟨y, there, -, takes⟩ := sound.tidy.mem_matching_iff.mp called
    simp [passes y there] at takes
  rw [distributed, Router.dispatch, none']
  rfl

theorem distribute_of_passes (sound : s.Sound)
    (passes : ∀ y ∈ s.router.routes, y.takes (RouteKey.ofMessage m) = false) :
    s.distribute m = s.noteUnmatched m := by
  rw [distribute_eq, handedAround, distributed_of_passes sound passes, carrying_self]
  rfl

theorem matched_of_takes (sound : s.Sound) {y : Route Target} (there : y ∈ s.router.routes)
    (takes : y.takes (RouteKey.ofMessage m) = true) : (s.distributed m).2.1 = true := by
  have called := (mem_matching sound there).mpr takes
  have still : ∀ (handles : List Handle) (r : Router Target) (tray : Tray),
      (handles.foldl (Router.visit (Target.deliver s.gone m)) (r, true, tray)).2.1 = true := by
    intro handles
    induction handles with
    | nil => exact fun _ _ => rfl
    | cons h rest ih =>
      intro r tray
      rw [List.foldl_cons, Router.visit]
      dsimp only
      split <;> exact ih _ _
  rw [distributed, Router.dispatch]
  obtain ⟨h, rest, first⟩ := List.exists_cons_of_ne_nil (List.ne_nil_of_mem called)
  have known : h ∈ s.router.matching (RouteKey.ofMessage m) := first ▸ List.mem_cons_self
  obtain ⟨z, among, rfl, -⟩ := sound.tidy.mem_matching_iff.mp known
  have found := sound.tidy.route?_eq_some_iff.mpr ⟨among, rfl⟩
  rw [first, List.foldl_cons, Router.visit]
  dsimp only
  rw [found]
  exact still _ _ _

/-- A message that is for calls alone leaves nothing to be done once it has been handed around. -/
theorem distribute_of_calls (sound : s.Sound)
    (plain : ∀ request registration details payload,
      m ≠ .invocation request registration details payload)
    (calls : ∀ y ∈ s.router.routes, y.takes (RouteKey.ofMessage m) = true →
      ∃ box, y.handler = .call box) :
    s.distribute m = if (s.distributed m).2.1 then s.handedAround m
      else (s.handedAround m).report unmatched m := by
  have none' : (s.distributed m).2.2.errands = [] := by
    refine List.eq_nil_iff_forall_not_mem.mpr fun e put => ?_
    obtain ⟨y, there, takes, cell, due⟩ := errand_origin sound put
    obtain ⟨box, call⟩ := calls y there takes
    simp [call, Target.errands] at due
  rw [distribute_eq, none', List.foldl_nil]
  dsimp only
  rw [noteUnmatched_of_other plain]

end Session

end WampClient
