import WampClient.Proofs.Session.Provenance

/-! What a session sends out, and what it puts into boxes along with it. Everything that a session
does, apart from handing a message around, sends out a list of items that is known beforehand; it
sends fewer of them only if it ends in the middle. -/
namespace WampClient

/-- The failure that is told with a post. -/
def Post.failure? : Post → Option Failure
  | .sent (.error f) => some f
  | .accepted (.error f) => some f
  | .reply (.error f) => some f
  | .outcome (.error f) => some f
  | _ => none

namespace Message

/-- The invocation that a message of the callee is about. -/
def answers? : Message → Option Id
  | .yield request _ _ => some request
  | .error requestType request _ _ _ =>
    if requestType = MessageType.invocation.code then some request else none
  | _ => none

theorem answers?_of_settles? {m : Message} {request : Id} (settles : m.settles? = some request) :
    m.answers? = some request := by
  cases m with
  | yield id options payload => exact (Option.ite_none_left_eq_some.mp settles).2
  | error requestType id details reason payload => exact settles
  | _ => exact nomatch settles

end Message

/-- The invocation that is answered with what a stream carries. -/
def StreamItem.answers? : StreamItem → Option Id
  | .message m => m.answers?
  | .ping _ => none

/-- The invocation that is settled with what a stream carries. -/
def StreamItem.settles? : StreamItem → Option Id
  | .message m => m.settles?
  | .ping _ => none

theorem StreamItem.answers?_of_settles? {i : StreamItem} {request : Id}
    (settles : i.settles? = some request) : i.answers? = some request := by
  cases i with
  | message m => exact Message.answers?_of_settles? settles
  | ping data => exact nomatch settles

/-- What a command sends. -/
def Command.message? : Command → Option Message
  | .send m _ => some m
  | .request m _ _ _ => some m
  | _ => none

/-- A post that passes on neither an invocation nor a result. A failure in it is that of the end of
a session. -/
structure Post.Plain (p : Post) : Prop where
  uncalled : ∀ i cell, p ≠ .invocation i cell
  resultless : ∀ m, p ≠ .outcome (.ok m)
  expected : ∀ f, p.failure? = some f → f.Ends

namespace Wire

theorem sent_of_out {w wire : Wire} {i : StreamItem} (out : w.send i = (wire, none)) :
    wire.sent = w.sent ++ [i] := by
  unfold send at out
  dsimp only at out
  split at out
  · cases out
  · split at out
    · cases out
    · cases out
      rfl

theorem sent_of_lost {w wire : Wire} {i : StreamItem} {description : String}
    (lost : w.send i = (wire, some description)) : wire.sent = w.sent := by
  unfold send at lost
  dsimp only at lost
  split at lost
  · cases lost
    rfl
  · split at lost
    · cases lost
      rfl
    · cases lost

end Wire

namespace Session

variable {s t u : Session} {out more : List StreamItem} {m : Message} {f : Failure}

/-- The session goes on and sends these items out, as far as it does not end before. Whatever it
puts into boxes is plain, and no invocation is shown anything. -/
structure Emits (s t : Session) (out : List StreamItem) : Prop where
  sent : ∃ done, t.wire.sent = s.wire.sent ++ done ∧ done.Sublist out ∧
    (t.phase ≠ .closed → done = out)
  posts : ∃ put, t.posts = s.posts ++ put ∧ ∀ e ∈ put, e.2.Plain
  phase : t.phase = s.phase ∨ s.phase = .established ∧ t.phase = .closing ∨ t.phase = .closed
  signals : t.signals = s.signals
  cells : t.nextCell = s.nextCell
  gone : t.gone = s.gone

theorem Emits.live (emits : s.Emits t out) (live : t.phase ≠ .closed) : s.phase ≠ .closed := by
  rcases emits.phase with same | ⟨before, -⟩ | closed
  · rwa [← same]
  · simp [before]
  · exact absurd closed live

theorem Emits.established (emits : s.Emits t out) (live : t.phase = .established) :
    s.phase = .established := by
  rcases emits.phase with same | ⟨before, -⟩ | closed
  · rwa [← same]
  · exact before
  · simp [closed] at live

theorem Emits.trans (first : s.Emits t out) (second : t.Emits u more) :
    s.Emits u (out ++ more) := by
  obtain ⟨done, sent, part, all⟩ := first.sent
  obtain ⟨done', sent', part', all'⟩ := second.sent
  obtain ⟨put, posts, plain⟩ := first.posts
  obtain ⟨put', posts', plain'⟩ := second.posts
  refine ⟨⟨done ++ done', ?_, part.append part', fun live => ?_⟩, ⟨put ++ put', ?_, ?_⟩,
    ?_, second.signals.trans first.signals, second.cells.trans first.cells,
    second.gone.trans first.gone⟩
  · rw [sent', sent, List.append_assoc]
  · rw [all' live, all (second.live live)]
  · rw [posts', posts, List.append_assoc]
  · intro e he
    exact (List.mem_append.mp he).elim (plain e) (plain' e)
  · rcases second.phase with same | ⟨before, after⟩ | closed
    · rw [same]
      exact first.phase
    · exact Or.inr (Or.inl ⟨first.established before, after⟩)
    · exact Or.inr (Or.inr closed)

/-- Nothing is sent out, and nothing put into boxes. -/
theorem emits_quiet (wire : t.wire.sent = s.wire.sent) (posts : t.posts = s.posts)
    (phase : t.phase = s.phase) (signals : t.signals = s.signals) (cells : t.nextCell = s.nextCell)
    (gone : t.gone = s.gone) : s.Emits t [] where
  sent := ⟨[], by rw [wire, List.append_nil], List.Sublist.refl _, fun _ => rfl⟩
  posts := ⟨[], by rw [posts, List.append_nil], by simp⟩
  phase := Or.inl phase
  signals := signals
  cells := cells
  gone := gone

theorem Emits.refl (s : Session) : s.Emits s [] := emits_quiet rfl rfl rfl rfl rfl rfl

theorem emits_eraseRoute (s : Session) (route : Handle) : s.Emits (s.eraseRoute route) [] :=
  emits_quiet rfl rfl rfl rfl rfl rfl

theorem emits_post {p : Post} (plain : p.Plain) (box : Box) : s.Emits (s.post box p) [] := by
  rw [post_eq]
  refine ⟨⟨[], (List.append_nil _).symm, List.Sublist.refl _, fun _ => rfl⟩, ⟨_, rfl, ?_⟩,
    Or.inl rfl, rfl, rfl, rfl⟩
  intro e he
  rw [List.mem_singleton.mp (mem_arriving.mp he).1]
  exact plain

theorem emits_answer {p : Post} (plain : p.Plain) (box : Option Box) :
    s.Emits (s.answer box p) [] := by
  cases box with
  | none => exact .refl s
  | some box => exact emits_post plain box

theorem emits_report (description : String) (m : Message) :
    s.Emits (s.report description m) [] := emits_quiet rfl rfl rfl rfl rfl rfl

theorem emits_leaving (opened : s.phase = .established) (left : t.phase = .closing)
    (wire : t.wire.sent = s.wire.sent) (posts : t.posts = s.posts)
    (signals : t.signals = s.signals) (cells : t.nextCell = s.nextCell)
    (gone : t.gone = s.gone) : s.Emits t [] where
  sent := ⟨[], by rw [wire, List.append_nil], List.Sublist.refl _, fun _ => rfl⟩
  posts := ⟨[], by rw [posts, List.append_nil], by simp⟩
  phase := Or.inr (Or.inl ⟨opened, left⟩)
  signals := signals
  cells := cells
  gone := gone

theorem emits_settingOut (opened : s.phase = .established) (box : Option Box) :
    s.Emits (s.settingOut box) [] :=
  emits_leaving opened rfl rfl rfl rfl rfl rfl

theorem emits_enter_closing (s : Session) : s.Emits (s.enter .closing) [] := by
  by_cases may : s.phase.mayEnter .closing = true
  · have opened : s.phase = .established := by
      cases phase : s.phase <;> simp_all [Phase.mayEnter]
    rw [enter_of_may may]
    exact emits_leaving opened rfl rfl rfl rfl rfl rfl
  · rw [enter_of_not may]
    exact emits_quiet rfl rfl rfl rfl rfl rfl

/-! ### Ends -/

theorem plain_of_lastPosts (expected : f.Ends) {e : Box × Post}
    (told : e ∈ s.lastPosts f) : e.2.Plain := by
  rcases List.mem_append.mp told with told | told
  · obtain ⟨x, -, mine⟩ := List.mem_flatMap.mp told
    rcases handler : x.handler with ⟨_ | box, change⟩ | box | feed | cell <;>
      simp only [handler, Target.lastPosts, List.mem_singleton, List.not_mem_nil] at mine
    · rw [mine]
      exact ⟨by simp, by simp, fun g same => Option.some.inj same ▸ expected⟩
    · rw [mine]
      exact ⟨by simp, by simp, fun g same => Option.some.inj same ▸ expected⟩
  · obtain ⟨box, -, rfl⟩ := List.mem_map.mp told
    exact ⟨by simp, by simp, by simp [Post.failure?]⟩

theorem emits_terminate (expected : f.Ends) : s.Emits (s.terminate f) [] := by
  by_cases live : s.phase = .closed
  · rw [terminate_closed live]
    exact .refl s
  · rw [terminate_eq live]
    refine ⟨⟨[], (List.append_nil _).symm, List.Sublist.refl _, fun _ => rfl⟩, ⟨_, rfl, ?_⟩,
      Or.inr (Or.inr rfl), rfl, rfl, rfl⟩
    exact fun e he => plain_of_lastPosts expected (mem_arriving.mp he).1

/-! ### Sending -/

/-- An item gets out, or its sender is told why not. -/
theorem transmit_cases (s : Session) (i : StreamItem) :
    (s.transmit i).2 = none ∧ s.Emits (s.transmit i).1 [i] ∨
      ∃ description, (s.transmit i).2 = some description ∧ s.Emits (s.transmit i).1 [] := by
  -- only the wire changes
  have emits : ∀ out, (s.transmit i).1.wire.sent = s.wire.sent ++ out →
      s.Emits (s.transmit i).1 out := fun out same =>
    ⟨⟨out, same, List.Sublist.refl _, fun _ => rfl⟩, ⟨[], (List.append_nil _).symm, by simp⟩,
      Or.inl rfl, rfl, rfl, rfl⟩
  by_cases closed : s.wire.closed = true
  · refine Or.inr ⟨StreamError.closed.message, ?_, emits [] ?_⟩ <;>
      simp [transmit, Wire.send, closed]
  · cases fate : s.wire.fate s.wire.tried with
    | none => exact Or.inl ⟨by simp [transmit, Wire.send, closed, fate],
        emits [i] (by simp [transmit, Wire.send, closed, fate])⟩
    | some description => exact Or.inr ⟨description, by simp [transmit, Wire.send, closed, fate],
        emits [] (by simp [transmit, Wire.send, closed, fate])⟩

theorem emits_retiring (s : Session) (m : Message) : s.Emits (s.retiring m) [] := by
  rcases retiring_cases s m with same | ⟨request, route, -, retired⟩
  · rw [same]
    exact .refl s
  · rw [retired]
    exact emits_quiet rfl rfl rfl rfl rfl rfl

theorem expected_sendFailure (m : Message) (description : String) :
    (sendFailure m description).Ends := ⟨rfl, rfl, rfl⟩

theorem phase_terminate (s : Session) (f : Failure) : (s.terminate f).phase = .closed := by
  by_cases live : s.phase = .closed
  · rw [terminate_closed live, live]
  · rw [terminate_eq live]

/-- Items that a session does not send out because it ends are none the less sent as far as it
does not end. -/
theorem Emits.ended (emits : s.Emits t out) (closed : t.phase = .closed)
    (part : out.Sublist more) : s.Emits t more := by
  obtain ⟨done, same, first, -⟩ := emits.sent
  exact { emits with sent := ⟨done, same, first.trans part, fun live => absurd closed live⟩ }

/-- A message gets out, or the session ends. -/
theorem sendOrTerminate_cases (s : Session) (m : Message) :
    s.Emits (s.sendOrTerminate m).1 [.message m] ∧
      ((s.sendOrTerminate m).2 = .ok () ∧ (s.sendOrTerminate m).1.phase = s.phase ∨
        ∃ f : Failure, f.Ends ∧ (s.sendOrTerminate m).2 = .error f ∧
          (s.sendOrTerminate m).1.phase = .closed) := by
  have retired := emits_retiring s m
  have phase : ((s.retiring m).transmit (.message m)).1.phase = s.phase := phase_retiring s m
  rw [sendOrTerminate_eq]
  rcases transmit_cases (s.retiring m) (.message m) with
    ⟨none', sent⟩ | ⟨description, trouble, sent⟩
  · rcases went : (s.retiring m).transmit (.message m) with ⟨t, trouble⟩
    rw [went] at none' sent phase
    obtain rfl := none'
    exact ⟨retired.trans sent, Or.inl ⟨rfl, phase⟩⟩
  · rcases went : (s.retiring m).transmit (.message m) with ⟨t, told⟩
    rw [went] at trouble sent
    obtain rfl := trouble
    have closed := phase_terminate t (sendFailure m description)
    have ended := (retired.trans sent).trans
      (emits_terminate (s := t) (expected_sendFailure m description))
    exact ⟨ended.ended closed (List.nil_sublist _),
      Or.inr ⟨_, expected_sendFailure m description, rfl, closed⟩⟩

theorem emits_sendOrTerminate (s : Session) (m : Message) :
    s.Emits (s.sendOrTerminate m).1 [.message m] := (sendOrTerminate_cases s m).1

theorem emits_sendOwn (s : Session) (m : Message) : s.Emits (s.sendOwn m) [.message m] :=
  emits_sendOrTerminate s m

theorem interrupts_retiring (s : Session) (m : Message) (r : Id) :
    Assoc.get? r (s.retiring m).interrupts =
      if m.settles? = some r then none else Assoc.get? r s.interrupts := by
  unfold retiring
  cases m.settles? with
  | none => rfl
  | some request =>
    rw [Option.elim_some, retire]
    by_cases same : request = r
    · subst same
      cases known : Assoc.get? request s.interrupts with
      | none => simpa using known
      | some route => simp [eraseRoute]
    · rw [if_neg (by simpa using same)]
      split
      · rfl
      · exact Assoc.get?_erase_of_ne _ (Ne.symm same)

/-- An invocation is taken out of the table of interrupts with the message that settles it. -/
theorem interrupts_sendOrTerminate {m : Message} (live : (s.sendOrTerminate m).1.phase ≠ .closed)
    (r : Id) : Assoc.get? r (s.sendOrTerminate m).1.interrupts =
      if m.settles? = some r then none else Assoc.get? r s.interrupts := by
  rw [← interrupts_retiring]
  rcases sendOrTerminate_left s m with left | ⟨description, left⟩
  · rw [left]
    rfl
  · rw [left] at live
    exact absurd (phase_terminate _ _) live

theorem retiring_of_plain (plain : m.settles? = none) : s.retiring m = s := by
  rw [retiring, plain, Option.elim_none]

/-- A message that settles no invocation changes the wire alone, or the session ends. -/
theorem sendOrTerminate_of_plain {m : Message} (plain : m.settles? = none)
    (live : (s.sendOrTerminate m).1.phase ≠ .closed) :
    (s.sendOrTerminate m).1 = (s.transmit (.message m)).1 := by
  have retired : s.retiring m = s := retiring_of_plain plain
  rcases sendOrTerminate_left s m with left | ⟨description, left⟩
  · rw [left, retired]
  · rw [left] at live
    exact absurd (phase_terminate _ _) live

theorem wire_retiring (s : Session) (m : Message) : (s.retiring m).wire = s.wire := by
  rcases retiring_cases s m with same | ⟨request, route, -, retired⟩
  · rw [same]
  · rw [retired]
    rfl

theorem sent_terminate (s : Session) (f : Failure) :
    (s.terminate f).wire.sent = s.wire.sent := by
  by_cases live : s.phase = .closed
  · rw [terminate_closed live]
  · rw [terminate_eq live]
    rfl

theorem sendOrTerminate_eq_of_out {wire : Wire} (out : s.wire.send (.message m) = (wire, none)) :
    s.sendOrTerminate m = ({ s.retiring m with wire }, .ok ()) := by
  rw [sendOrTerminate_eq, transmit, wire_retiring, out]

theorem sendOrTerminate_eq_of_lost {wire : Wire} {description : String}
    (lost : s.wire.send (.message m) = (wire, some description)) :
    s.sendOrTerminate m = ({ s.retiring m with wire }.terminate (sendFailure m description),
      .error (sendFailure m description)) := by
  rw [sendOrTerminate_eq, transmit, wire_retiring, lost]

/-! ### What is put off -/

theorem plain_reply (m : Message) (route : Option Handle) : (Post.reply (.ok (m, route))).Plain :=
  ⟨by simp, by simp, by simp [Post.failure?]⟩

theorem emits_changeRoutes (s : Session) (m : Message) (change : Option RouteChange) :
    s.Emits (s.changeRoutes m change).1 [] := by
  rcases change with _ | feed | route
  · exact .refl s
  · simp only [changeRoutes]
    split
    · exact .refl s
    · exact emits_quiet rfl rfl rfl rfl rfl rfl
  · simp only [changeRoutes]
    split
    · exact emits_eraseRoute s route
    · exact .refl s

theorem emits_handOver (s : Session) (box : Option Box) (m : Message)
    (change : Option RouteChange) : s.Emits (s.handOver box m change) [] := by
  have changed := emits_changeRoutes s m change
  rw [handOver]
  cases box with
  | none => exact changed
  | some box =>
    dsimp only
    split
    next =>
      cases (s.changeRoutes m change).2 with
      | none => exact changed
      | some route => exact changed.trans (emits_eraseRoute _ route)
    next => exact changed.trans (emits_post (plain_reply m _) box)

theorem emits_watch (s : Session) (request : Id) (cell : Cell) :
    s.Emits (s.watch request cell) [] := by
  rcases watch_eq s request cell with watched | ⟨previous, -, watched⟩ <;>
    exact watched ▸ emits_quiet rfl rfl rfl rfl rfl rfl

/-- What goes out because of what was put off. -/
def rejections (es : List Errand) : List StreamItem :=
  es.flatMap fun e => match e with
    | .turnAway request => [.message (Message.rejection request)]
    | _ => []

theorem emits_errands (es : List Errand) : s.Emits (es.foldl runErrand s) (rejections es) := by
  induction es generalizing s with
  | nil => exact .refl s
  | cons e rest ih =>
    refine Emits.trans ?_ ih
    cases e with
    | handOver box reply change => exact emits_handOver s box reply change
    | watch request cell => exact emits_watch s request cell
    | turnAway request => exact emits_sendOwn s (Message.rejection request)

/-- What goes out because nothing was waiting for a message. -/
def refusals : Message → List StreamItem
  | .invocation request _ _ _ => [.message (Message.rejection request)]
  | _ => []

theorem emits_noteUnmatched (s : Session) (m : Message) :
    s.Emits (s.noteUnmatched m) (refusals m) := by
  cases m with
  | invocation request registration details payload =>
    exact (emits_sendOwn s (Message.rejection request)).trans (emits_report unmatched _)
  | _ => exact emits_report unmatched _

/-! ### Messages that come in -/

/-- What comes of handing a message around. -/
theorem visited_handedAround (sound : s.Sound) (m : Message) :
    ∃ visits, Visited s.gone m s.router.routes (s.router.matching (RouteKey.ofMessage m))
        ⟨[], [], s.nextCell, []⟩ (s.distributed m).2.2 visits ∧
      ∀ v ∈ visits, v.1.takes (RouteKey.ofMessage m) = true := by
  obtain ⟨visits, trace⟩ := visited_visits sound.tidy s.gone m
    (s.router.matching (RouteKey.ofMessage m)) false ⟨[], [], s.nextCell, []⟩
  refine ⟨visits, trace, fun v among => ?_⟩
  exact (mem_matching sound (trace.there v among)).mp
    (trace.called.subset (List.mem_map_of_mem among))

/-- What a message puts into boxes while it is handed around. -/
theorem posts_handedAround (sound : s.Sound) (m : Message) :
    ∃ new, (s.handedAround m).posts = s.posts ++ new ∧ ∀ e ∈ new, ∃ y ∈ s.router.routes,
      y.takes (RouteKey.ofMessage m) = true ∧ ∃ cell, e ∈ y.handler.posts s.gone m cell := by
  obtain ⟨visits, trace, takes⟩ := visited_handedAround sound m
  refine ⟨_, congrArg (s.posts ++ ·) trace.posts, fun e he => ?_⟩
  obtain ⟨v, among, put⟩ := List.mem_flatMap.mp he
  exact ⟨v.1, trace.there v among, takes v among, v.2, put⟩

/-- What goes out because of a message that is handed around. -/
def replies (s : Session) (m : Message) : List StreamItem :=
  rejections (s.distributed m).2.2.errands ++ if (s.distributed m).2.1 then [] else refusals m

theorem emits_distribute (s : Session) (m : Message) :
    (s.handedAround m).Emits (s.distribute m) (s.replies m) := by
  have done := emits_errands (s := s.handedAround m) (s.distributed m).2.2.errands
  rw [distribute_eq, replies]
  dsimp only
  split
  · rwa [List.append_nil]
  · exact done.trans (emits_noteUnmatched _ m)

/-! ### Steps -/

/-- What becomes of a session with an input: it hands a message around, or sends what it was asked
to send, or sends no answer to an invocation. -/
inductive Course (s : Session) (input : Input) : Prop where
  | handed {m : Message} (came : input = .arrival (.item (.message m))) (live : s.phase ≠ .closed)
      (same : s.step input = s.distribute m)
  | sends {c : Command} {m : Message} (asked : input = .command c) (message : c.message? = some m)
      (emits : s.Emits (s.step input) [.message m])
      (table : (s.step input).phase ≠ .closed → ∀ r, Assoc.get? r (s.step input).interrupts =
        if m.settles? = some r then none else Assoc.get? r s.interrupts)
  | minds (out : List StreamItem) (emits : s.Emits (s.step input) out)
      (silent : ∀ i ∈ out, i.answers? = none)
      (table : (s.step input).phase ≠ .closed → (s.step input).interrupts = s.interrupts)
      (late : ∀ c, input = .command c → c.message?.isSome = true → s.phase ≠ .established)

theorem emits_transmitAnyway (s : Session) (i : StreamItem) :
    s.Emits (s.transmitAnyway i) [i] ∨ s.Emits (s.transmitAnyway i) [] := by
  rcases transmit_cases s i with ⟨-, sent⟩ | ⟨-, -, sent⟩
  · exact Or.inl sent
  · exact Or.inr sent

/-- Something is said, and the session ends. -/
theorem emits_parting (s : Session) (i : StreamItem) (expected : f.Ends) :
    s.Emits ((s.transmitAnyway i).terminate f) [i] := by
  have closed := phase_terminate (s.transmitAnyway i) f
  rcases emits_transmitAnyway s i with sent | sent
  · exact sent.trans (emits_terminate expected)
  · exact (sent.trans (emits_terminate expected)).ended closed (List.nil_sublist _)

theorem emits_partFrom (s : Session) (reason : Uri) (m : Message) :
    s.Emits (s.partFrom reason m) [.message CloseReason.goodbyeAndOut.goodbye] :=
  (emits_enter_closing s).trans (emits_parting _ _ ⟨rfl, rfl, rfl⟩)

theorem interrupts_startLeaving (box : Option Box)
    (live : (s.startLeaving box).phase ≠ .closed) :
    (s.startLeaving box).interrupts = s.interrupts := by
  rcases startLeaving_cases s box with ⟨-, same⟩ | ⟨-, same⟩ | same <;> rw [same] at live ⊢
  · have sent := sendOrTerminate_of_plain (s := s.settingOut box) rfl live
    exact (congrArg interrupts sent).trans rfl
  · exact answer_interrupts s box _

theorem emits_startLeaving (s : Session) (box : Option Box) :
    ∃ out, s.Emits (s.startLeaving box) out ∧ ∀ i ∈ out, i.answers? = none := by
  rcases startLeaving_cases s box with ⟨opened, same⟩ | ⟨-, same⟩ | same <;> rw [same]
  · have left := (emits_settingOut opened box).trans (emits_sendOwn _ CloseReason.closeRealm.goodbye)
    exact ⟨_, left, by simp [StreamItem.answers?, CloseReason.goodbye, Message.answers?]⟩
  · exact ⟨[], emits_quiet rfl rfl rfl rfl rfl rfl, by simp⟩
  · exact ⟨[], emits_answer ⟨by simp, by simp, by simp [Post.failure?]⟩ box, by simp⟩

theorem emits_elapse (s : Session) (time : Nat) : s.Emits (s.elapse time) [] := by
  have later : s.Emits { s with now := s.now + time } [] := emits_quiet rfl rfl rfl rfl rfl rfl
  rcases elapse_cases s time with same | same <;> rw [same]
  · exact later
  · exact later.trans (emits_terminate ⟨rfl, rfl, rfl⟩)

theorem plain_sent {result : Except Failure Unit}
    (expected : ∀ f, result = .error f → f.Ends) : (Post.sent result).Plain := by
  refine ⟨by simp, by simp, fun f told => ?_⟩
  cases result with
  | ok u => exact nomatch told
  | error g => exact expected f (congrArg Except.error (Option.some.inj told))

theorem plain_accepted {result : Except Failure Handle}
    (expected : ∀ f, result = .error f → f.Ends) :
    (Post.accepted result).Plain := by
  refine ⟨by simp, by simp, fun f told => ?_⟩
  cases result with
  | ok u => exact nomatch told
  | error g => exact expected f (congrArg Except.error (Option.some.inj told))

theorem course_obey (c : Command) (live : s.phase ≠ .closed) : s.Course (.command c) := by
  have same : s.step (.command c) = s.obey c := if_neg live
  cases c with
  | send m box =>
    by_cases opened : s.phase = .established ∨ s.phase = .closing
    · have obeyed : s.obey (.send m box) =
          (s.sendOrTerminate m).1.answer box (.sent (s.sendOrTerminate m).2) := if_pos opened
      refine .sends rfl rfl ?_ fun live => ?_
      · rw [same, obeyed]
        obtain ⟨sent, went⟩ := sendOrTerminate_cases s m
        refine sent.trans (emits_answer (plain_sent fun f lost => ?_) box)
        rcases went with ⟨got, -⟩ | ⟨g, expected, lost', -⟩
        · exact nomatch got.symm.trans lost
        · exact Except.error.inj (lost'.symm.trans lost) ▸ expected
      · rw [same, obeyed, answer_phase] at live
        rw [same, obeyed, answer_interrupts]
        exact interrupts_sendOrTerminate live
    · have obeyed : s.obey (.send m box) = s.answer box (.sent (.error Failure.sessionClosed)) :=
        if_neg opened
      refine .minds [] ?_ (by simp) (fun _ => ?_) fun _ _ _ => (not_or.mp opened).1
      · rw [same, obeyed]
        exact emits_answer (plain_sent fun f lost => Except.error.inj lost ▸ ⟨rfl, rfl, rfl⟩) box
      · rw [same, obeyed, answer_interrupts]
  | request m keys target box =>
    by_cases opened : s.phase = .established
    · let t : Session := { s with router := (s.router.add keys target).1 }
      have added : s.Emits t [] := emits_quiet rfl rfl rfl rfl rfl rfl
      obtain ⟨sent, went⟩ := sendOrTerminate_cases t m
      have table := interrupts_sendOrTerminate (s := t) (m := m)
      have obeyed := obey_request opened m keys target box
      rcases h : t.sendOrTerminate m with ⟨u, result⟩
      rw [h] at obeyed sent went table
      cases result with
      | ok _ =>
        refine .sends rfl rfl ?_ fun live => ?_
        · rw [same, obeyed]
          refine (added.trans sent).trans (emits_answer ?_ box)
          exact ⟨by simp, by simp, by simp [Post.failure?]⟩
        · rw [same, obeyed, answer_phase] at live
          rw [same, obeyed, answer_interrupts]
          exact table live
      | error g =>
        obtain ⟨f, expected, lost, closed⟩ := went.resolve_left fun ⟨got, _⟩ => nomatch got
        refine .sends rfl rfl ?_ fun live => ?_
        · rw [same, obeyed]
          refine ((added.trans sent).trans (emits_eraseRoute u _)).trans (emits_answer ?_ box)
          refine plain_accepted fun f' lost' => ?_
          rw [← Except.error.inj lost', Except.error.inj lost]
          exact expected
        · rw [same, obeyed, answer_phase] at live
          exact absurd closed live
    · have obeyed := obey_request_late opened m keys target box
      refine .minds [] ?_ (by simp) (fun _ => ?_) fun _ _ _ => opened
      · rw [same, obeyed]
        refine emits_answer (plain_accepted fun f lost => ?_) box
        exact Except.error.inj lost ▸ ⟨rfl, rfl, rfl⟩
      · rw [same, obeyed, answer_interrupts]
  | removeRoute route =>
    refine .minds [] ?_ (by simp) (fun _ => ?_) fun c is said => ?_
    · rw [same]
      exact emits_eraseRoute s route
    · rw [same]
      rfl
    · rw [← Input.command.inj is] at said
      exact nomatch said
  | close box =>
    obtain ⟨out, emits, silent⟩ := emits_startLeaving s box
    refine .minds out (by rw [same]; exact emits) silent (fun live => ?_)
      fun c is said => ?_
    · rw [same] at live ⊢
      exact interrupts_startLeaving box live
    · rw [← Input.command.inj is] at said
      exact nomatch said

theorem course_arrive (a : Arrival) (live : s.phase ≠ .closed) : s.Course (.arrival a) := by
  have same : s.step (.arrival a) = s.arrive a := if_neg live
  have minds : ∀ {out : List StreamItem}, s.Emits (s.arrive a) out →
      (∀ i ∈ out, i.answers? = none) →
      ((s.arrive a).phase ≠ .closed → (s.arrive a).interrupts = s.interrupts) →
        s.Course (.arrival a) := fun emits silent table =>
    .minds _ (same ▸ emits) silent (same ▸ table) fun _ is => nomatch is
  have ends : ∀ {out : List StreamItem} {t : Session} {f : Failure}, s.arrive a = t.terminate f →
      s.Emits (s.arrive a) out → (∀ i ∈ out, i.answers? = none) → s.Course (.arrival a) :=
    fun ended emits silent =>
      minds emits silent fun live => absurd (ended ▸ phase_terminate _ _) live
  cases a with
  | failed description =>
    exact ends rfl (emits_parting s _ ⟨rfl, rfl, rfl⟩)
      (by simp [StreamItem.answers?, Message.abortWith, Message.answers?])
  | ended => exact ends rfl (emits_terminate ⟨rfl, rfl, rfl⟩) (by simp)
  | item i =>
    cases i with
    | ping data =>
      rcases emits_transmitAnyway s (.ping data) with sent | sent
      · exact minds sent (by simp [StreamItem.answers?]) fun _ => rfl
      · exact minds sent (by simp) fun _ => rfl
    | message m =>
      have came : s.arrive (.item (.message m)) = s.receive m := rfl
      rcases receive_cases s m with
        ⟨-, ⟨details, reason, -, -, took⟩ | ⟨f, expected, took⟩ | took⟩ | took
      · exact ends took (by rw [came, took]; exact emits_partFrom s reason m) (by simp
          [StreamItem.answers?, CloseReason.goodbye, Message.answers?])
      · exact ends took (by rw [came, took]; exact emits_terminate expected) (by simp)
      · refine minds (by rw [came, took]; exact emits_report late m) (by simp) fun _ => ?_
        rw [came, took]
        rfl
      · exact .handed rfl live (same.trans took)

theorem interrupts_elapse (time : Nat) (live : (s.elapse time).phase ≠ .closed) :
    (s.elapse time).interrupts = s.interrupts := by
  rcases elapse_cases s time with same | same <;> rw [same] at live ⊢
  exact absurd (phase_terminate _ _) live

theorem course_step (s : Session) {input : Input} (heeds : ∀ box, input ≠ .forget box) :
    s.Course input := by
  by_cases late : s.phase = .closed
  · have same := step_closed late heeds
    refine .minds [] ?_ (by simp) (fun _ => ?_) fun _ _ _ => by simp [late]
    · rw [same]
      exact .refl s
    · rw [same]
  · cases input with
    | arrival a => exact course_arrive a late
    | command c => exact course_obey c late
    | elapse time =>
      have same : s.step (.elapse time) = s.elapse time := if_neg late
      exact .minds [] (same ▸ emits_elapse s time) (by simp)
        (same ▸ interrupts_elapse time) fun _ is => nomatch is
    | orphaned =>
      have same : s.step .orphaned = s.startLeaving none := if_neg late
      obtain ⟨out, emits, silent⟩ := emits_startLeaving s none
      exact .minds _ (same ▸ emits) silent (same ▸ interrupts_startLeaving none)
        fun _ is => nomatch is
    | forget box => exact absurd rfl (heeds box)

/-- What was sent is not taken back. -/
theorem sent_prefix_step (s : Session) (input : Input) :
    s.wire.sent <+: (s.step input).wire.sent := by
  have grown : ∀ {t u : Session} {out : List StreamItem}, t.Emits u out →
      t.wire.sent <+: u.wire.sent := by
    intro t u out emits
    obtain ⟨done, sent, -⟩ := emits.sent
    exact ⟨done, sent.symm⟩
  by_cases heeds : ∃ box, input = .forget box
  · obtain ⟨box, rfl⟩ := heeds
    exact List.prefix_rfl
  · cases course_step s fun box same => heeds ⟨box, same⟩ with
    | @handed m came live same =>
      have around : (s.handedAround m).wire = s.wire := rfl
      rw [same, ← around]
      exact grown (emits_distribute s m)
    | sends asked message emits table => exact grown emits
    | minds out emits silent table late => exact grown emits

theorem established_of_step (live : (s.step input).phase = .established) :
    s.phase = .established := by
  by_cases heeds : ∃ box, input = .forget box
  · obtain ⟨box, rfl⟩ := heeds
    exact live
  · cases course_step s fun box same => heeds ⟨box, same⟩ with
    | @handed m came opened same =>
      rw [same] at live
      exact (emits_distribute s m).established live
    | sends asked message emits table => exact emits.established live
    | minds out emits silent table late => exact emits.established live

/-- As long as it is established, a session sends what it is asked to send. -/
theorem sent_of_send {box : Option Box}
    (live : (s.step (.command (.send m box))).phase = .established) :
    (s.step (.command (.send m box))).wire.sent = s.wire.sent ++ [.message m] := by
  have course : s.Course (.command (.send m box)) := course_step s (by simp)
  cases course with
  | handed came opened same => cases came
  | @sends c m' asked message emits table =>
    obtain rfl := Input.command.inj asked
    obtain rfl := Option.some.inj message
    obtain ⟨done, sent, -, all⟩ := emits.sent
    rw [sent, all (by simp [live])]
  | minds out emits silent table late =>
    exact absurd (established_of_step live) (late _ rfl rfl)

/-- What is in a box after a step was there before, or is plain, or a message that was handed around
has been put in by one of its routes. -/
theorem post_course (sound : s.Sound) {input : Input} (heeds : ∀ box, input ≠ .forget box)
    {box : Box} {p : Post} (there : (box, p) ∈ (s.step input).posts) :
    (box, p) ∈ s.posts ∨ p.Plain ∨ ∃ m, input = .arrival (.item (.message m)) ∧
      ∃ y ∈ s.router.routes, y.takes (RouteKey.ofMessage m) = true ∧
        ∃ cell, (box, p) ∈ y.handler.posts s.gone m cell := by
  have added : ∀ {t u : Session} {out : List StreamItem}, t.Emits u out → (box, p) ∈ u.posts →
      (box, p) ∈ t.posts ∨ p.Plain := by
    intro t u out emits there
    obtain ⟨put, same, plain⟩ := emits.posts
    rw [same] at there
    exact (List.mem_append.mp there).imp_right (plain _)
  cases course_step s heeds with
  | @handed m came live same =>
    rw [same] at there
    rcases added (emits_distribute s m) there with around | plain
    · obtain ⟨new, posts, origin⟩ := posts_handedAround sound m
      rw [posts] at around
      exact (List.mem_append.mp around).imp_right fun mine => Or.inr ⟨m, came, origin _ mine⟩
    · exact Or.inr (Or.inl plain)
  | sends asked message emits table => exact (added emits there).imp_right Or.inl
  | minds out emits silent table late => exact (added emits there).imp_right Or.inl

end Session

end WampClient
