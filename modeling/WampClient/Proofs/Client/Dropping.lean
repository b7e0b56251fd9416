import WampClient.Proofs.Client.Boxes
import WampClient.Proofs.Client.Correlation
import WampClient.Proofs.Client.Feeds
import WampClient.Proofs.Client.Partings
import WampClient.Proofs.Session.Withdrawals

/-! What becomes of a registration or subscription whose ticket is let go of while it is open. The
router is asked once to end it, and nobody waits for the reply; the route goes with the reply if
this confirms that the router's entry is gone, and it stays for as long as the session goes on if
it does not. -/
namespace WampClient

namespace FeedTicket

/-- The message is a reply to the request with which the ticket was given up, and the session is
about to handle it as such. -/
def Answered (t : FeedTicket) (request : Id) (reply : Option Box) (came : Message) (s : Session) :
    Prop :=
  s.phase ≠ .closed ∧ (t.kind.departure request t.id).Answers came ∧
    ∃ h, ⟨h, t.kind.departureKeys request, .reply reply (some (.remove t.route))⟩ ∈
      s.router.routes

/-- What becomes of a registration or subscription whose ticket is let go of in a move. -/
structure Dropped (t : FeedTicket) (request : Id) (c : Client) (before : List Move) (m : Move)
    (after : List Move) : Prop where
  /-- The router is asked to end it, and nobody waits for the reply. -/
  asked : t.parting request none none ∈ (c.run (before ++ [m])).commands ∧
    t.parting request none none ∉ (c.run before).commands
  /-- Nothing else is ever asked about its route. -/
  alone : ∀ command ∈ c.served (before ++ m :: after) ++ (c.run (before ++ m :: after)).commands,
    command.removes t.route = true → command = t.parting request none none
  /-- Once a reply is handled that tells that the router's entry is gone, so is the route. -/
  confirmed : ∀ early came late, after = early ++ .arrive (.item (.message came)) :: late →
    t.Answered request none came (c.run (before ++ m :: early)).session →
      came.confirmsGone = true → Session.Lacks t.route (c.run (before ++ m :: after)).session
  /-- Until then it stays, also after any other reply. -/
  stays : (c.run (before ++ m :: after)).session.phase ≠ .closed →
    (∀ early came late, after = early ++ .arrive (.item (.message came)) :: late →
      t.Answered request none came (c.run (before ++ m :: early)).session →
        came.confirmsGone = false) →
    t.itemRoute ∈ (c.run (before ++ m :: after)).session.router.routes
  /-- An INVOCATION or EVENT that no route takes is noted as one that nobody has waited for. -/
  unrouted : ∀ came, RouteKey.ofMessage came = t.kind.itemKey t.id →
    let s := (c.run (before ++ m :: after)).session
    s.phase ≠ .closed → (∀ y ∈ s.router.routes, y.takes (RouteKey.ofMessage came) = false) →
      (s.step (.arrival (.item (.message came)))).anomalies.getLast? =
        some ⟨Session.unmatched, came⟩

theorem parting_injective {t : FeedTicket} {request request' : Id}
    {reply reply' answer answer' : Option Box}
    (same : t.parting request reply answer = t.parting request' reply' answer') :
    request = request' ∧ reply = reply' := by
  obtain ⟨asks, -, target, -⟩ := Command.request.inj same
  refine ⟨?_, (Target.reply.inj target).1⟩
  cases kind : t.kind <;> simp_all [FeedKind.departure]

end FeedTicket

/-- The route of the registration or subscription that an operation waits to have ended. -/
def Waiting.departs? : Waiting → Option Handle
  | .departure _ t _ _ => some t.route
  | _ => none

theorem Waiting.eq_of_departs {w : Waiting} {h : Handle} (departs : w.departs? = some h) :
    ∃ name t accepted reply, w = .departure name t accepted reply ∧ t.route = h := by
  cases w with
  | departure name t accepted reply =>
    exact ⟨name, t, accepted, reply, rfl, Option.some.inj departs⟩
  | _ => cases departs

/-- What comes in for a registration or subscription, where no route takes it. -/
theorem Session.noted_of_passes {s : Session} (sound : s.Sound) {m : Message}
    {kind : FeedKind} {id : Id} (live : s.phase ≠ .closed)
    (item : RouteKey.ofMessage m = kind.itemKey id)
    (passes : ∀ y ∈ s.router.routes, y.takes (RouteKey.ofMessage m) = false) :
    (s.step (.arrival (.item (.message m)))).anomalies.getLast? = some ⟨Session.unmatched, m⟩ := by
  have keyed : (RouteKey.ofMessage m).id ≠ none := by
    rw [item, FeedKind.id_itemKey]
    exact Option.some_ne_none id
  have handled : s.step (.arrival (.item (.message m))) = s.noteUnmatched m := by
    rw [step, if_neg live]
    exact (receive_of_id keyed).trans (distribute_of_passes sound passes)
  rw [handled]
  unfold noteUnmatched report
  exact List.getLast?_concat

namespace Client

variable {c d : Client} {w w' : Work} {past : List Command} {t : FeedTicket} {request : Id}
  {reply answer : Option Box} {h : Handle} {m : Move} {ms : List Move} {came : Message}

/-! ### Routes that are to be taken out -/

/-- The route is asked to be taken out in behalf of an open ticket that is there, or of an operation
that has waited for the reply. -/
theorem Work.Links.lets (links : w.Links w') : ∀ command ∈ w'.client.commands,
    command ∈ w.client.commands ∨ ∀ h, command.removes h = true →
      (∃ u ∈ w.tickets, u.isClosed = false ∧ u.route? = some h) ∨
        ∃ task ∈ w.client.tasks, task ∉ w'.client.tasks ∧ task.waiting.departs? = some h := by
  cases links with
  | part part =>
    intro command there
    refine (part.lets command there).imp_right fun lets h removes => ?_
    obtain ⟨u, among, opened, route, -⟩ := lets.removes h removes
    exact Or.inl ⟨u, mem_tickets.mpr (Or.inl among), opened, route⟩
  | turned found moved waits was => exact fun _ => Or.inl
  | @resumes c task outcome w there resumes =>
    cases resumes with
    | resumed yields => exact fun _ => Or.inl
    | refused bare own => exact fun _ => Or.inl
    | settled waits =>
      rw [release_call]
      exact fun _ => Or.inl
    | @ceased name u accepted reply waits =>
      intro command among
      refine (List.mem_append.mp among).imp_right fun last h removes => Or.inr ⟨task, there, ?_, ?_⟩
      · simp [issue, without]
      · rw [List.mem_singleton.mp last] at removes
        rw [waits, Waiting.departs?, show u.route = h by simpa [Command.removes] using removes]

/-- An operation that begins to wait for such a reply has new boxes, and it has asked. -/
theorem Work.Links.departures {task : Task} {name : String} {accepted reply : Box}
    (links : w.Links w') (there : task ∈ w'.client.tasks)
    (waits : task.waiting = .departure name t accepted reply) : task ∈ w.client.tasks ∨
      w.client.nextBox ≤ accepted ∧
        ∃ request, t.parting request (some reply) (some accepted) ∈ w'.client.commands := by
  cases links with
  | part part =>
    refine (part.begins task there).imp_right fun begins => ?_
    rw [waits] at begins
    cases begins with
    | departure closed asked => exact ⟨Nat.le_refl _, _, asked⟩
    | plain plain => cases plain
  | resumes among resumes =>
    rw [resumes.numbers] at there
    exact Or.inl (List.mem_of_mem_filter there)
  | turned found moved waits' was =>
    refine (mem_turned there).imp_right fun turned => ?_
    cases waits.symm.trans turned

theorem mem_tickets_of_departure {task : Task} {name : String} {accepted reply : Box}
    (there : task ∈ w.client.tasks) (waits : task.waiting = .departure name t accepted reply) :
    .feed t ∈ w.tickets :=
  mem_tickets_of_waiting there (waits ▸ List.mem_cons_self)

/-- Nobody waits for an open registration or subscription to be ended. -/
theorem Work.Midway.unawaited (settled : w.Midway past) (held : .feed t ∈ w.tickets)
    (opened : t.closed = false) :
    ∀ task ∈ w.client.tasks, task.waiting.departs? ≠ some t.route := by
  intro task there departs
  obtain ⟨name, u, accepted, reply, waits, route⟩ := Waiting.eq_of_departs departs
  have same := settled.eq_of_route held (mem_tickets_of_departure there waits) rfl
    (congrArg some route)
  obtain rfl := Ticket.feed.inj same
  have closed := settled.sourced.closed_of_waits there waits
  exact absurd closed (by simp [opened])

/-! ### A ticket that is let go of -/

/-- One request is all there is that has the route of a ticket taken out, and nobody waits for the
reply. -/
structure Work.Quit (t : FeedTicket) (request : Id) (reply answer : Option Box)
    (past : List Command) (w : Work) : Prop where
  asked : t.parting request reply answer ∈ past ++ w.client.commands
  alone : ∀ command ∈ past ++ w.client.commands, command.removes t.route = true →
    command = t.parting request reply answer
  unawaited : ∀ task ∈ w.client.tasks, task.waiting.departs? ≠ some t.route

theorem removes_parting (t : FeedTicket) (request : Id) (reply answer : Option Box) :
    (t.parting request reply answer).removes t.route = true := beq_self_eq_true _

theorem Work.Quit.links (quit : w.Quit t request reply answer past) (settled : w.Midway past)
    (links : w.Links w') : w'.Quit t request reply answer past := by
  have alone : ∀ command ∈ past ++ w'.client.commands, command.removes t.route = true →
      command = t.parting request reply answer := by
    intro command there removes
    rcases List.mem_append.mp there with old | queue
    · exact quit.alone command (List.mem_append_left _ old) removes
    rcases links.lets command queue with old | lets
    · exact quit.alone command (List.mem_append_right _ old) removes
    rcases lets _ removes with ⟨u, held, opened, route⟩ | ⟨task, among, -, departs⟩
    · -- nobody has asked for the route of an open ticket
      have spared := settled.spares held opened route _ quit.asked
      cases spared.symm.trans (removes_parting t request reply answer)
    · exact absurd departs (quit.unawaited task among)
  refine ⟨links.grows.mem_commands quit.asked, alone, fun task there departs => ?_⟩
  obtain ⟨name, u, accepted, reply', waits, route⟩ := Waiting.eq_of_departs departs
  rcases links.departures there waits with old | ⟨fresh, request', asked⟩
  · exact quit.unawaited task old departs
  · -- what begins to wait now has boxes that are new, and asks anew
    have same := alone _ (List.mem_append_right _ asked) (route ▸ removes_parting u _ _ _)
    obtain ⟨-, -, -, rfl⟩ := Command.request.inj same
    have born := settled.books.issued.fresh _ quit.asked accepted
      (by simp [FeedTicket.parting, Command.feeds])
    exact absurd born.2 (Nat.not_lt_of_le fresh)

theorem Work.Quit.takes (quit : Work.Quit t request reply answer past ⟨c, []⟩) {input : Input}
    (takes : c.input? m = some input) :
    Work.Quit t request reply answer (past ++ c.taken m) ⟨c.move m, []⟩ := by
  obtain ⟨-, tasks, -⟩ := tickets_of_takes takes
  exact ⟨asked_of_takes past takes ▸ quit.asked,
    asked_of_takes past takes ▸ quit.alone, tasks ▸ quit.unawaited⟩

theorem Work.Quit.run (quit : Work.Quit t request reply answer past ⟨c, []⟩)
    (settled : Settled past c) (listed : c.Listed) (ms : List Move) :
    Work.Quit t request reply answer (past ++ c.served ms) ⟨c.run ms, []⟩ :=
  run_of_links (fun settled quit links => quit.links settled links)
    (fun quit takes => quit.takes takes) quit settled listed ms

/-- In the course of a move an open ticket is kept, or it is closed, for which new boxes are given
out, or it is let go of. -/
inductive Work.Whereabouts (t : FeedTicket) (first : Box) (past : List Command) (w : Work) :
    Prop where
  | kept (kept : w.Keeps t)
  | closed (boxes : first < w.client.nextBox)
  | dropped {request : Id} (quit : w.Quit t request none none past)

theorem Work.Whereabouts.links {first : Box} (stands : w.Whereabouts t first past)
    (settled : w.Midway past) (opened : t.closed = false)
    (live : w.client.session.phase = .established) (le : first ≤ w.client.nextBox)
    (links : w.Links w') : w'.Whereabouts t first past := by
  cases stands with
  | closed boxes => exact .closed (Nat.lt_of_lt_of_le boxes links.grows.boxes)
  | dropped quit => exact .dropped (quit.links settled links)
  | kept kept =>
    obtain ⟨n, held⟩ := kept
    obtain ⟨new, queue, partings⟩ := links.partings settled.listed
    cases partings with
    | none lasting kept => exact .kept (kept live { t with read := n } held opened)
    | closes held' opened' live' issues boxes fresh waits kept =>
      exact .closed (Nat.lt_of_le_of_lt le boxes)
    | @drops u request held' opened' live' issues gone kept =>
      rcases kept _ held with rfl | kept
      · have spares := settled.spares held opened rfl
        have alone : ∀ command ∈ past ++ w'.client.commands, command.removes t.route = true →
            command = t.parting request none none := by
          intro command there removes
          rw [queue, issues, ← List.append_assoc] at there
          rcases List.mem_append.mp there with old | last
          · exact absurd removes (by simp [spares command old])
          · exact List.mem_singleton.mp last
        refine @Work.Whereabouts.dropped _ _ _ _ request ⟨?_, alone, fun task there departs => ?_⟩
        · rw [queue, issues]
          exact List.mem_append_right _ (List.mem_append_right _ List.mem_cons_self)
        · obtain ⟨name, u, accepted, reply, waits, route⟩ := Waiting.eq_of_departs departs
          rcases links.departures there waits with old | ⟨-, request', asked⟩
          · exact settled.unawaited held opened task old departs
          · have same := alone _ (List.mem_append_right _ asked) (route ▸ removes_parting u _ _ _)
            obtain ⟨-, -, -, none'⟩ := Command.request.inj same
            cases none'
      · exact .kept kept

/-- An open ticket that is let go of in a move asks the router to end it. -/
theorem Settled.quits (settled : Settled past c) (listed : c.Listed)
    (held : .feed t ∈ c.heldTickets) (opened : t.closed = false)
    (live : c.session.phase = .established) (gone : t.box ∈ (c.move m).session.gone) :
    c.input? m = none ∧ ∃ request, Work.Quit t request none none past ⟨c.move m, []⟩ := by
  have mine : (Ticket.feed t).owns t.box = true := by simp
  have heard : t.box ∉ c.session.gone :=
    ((settled.orderly.owned t.box).held (mem_tickets.mpr (Or.inr held)) mine).2.1
  cases takes : c.input? m with
  | some input =>
    rw [session_move takes] at gone
    rcases Session.gone_step settled.books.sound gone with old | forgets
    · exact absurd old heard
    · exact absurd forgets (heeds_input takes t.box)
  | none =>
    refine ⟨rfl, ?_⟩
    have start : Work.Whereabouts t c.nextBox past ⟨c, []⟩ :=
      .kept (keeps_of_mem (mem_tickets.mpr (Or.inr held)))
    obtain ⟨settled', ⟨stands, -, -⟩⟩ := (settled.work listed).chain
      (P := fun w => w.Whereabouts t c.nextBox past ∧ w.client.session.phase = .established ∧
        c.nextBox ≤ w.client.nextBox) ⟨start, live, Nat.le_refl _⟩
      (fun settled ⟨stands, live, le⟩ link => ⟨stands.links settled opened live le link,
        (phase_grows link.grows).trans live, Nat.le_trans le link.grows.boxes⟩) (links_move takes)
    cases stands with
    | kept kept =>
      obtain ⟨n, held⟩ := kept
      exact absurd gone ((settled'.owned t.box).held held mine).2.1
    | closed boxes =>
      rcases session_or_boxes takes with session | same
      · exact absurd (session ▸ gone) heard
      · exact absurd boxes (Nat.not_lt_of_le (Nat.le_of_eq same))
    | dropped quit => exact ⟨_, quit⟩

/-! ### The route -/

theorem Fresh.route_of_open (fresh : Fresh c) (held : .feed t ∈ (c.run ms).heldTickets)
    (opened : t.closed = false) (live : (c.run ms).session.phase ≠ .closed) :
    t.itemRoute ∈ (c.run ms).session.router.routes := by
  obtain ⟨before, after, reply, rfl, course⟩ := fresh.feed_course held
  exact (course.account.route live).mpr (course.stays opened)

theorem Settled.lacks_run (settled : Settled past c) (lacks : Session.Lacks h c.session)
    (old : h ≤ c.session.router.lastHandle) (ms : List Move) :
    Session.Lacks h (c.run ms).session := by
  induction ms generalizing c past with
  | nil => exact lacks
  | cons m rest ih =>
    have sound := settled.books.sound
    refine ih (settled.move m) ?_ (Nat.le_trans old ((Client.moves c m).lastHandle_le sound))
    cases takes : c.input? m with
    | none =>
      rw [Session.Lacks, (outlook_grows (grows_move takes) 0).2.1]
      exact lacks
    | some input =>
      rw [session_move takes]
      exact lacks.step sound old input

section

variable {before after : List Move}

theorem Work.Quit.old (quit : Work.Quit t request reply answer past ⟨c, []⟩)
    (settled : Settled past c) : t.route ≤ c.session.router.lastHandle := by
  obtain ⟨b, comes, -⟩ :=
    settled.sourced.removed t.route _ quit.asked (removes_parting t request reply answer)
  exact settled.books.comes_le comes

theorem takes_of_answers (fresh : Fresh c)
    (quit : Work.Quit t request reply answer (c.served ms) ⟨c.run ms, []⟩)
    (answers : (t.kind.departure request t.id).Answers came) :
    (⟨h, t.kind.departureKeys request, .reply reply (some (.remove t.route))⟩ :
      Route Target).takes (RouteKey.ofMessage came) = true := by
  have formed := (fresh.settled.run ms).sourced.formed _ quit.asked
  exact takes_iff_covers.mpr (formed.covers_iff.mpr answers)

/-- The reply that confirms that the router's entry is gone takes the route out for good. -/
theorem Fresh.lacks_of_confirmed (fresh : Fresh c)
    (quit : Work.Quit t request reply answer (c.served before) ⟨c.run before, []⟩)
    (answered : t.Answered request reply came (c.run before).session) (gone : came.confirmsGone = true) :
    Session.Lacks t.route
      (c.run (before ++ .arrive (.item (.message came)) :: after)).session := by
  have settled := fresh.settled.run before
  obtain ⟨live, answers, h, there⟩ := answered
  have withdrawn : (c.run before).session.withdraws t.route (.arrival (.item (.message came))) =
      true := by
    refine Bool.and_eq_true_iff.mpr ⟨gone, List.any_eq_true.mpr ⟨_, there, ?_⟩⟩
    exact Bool.and_eq_true_iff.mpr ⟨by simp [Target.removes], takes_of_answers fresh quit answers⟩
  have old := quit.old settled
  rw [run_append]
  refine (settled.move _).lacks_run (Session.lacks_step settled.books.sound live old withdrawn) ?_ _
  exact Nat.le_trans old ((Client.moves _ _).lastHandle_le settled.books.sound)

/-- Nothing else takes the route out, as long as the session goes on. -/
theorem Fresh.route_stays (fresh : Fresh c) (listed : c.Listed)
    (quit : Work.Quit t request reply answer (c.served before) ⟨c.run before, []⟩)
    (names : Names (c.run before).session.posts t.kind t.id t.route)
    (there : t.itemRoute ∈ (c.run before).session.router.routes)
    (live : (c.run (before ++ after)).session.phase ≠ .closed)
    (refused : ∀ early came late, after = early ++ .arrive (.item (.message came)) :: late →
      t.Answered request reply came (c.run (before ++ early)).session →
        came.confirmsGone = false) :
    t.itemRoute ∈ (c.run (before ++ after)).session.router.routes := by
  induction after using List.reverseRecOn with
  | nil => rwa [List.append_nil]
  | append_singleton early m ih =>
    rw [← List.append_assoc, run_append c (before ++ early)] at live ⊢
    have going : (c.run (before ++ early)).session.phase ≠ .closed :=
      fun late => live (closed_move late m)
    have route := ih going fun early' came late same answered =>
      refused early' came (late ++ [m]) (by simp [same]) answered
    have settled := fresh.settled.run (before ++ early)
    change t.itemRoute ∈ ((c.run (before ++ early)).move m).session.router.routes
    cases takes : (c.run (before ++ early)).input? m with
    | none => rwa [(outlook_grows (grows_move takes) 0).2.1]
    | some input =>
      have known : Names ((c.run (before ++ early)).run []).session.posts t.kind t.id t.route := by
        change Names (c.run (before ++ early)).session.posts t.kind t.id t.route
        rw [run_append]
        exact names.mono fun _ => told_run (fresh.settled.run before).books.sound early
      have quit' : Work.Quit t request reply answer (c.served (before ++ early))
          ⟨c.run (before ++ early), []⟩ := by
        rw [served_append, run_append]
        exact quit.run (fresh.settled.run before) (listed.run before) early
      change ((c.run (before ++ early)).move m).session.phase ≠ .closed at live
      rw [session_move takes] at live ⊢
      refine (Session.retains_step settled.books.sound (fun cell => by simp [FeedTicket.itemRoute])
        (fun _ _ _ => ⟨_, rfl⟩) ?_).route live route
      by_contra withdrawn
      cases fresh.leaves_of_withdraws known takes (eq_true_of_ne_false withdrawn) with
      | @replied h request' reply' answer' came own waits ends =>
        have same := quit'.alone _ (List.mem_append_left _ own)
          (by simp [Command.removes, Target.removes])
        have same' : t.parting request' reply' answer' = t.parting request reply answer := same
        obtain ⟨rfl, rfl⟩ := FeedTicket.parting_injective same'
        obtain ⟨gone, taken⟩ := (@FeedKind.endedBy_iff _ _ _ h (.reply none none)).mp ends
        have formed := settled.sourced.formed _ (List.mem_append_left _ own)
        have answers := formed.covers_iff.mp (takes_iff_covers.mp taken)
        exact absurd gone (by simp [refused early came [] rfl ⟨going, answers, h, waits⟩])
      | removed next =>
        have same := quit'.alone (.removeRoute t.route)
          (List.mem_append_right _ (next ▸ List.mem_cons_self)) (by simp [Command.removes])
        cases same

/-! ### After the move -/

/-- The program gives up the ticket in a move of its own. -/
theorem Fresh.quit_later (fresh : Fresh c) (listed : c.Listed)
    (quiet : (c.run before).input? m = none)
    (quit : Work.Quit t request reply answer (c.served before) ⟨(c.run before).move m, []⟩)
    (after : List Move) :
    Work.Quit t request reply answer (c.served (before ++ m :: after))
      ⟨c.run (before ++ m :: after), []⟩ := by
  have settled := (fresh.settled.run before).move m
  rw [List.nil_append, taken_of_quiet quiet, List.append_nil] at settled
  rw [served_append, served, taken_of_quiet quiet, List.nil_append, run_append]
  exact quit.run settled ((listed.run before).move m) after

/-- Its route stays if it was there. -/
theorem Fresh.route_stays_later (fresh : Fresh c) (listed : c.Listed)
    (quiet : (c.run before).input? m = none)
    (quit : Work.Quit t request reply answer (c.served before) ⟨(c.run before).move m, []⟩)
    (names : Names (c.run before).session.posts t.kind t.id t.route)
    (there : t.itemRoute ∈ (c.run before).session.router.routes)
    (live : (c.run (before ++ m :: after)).session.phase ≠ .closed)
    (refused : ∀ early came late, after = early ++ .arrive (.item (.message came)) :: late →
      t.Answered request reply came (c.run (before ++ m :: early)).session →
        came.confirmsGone = false) :
    t.itemRoute ∈ (c.run (before ++ m :: after)).session.router.routes := by
  have first := fresh.quit_later listed quiet quit []
  have moved : c.run (before ++ [m]) = (c.run before).move m := run_append c before [m]
  obtain ⟨boxes, session⟩ := (grows_move quiet).session
  have known : Names (c.run (before ++ [m])).session.posts t.kind t.id t.route := by
    rw [moved, session]
    exact names
  have installed : t.itemRoute ∈ (c.run (before ++ [m])).session.router.routes := by
    rw [moved, session]
    exact there
  have all : ∀ ms, before ++ m :: ms = before ++ [m] ++ ms := by simp
  rw [all] at live ⊢
  refine fresh.route_stays listed first known installed live fun early came late same answered =>
    refused early came late same ?_
  rwa [all]

/-- A registration or subscription that is let go of while it is open. The router is asked to end
it, and its route goes with the reply to that if it tells that the router's entry is gone: then what
comes in for it finds no route. With any other reply the route stays for as long as the session goes
on, and nothing else will ever take it out. -/
theorem dropped_feed_goes_once_confirmed (wire : Wire) (now closeTimeout : Nat) (ids : IdSource)
    (id : Id) (realm : Uri) (details : Dictionary) (before : List Move) (m : Move)
    {t : FeedTicket} :
    let c := joined (Session.established wire now closeTimeout) ids id realm details
    let d := c.run before
    .feed t ∈ d.heldTickets → t.closed = false → d.session.phase = .established →
    t.box ∈ (d.move m).session.gone → ∃ request, ∀ after, t.Dropped request c before m after := by
  intro c d held opened live gone
  have fresh : Fresh c := fresh_joined wire now closeTimeout ids id realm details
  have listed : c.Listed := listed_joined wire now closeTimeout ids id realm details
  have settled := fresh.settled.run before
  obtain ⟨quiet, request, quit⟩ := settled.quits (listed.run before) held opened live gone
  rw [List.nil_append] at quit
  have unasked : t.parting request none none ∉ c.served before ++ d.commands := fun there =>
    absurd (removes_parting t request none none) (by simp [settled.spares held opened _ there])
  have later := fun after => fresh.quit_later listed quiet quit after
  refine ⟨request, fun after => ⟨⟨?_, fun there => unasked (List.mem_append_right _ there)⟩,
    (later after).alone, ?_, ?_, ?_⟩⟩
  · rw [show c.run (before ++ [m]) = d.move m from run_append c before [m]]
    exact (List.mem_append.mp quit.asked).resolve_left fun there =>
      unasked (List.mem_append_left _ there)
  · rintro early came late rfl answered confirms
    rw [← List.cons_append, ← List.append_assoc]
    exact fresh.lacks_of_confirmed (later early) answered confirms
  · intro going refused
    have arises : t.Arises _ _ := fresh.arises held
    have active : (c.run before).session.phase = .established := live
    have there := fresh.route_of_open held opened (by simp [active])
    exact fresh.route_stays_later listed quiet quit arises.names there going refused
  · exact fun came item going passes =>
      Session.noted_of_passes (fresh.settled.run _).books.sound going item passes

end

/-- A subscription that is let go of at once, which the router confirms. -/
theorem dropped_feed_goes_once_confirmed_subscription :
    let t : FeedTicket := ⟨.subscription, Id.min, ⟨"a"⟩, 2, 2, 0, false⟩
    let d := newcomer.run subscribed
    let drop : Move := .act 1 (.onTicket "t" .drop)
    let after : List Move := [.serve, .arrive (.item (.message (.unsubscribed Id.min.next)))]
    (.feed t ∈ d.heldTickets ∧ t.closed = false ∧ d.session.phase = .established ∧
      t.box ∈ (d.move drop).session.gone) ∧
    t.Dropped Id.min.next newcomer subscribed drop after ∧
    (newcomer.run (subscribed ++ drop :: after)).session.router.routes = [] := by
  intro t d drop after
  have held : d.heldTickets = [.feed t] := rfl
  have gone : (d.move drop).session.gone = [2] := rfl
  have queue : (newcomer.run (subscribed ++ [drop])).commands =
      [t.parting Id.min.next none none] := rfl
  have there : .feed t ∈ d.heldTickets := held ▸ List.mem_singleton_self _
  have left : t.box ∈ (d.move drop).session.gone := gone ▸ List.mem_singleton_self _
  obtain ⟨request, dropped⟩ := dropped_feed_goes_once_confirmed (Wire.fresh fun _ => none) 0 1000
    IdSource.initial Id.min ⟨"realm"⟩ [] subscribed drop there rfl rfl left
  have asked : t.parting request none none ∈ [t.parting Id.min.next none none] :=
    queue ▸ (dropped after).asked.1
  obtain ⟨rfl, -⟩ := FeedTicket.parting_injective (List.mem_singleton.mp asked)
  exact ⟨⟨there, rfl, rfl, left⟩, dropped after, rfl⟩

/-- The router refuses to end the subscription. That reply is handled, and still an event that comes
in after it is taken, for nobody. -/
theorem dropped_feed_outlives_refusal :
    let t : FeedTicket := ⟨.subscription, Id.min, ⟨"a"⟩, 2, 2, 0, false⟩
    let refusal : Message := .error MessageType.unsubscribe.code Id.min.next []
      ⟨"wamp.error.not_authorized"⟩ Payload.empty
    let d := newcomer.run subscribed
    let asked := (d.move (.act 1 (.onTicket "t" .drop))).move .serve
    let e := asked.run [.arrive (.item (.message refusal)), publication Id.min]
    (.feed t ∈ d.heldTickets ∧ t.closed = false ∧ d.session.phase = .established ∧
      t.box ∈ asked.session.gone ∧ t.Answered Id.min.next none refusal asked.session) ∧
    e.session.phase = .established ∧ (∃ x ∈ e.session.router.routes, x.handle = t.route) ∧
      e.session.anomalies = [] := by
  intro t refusal d asked e
  have held : d.heldTickets = [.feed t] := rfl
  have gone : asked.session.gone = [2] := rfl
  have routes : asked.session.router.routes = [t.itemRoute,
    ⟨3, t.kind.departureKeys Id.min.next, .reply none (some (.remove t.route))⟩] := rfl
  have asks : (t.kind.departure Id.min.next t.id).type? = some .unsubscribe := rfl
  have answers : (t.kind.departure Id.min.next t.id).Answers refusal := .refuses asks rfl rfl
  have live : asked.session.phase = .established := rfl
  have there : .feed t ∈ d.heldTickets := held ▸ List.mem_singleton_self _
  have left : t.box ∈ asked.session.gone := gone ▸ List.mem_singleton_self _
  have final : ∃ x ∈ e.session.router.routes, x.handle = t.route := by decide +kernel
  have noted : e.session.anomalies = [] := List.isEmpty_iff.mp (by decide +kernel)
  have going : e.session.phase = .established := by decide +kernel
  have open' : t.closed = false ∧ d.session.phase = .established := ⟨rfl, rfl⟩
  have late' : asked.session.phase ≠ .closed := fun late => nomatch live.symm.trans late
  refine ⟨⟨there, open'.1, open'.2, left, late', answers, 3, ?_⟩, going, final, noted⟩
  rw [routes]
  exact List.mem_cons_of_mem _ (List.mem_singleton_self _)

end Client

end WampClient
