import WampClient.Proofs.Client.Calls
import WampClient.Proofs.Client.Cancellations
import WampClient.Proofs.Client.Departures
import WampClient.Proofs.Client.Desisting
import WampClient.Proofs.Client.Interruptions

/-! How tickets are given up. What a program asks of the router for that, it asks once for each
ticket, and nothing is said any more to end registrations and subscriptions once the session is not
established. Whoever has closed the ticket of a registration or subscription, and has not dropped
the operation that waits for the reply, has its route taken out, whatever the router makes of it,
and no other ticket loses its route by that. -/
namespace WampClient.Client

variable {c d : Client} {w w' : Work} {past : List Command} {m : Move} {ms : List Move}
  {t u : FeedTicket} {h : Handle} {name : String} {task : Task} {accepted reply : Box}
  {dropped : List Waiting}

/-! ### Tickets that are closed in a move -/

/-- Where a closed ticket comes from in the course of a move of the client: it was closed before,
or the reply is waited for, or that wait has begun and was given up. -/
inductive Work.Shuts (c : Client) (w : Work) (u : FeedTicket) : Prop where
  | before {t : FeedTicket} (held : .feed t ∈ c.heldTickets) (closed : t.closed = true)
      (route : t.route = u.route) (box : t.box = u.box)
  | waits {task : Task} {name : String} {accepted reply : Box} (there : task ∈ w.client.tasks)
      (waiting : task.waiting = .departure name u accepted reply) (fresh : c.nextBox ≤ accepted)
  | gone {b : Box} (fresh : c.nextBox ≤ b) (gone : b ∈ w.client.session.gone)

theorem shuts_of_held (held : .feed u ∈ c.heldTickets) (closed : u.closed = true) :
    w.Shuts c u := .before held closed rfl rfl

/-- Nobody closes a ticket in a move of an established session, but an operation that waits for the
reply from then on. -/
theorem Work.Shuts.part (shut : ∀ u : FeedTicket, .feed u ∈ w.tickets → u.closed = true →
      w.Shuts c u) (settled : w.Midway past) (live : w.client.session.phase = .established)
    (first : c.nextBox ≤ w.client.nextBox) (part : Part w w') :
    ∀ u : FeedTicket, .feed u ∈ w'.tickets → u.closed = true → w'.Shuts c u := by
  intro u there closed
  have owned := (settled.part part).owned u.box
  have own : (Ticket.feed u).owns u.box = true := beq_self_eq_true _
  obtain ⟨v, among, becomes⟩ := part.becomes _ there
  -- a ticket of this box that is open is not the one that is there
  have other : ∀ t : FeedTicket, t.closed = false → t.box = u.box → ¬ w'.Keeps t := by
    rintro t opened same ⟨n, kept⟩
    have equal := owned.unique kept there (by simp [same]) own
    exact absurd closed (by rw [← Ticket.feed.inj equal]; simp [opened])
  obtain ⟨t, rfl, rfl⟩ : ∃ t, v = .feed t ∧ u = { t with closed := true } := by
    cases becomes with
    | same => exact ⟨u, rfl, by rw [← closed]⟩
    | closed t => exact ⟨t, rfl, rfl⟩
  cases opened : t.closed with
  | true =>
    have same : t = { t with closed := true } := by rw [← opened]
    rw [← same]
    cases shut t among opened with
    | before held closed route box => exact .before held closed route box
    | gone fresh gone => exact .gone fresh (part.grows.gone gone)
    | @waits task name accepted reply there waiting fresh =>
      rcases part.stays settled.listed task there with still | gone
      · exact .waits still waiting fresh
      · exact .gone fresh (gone accepted (by simp [waiting, Waiting.boxes]))
  | false =>
    obtain ⟨new, queue, partings⟩ := part.partings settled.listed
    cases partings with
    | none lasting kept => exact absurd (kept live t among opened) (other t opened rfl)
    | closes held opened' live' issues boxes fresh waits kept =>
      rcases kept t among with rfl | kept
      · obtain ⟨task, there, name, waiting⟩ := waits
        exact .waits there waiting (Nat.le_trans first fresh)
      · exact absurd kept (other t opened rfl)
    | drops held opened' live' issues gone kept =>
      rcases kept t among with rfl | kept
      · exact absurd gone (owned.held there own).2.1
      · exact absurd kept (other t opened rfl)

theorem Work.Shuts.parts (shut : ∀ u : FeedTicket, .feed u ∈ w.tickets → u.closed = true →
      w.Shuts c u) (settled : w.Midway past) (live : w.client.session.phase = .established)
    (first : c.nextBox ≤ w.client.nextBox) (parts : Parts w w') :
    ∀ u : FeedTicket, .feed u ∈ w'.tickets → u.closed = true → w'.Shuts c u := by
  have all : w'.Midway past ∧ w'.client.session.phase = .established ∧
      c.nextBox ≤ w'.client.nextBox ∧
        ∀ u : FeedTicket, .feed u ∈ w'.tickets → u.closed = true → w'.Shuts c u := by
    induction parts with
    | refl => exact ⟨settled, live, first, shut⟩
    | tail _ part ih =>
      obtain ⟨settled', live', first', shut'⟩ := ih
      exact ⟨settled'.part part, (phase_grows part.grows).trans live',
        Nat.le_trans first' part.grows.boxes, Shuts.part shut' settled' live' first' part⟩
  exact all.2.2.2

/-- An operation that goes on closes no ticket. -/
theorem Yields.shuts {v : Waiting} {us : List Ticket} {outcome : Outcome}
    (yields : c.Yields v us outcome) (there : .feed u ∈ us) (closed : u.closed = true) :
    ∃ t : FeedTicket, .feed t ∈ v.tickets ∧ t.closed = true ∧ t.route = u.route ∧
      t.box = u.box := by
  cases yields with
  | same plain idle outcome => exact ⟨u, there, closed, rfl, rfl⟩
  | accepted was outcome => cases List.mem_singleton.mp there
  | enrolled replied confirms outcome =>
    obtain rfl := Ticket.feed.inj (List.mem_singleton.mp there)
    cases closed
  | settled stream last => cases stream <;> cases List.mem_singleton.mp there
  | result stream more next => cases stream <;> cases List.mem_singleton.mp there
  | @event name t keep e next =>
    obtain rfl := Ticket.feed.inj (List.mem_singleton.mp there)
    exact ⟨t, List.mem_cons_self, closed, rfl, rfl⟩
  | @invocation name t keep i cell next canceled =>
    rcases List.mem_pair.mp there with same | same
    · obtain rfl := Ticket.feed.inj same
      exact ⟨t, List.mem_cons_self, closed, rfl, rfl⟩
    · cases same
  | @drained name t keep p next other other' =>
    obtain rfl := Ticket.feed.inj (List.mem_singleton.mp there)
    exact ⟨u, List.mem_cons_self, closed, rfl, rfl⟩

theorem Resumes.shuts {outcome : Outcome} (there : task ∈ c.tasks)
    (resumes : c.Resumes (c.without task.number).tasks task.waiting outcome w) :
    ∀ u : FeedTicket, .feed u ∈ w.tickets → u.closed = true → w.Shuts c u := by
  intro u among closed
  have waiting : ∀ {t : Ticket}, t ∈ task.waiting.tickets → t ∈ c.heldTickets := fun own =>
    mem_heldTickets.mpr (Or.inr ⟨task, there, own⟩)
  have other : .feed u ∈ (c.without task.number).heldTickets → w.Shuts c u := fun held =>
    shuts_of_held (mem_heldTickets_without held) closed
  cases resumes with
  | resumed yields =>
    rcases mem_tickets.mp among with handed | held
    · obtain ⟨t, own, closed, route, box⟩ := yields.shuts handed closed
      exact .before (waiting own) closed route box
    · exact other held
  | refused bare last => exact other among
  | settled waits =>
    rw [tickets_of_release] at among
    exact other among
  | ceased waits =>
    rcases mem_tickets.mp among with handed | held
    · refine shuts_of_held (waiting ?_) closed
      rw [waits]
      exact handed
    · exact other held

theorem shuts_move (settled : Settled past c) (listed : c.Listed) (own : c.input? m = none)
    (live : c.session.phase = .established) :
    ∀ u : FeedTicket, .feed u ∈ (c.move m).heldTickets → u.closed = true →
      Work.Shuts c ⟨c.move m, []⟩ u := by
  have start : ∀ u : FeedTicket, .feed u ∈ Work.tickets ⟨c, []⟩ → u.closed = true →
      Work.Shuts c ⟨c, []⟩ u := fun u => shuts_of_held
  have work := settled.work listed
  rcases parts_move own with ⟨number, rfl⟩ | parts
  · have polls := polls c number
    rw [Client.move]
    generalize c.poll number = d at polls ⊢
    cases polls with
    | still none' => exact start
    | turned found moved waits was =>
      intro u held closed
      rcases mem_heldTickets_turned held with old | same
      · exact shuts_of_held old closed
      · cases same
    | @ended task d e outcome v found moved resumes parts =>
      have there := List.mem_of_find?_eq_some found
      obtain rfl : task.number = number := by simpa using List.find?_some found
      have grows := resumes.grows
      exact Work.Shuts.parts (resumes.shuts there) (work.resumes there resumes)
        ((phase_grows grows).trans live) grows.boxes parts
  · exact Work.Shuts.parts start work live (Nat.le_refl _) parts

/-! ### Tickets that are closed -/

/-- What becomes of a client whose program waits for the reply, once that has come: the program has
the ticket again, and its route is to be taken out. -/
structure Returns (c d : Client) (name : String) (t : FeedTicket) : Prop where
  back : d.ticket? name = some (.feed t)
  asked : .removeRoute t.route ∈ d.commands

/-- Whoever closes a ticket waits until there is a reply, whatever that says. -/
theorem poll_waiting (orderly : c.Orderly) (there : task ∈ c.tasks)
    (waits : task.waiting = .departure name t accepted reply) :
    c.replied accepted reply = none ∧ c.poll task.number = c ∨
      (∃ answer, c.replied accepted reply = some answer) ∧
        c.Returns (c.poll task.number) name t := by
  have found := orderly.find_task there
  cases replied : c.replied accepted reply with
  | none =>
    have still : c.advance task.waiting = none := by rw [waits, advance, replied]; rfl
    exact Or.inl ⟨rfl, by simp only [poll, found, still]⟩
  | some answer =>
    let e := (c.issue (.removeRoute t.route)).keep name (.feed t)
    have moved : c.advance task.waiting = some (e, .inr (c.judgeDeparture t answer)) := by
      rw [waits, advance, replied]
      rfl
    have ended : c.poll task.number = { e with
        tasks := e.tasks.filter fun other => other.number ≠ task.number }.conclude task.number
          (c.judgeDeparture t answer) := by
      simp only [poll, found, moved]
    have kept : e.ticket? name = some (.feed t) := ticket?_keep _ name _
    obtain ⟨more, queue, -⟩ := (Parts.grows
      (parts_keep (c.issue (.removeRoute t.route)) name (.feed t) [])).commands
    have asked : .removeRoute t.route ∈ e.commands :=
      queue ▸ List.mem_append_left more (List.mem_append_right _ List.mem_cons_self)
    rw [ended]
    exact Or.inr ⟨⟨answer, rfl⟩, kept, asked⟩

/-- Whoever waits for the reply goes on to, until it has come and the route is asked to be taken out,
or until the operation is dropped, with the ticket or without it. -/
theorem Orderly.awaited_move (orderly : c.Orderly) (there : task ∈ c.tasks)
    (waits : task.waiting = .departure name t accepted reply) (m : Move) :
    task ∈ (c.move m).tasks ∨ .removeRoute t.route ∈ (c.move m).commands ∨
      t.box ∈ (c.move m).session.gone ∨ c.desists? m = some task.waiting := by
  by_cases turn : m = .poll task.number
  · rw [turn, Client.move]
    rcases poll_waiting orderly there waits with ⟨-, same⟩ | ⟨-, returns⟩
    · exact Or.inl (same.symm ▸ there)
    · exact Or.inr (Or.inl returns.asked)
  · rcases stays_move orderly there turn with still | gone | desists
    · exact Or.inl still
    · have own : (Ticket.feed t).owns t.box = true := beq_self_eq_true _
      exact Or.inr (Or.inr (Or.inl (gone (.feed t) (waits ▸ List.mem_cons_self) own)))
    · exact Or.inr (Or.inr (Or.inr desists))

/-- Whether an operation was dropped that waited to have the registration or subscription of the
route ended. -/
def Forsaken (h : Handle) (dropped : List Waiting) : Prop := ∃ v ∈ dropped, v.departs? = some h

/-- A ticket that is closed in an established session: the reply is waited for, or the route was
asked to be taken out, or the operation that has waited for that was dropped. -/
def Shut (past : List Command) (dropped : List Waiting) (c : Client) : Prop :=
  ∀ t : FeedTicket, .feed t ∈ c.heldTickets → t.closed = true → c.session.phase = .established →
    .removeRoute t.route ∈ past ++ c.commands ∨
      (∃ task ∈ c.tasks, ∃ name accepted reply,
        task.waiting = .departure name t accepted reply) ∨
      Forsaken t.route dropped

theorem Shut.takes (shut : c.Shut past dropped) {input : Input} (takes : c.input? m = some input) :
    (c.move m).Shut (past ++ c.taken m) (dropped ++ (c.desists? m).toList) := by
  intro t held closed live
  obtain ⟨-, tasks, -⟩ := tickets_of_takes takes
  rw [heldTickets_of_takes takes] at held
  rw [tasks, asked_of_takes past takes]
  exact (shut t held closed (established_of_move live)).imp_right
    (Or.imp_right fun ⟨v, there, departs⟩ => ⟨v, List.mem_append_left _ there, departs⟩)

theorem Shut.move (shut : c.Shut past dropped) (settled : Settled past c) (listed : c.Listed)
    (m : Move) : (c.move m).Shut (past ++ c.taken m) (dropped ++ (c.desists? m).toList) := by
  cases takes : c.input? m with
  | some input => exact shut.takes takes
  | none =>
    rw [taken_of_quiet takes, List.append_nil]
    intro u held closed live
    have live' := established_of_move live
    have grows := grows_move takes
    have orderly := (settled.move m).orderly
    have own : (Ticket.feed u).owns u.box = true := beq_self_eq_true _
    have among : Ticket.feed u ∈ Work.tickets ⟨c.move m, []⟩ := mem_tickets.mpr (Or.inr held)
    cases shuts_move settled listed takes live' u held closed with
    | waits there waiting fresh => exact Or.inr (Or.inl ⟨_, there, _, _, _, waiting⟩)
    | @gone b fresh gone =>
      -- a move that lets go of boxes gives out none
      exfalso
      rcases session_or_boxes takes with session | boxes
      · have spent := (settled.orderly.owned b).spent (Or.inl (session ▸ gone))
        exact absurd spent.given (Nat.not_lt_of_le fresh)
      · have spent := (orderly.owned b).spent (Or.inl gone)
        exact absurd (boxes ▸ spent.given) (Nat.not_lt_of_le fresh)
    | @before t held' closed' route box =>
      rcases shut t held' closed' live' with
        asked | ⟨task, there, name, accepted, reply, waits⟩ | ⟨v, there, departs⟩
      · exact Or.inl (route ▸ grows.mem_commands asked)
      · rcases settled.orderly.awaited_move there waits m with still | asked | gone | desists
        · have there' : .feed t ∈ (c.move m).heldTickets :=
            mem_heldTickets.mpr (Or.inr ⟨task, still, waits ▸ List.mem_cons_self⟩)
          have equal := (settled.move m).eq_of_route held there' rfl (congrArg some route)
          obtain rfl := Ticket.feed.inj equal
          exact Or.inr (Or.inl ⟨task, still, name, accepted, reply, waits⟩)
        · exact Or.inl (List.mem_append_right _ (route ▸ asked))
        · exact absurd (box ▸ gone) ((orderly.owned u.box).held among own).2.1
        · refine Or.inr (Or.inr ⟨task.waiting, ?_, by rw [waits, ← route]; rfl⟩)
          exact List.mem_append_right _ (Option.mem_toList.mpr desists)
      · exact Or.inr (Or.inr ⟨v, List.mem_append_left _ there, route ▸ departs⟩)

theorem Shut.run (shut : c.Shut past dropped) (settled : Settled past c) (listed : c.Listed)
    (ms : List Move) : (c.run ms).Shut (past ++ c.served ms) (dropped ++ c.desisted ms) := by
  induction ms generalizing c past dropped with
  | nil =>
    rw [served, desisted, List.append_nil, List.append_nil]
    exact shut
  | cons m rest ih =>
    rw [served, desisted, ← List.append_assoc, ← List.append_assoc]
    exact ih (shut.move settled listed m) (settled.move m) (listed.move m)

/-- No operation has a ticket that the program keeps under a name. -/
theorem Orderly.unshared (orderly : c.Orderly) {t u : Ticket} {b : Box}
    (named : c.ticket? name = some t) (there : task ∈ c.tasks) (waits : u ∈ task.waiting.tickets)
    (own : t.owns b = true) : u.owns b = false := by
  by_contra both
  have kept : 0 < c.tickets.countP fun e => e.2.owns b :=
    List.countP_pos_iff.mpr ⟨_, Assoc.mem_of_get? named, own⟩
  have share : 0 < task.waiting.share b :=
    Nat.lt_of_lt_of_le (List.countP_pos_iff.mpr ⟨u, waits, by simpa using both⟩)
      (Nat.le_add_right _ _)
  have sum : task.waiting.share b ≤ (c.tasks.map fun task => task.waiting.share b).sum :=
    List.single_le_sum (by simp) _ (List.mem_map_of_mem there)
  have single := (orderly.owned b).single
  simp only [Work.tally, owners] at single
  omega

/-- The route of a closed ticket that the program has was asked to be taken out, unless the operation
was dropped that has waited to have it closed. -/
theorem Shut.asked (shut : c.Shut past dropped) (orderly : c.Orderly)
    (named : c.ticket? name = some (.feed t)) (closed : t.closed = true)
    (live : c.session.phase = .established) :
    .removeRoute t.route ∈ past ++ c.commands ∨ Forsaken t.route dropped := by
  have held : .feed t ∈ c.heldTickets :=
    mem_heldTickets.mpr (Or.inl ⟨_, Assoc.mem_of_get? named, rfl⟩)
  refine (shut t held closed live).imp_right fun late => late.resolve_left ?_
  rintro ⟨task, there, name', accepted, reply, waits⟩
  have own : (Ticket.feed t).owns t.box = true := beq_self_eq_true _
  have other := orderly.unshared named there (u := .feed t)
    (by rw [waits]; exact List.mem_cons_self) own
  exact absurd own (by simp [other])

/-! ### Routes that are taken out -/

/-- A route that somebody was told of goes with the end of the session at the latest. -/
theorem Settled.lacks_of_ended (settled : Settled past c)
    (indexed : Session.Work.Indexed ⟨c.session, []⟩) (opened : c.session.phase ≠ .closed)
    (closed : (c.run ms).session.phase = .closed) (told : (c.run ms).session.Told h) :
    Session.Lacks h (c.run ms).session := by
  obtain ⟨inputs, same, modest⟩ := settled.exists_inputs ms
  rw [same] at closed told ⊢
  intro x there own
  have kept := (indexed.run modest).session
  obtain ⟨cell, interrupts⟩ := Session.interrupts_of_ended indexed.sound opened closed x there
  obtain ⟨r, -, known⟩ := kept.indexed x there cell interrupts
  exact kept.hidden r x.handle known (own ▸ told)

/-- Once the session has taken up that a route is to be taken out, the route is gone for good. -/
theorem Settled.lacks_of_removed (settled : Settled [] c)
    (indexed : Session.Work.Indexed ⟨c.session, []⟩) (opened : c.session.phase ≠ .closed)
    (taken : .removeRoute h ∈ c.served ms) : Session.Lacks h (c.run ms).session := by
  have removes : (Command.removeRoute h).removes h = true := beq_self_eq_true h
  by_cases closed : (c.run ms).session.phase = .closed
  · obtain ⟨b, comes, -⟩ := (settled.run ms).sourced.removed h _
      (List.mem_append_left _ (List.mem_append_right _ taken)) removes
    exact settled.lacks_of_ended indexed opened closed comes.told
  · obtain ⟨before, after, rest, rfl, next⟩ := exists_served taken
    have settled' := settled.run before
    have queued : .removeRoute h ∈ ([] ++ c.served before) ++ (c.run before).commands :=
      List.mem_append_right _ (next ▸ List.mem_cons_self)
    obtain ⟨b, comes, -⟩ := settled'.sourced.removed h _ queued removes
    have old := settled'.books.comes_le comes
    have takes : (c.run before).input? .serve = some (.command (.removeRoute h)) := by
      simp [input?, next]
    have live : (c.run before).session.phase ≠ .closed := fun late =>
      closed (run_append c before _ ▸ closed_run late (.serve :: after))
    have lacks : Session.Lacks h ((c.run before).move .serve).session := by
      rw [session_move takes]
      exact Session.lacks_step settled'.books.sound live old removes
    have old' := Nat.le_trans old
      ((Client.moves (c.run before) .serve).lastHandle_le settled'.books.sound)
    rw [run_append]
    exact (settled'.move .serve).lacks_run lacks old' after

/-- What was queued up at the start of a run is taken up first. -/
theorem queue_run (c : Client) (ms : List Move) :
    c.commands <+: c.served ms ++ (c.run ms).commands := by
  induction ms generalizing c with
  | nil => exact List.prefix_rfl
  | cons m rest ih =>
    rw [served, List.append_assoc]
    exact (moves c m).queue.trans ((List.prefix_append_right_inj _).mpr (ih (c.move m)))

/-- Once what is queued up now has been taken up, no route has the handle. -/
def Clears (h : Handle) (c : Client) (after : List Move) : Prop :=
  c.commands.length ≤ (c.served after).length → Session.Lacks h (c.run after).session

theorem Settled.clears (settled : Settled [] c) (indexed : Session.Work.Indexed ⟨c.session, []⟩)
    (opened : c.session.phase ≠ .closed) {before : List Move}
    (asked : .removeRoute h ∈ c.served before ++ (c.run before).commands) (after : List Move) :
    Clears h (c.run before) after := by
  intro handled
  have first : (c.run before).commands <+: (c.run before).served after :=
    List.prefix_of_prefix_length_le (queue_run _ after) (List.prefix_append _ _) handled
  have taken : .removeRoute h ∈ c.served (before ++ after) := by
    rw [served_append]
    exact (List.mem_append.mp asked).elim (List.mem_append_left _) fun queued =>
      List.mem_append_right _ (first.subset queued)
  rw [← run_append]
  exact settled.lacks_of_removed indexed opened taken

/-- Whoever has closed a ticket and waited for the reply has the ticket again, and its route is
gone soon. -/
theorem Settled.returned (settled : Settled [] c)
    (indexed : Session.Work.Indexed ⟨c.session, []⟩) (opened : c.session.phase ≠ .closed)
    {before : List Move} (there : task ∈ (c.run before).tasks)
    (waits : task.waiting = .departure name t accepted reply) {outcome : Outcome}
    (ended : ((c.run before).poll task.number).finished =
      (c.run before).finished ++ [(task.number, outcome)]) (after : List Move) :
    ((c.run before).poll task.number).ticket? name = some (.feed t) ∧ t.closed = true ∧
      Clears t.route ((c.run before).poll task.number) after := by
  have settled' := settled.run before
  have closed := settled'.sourced.closed_of_waits there waits
  rcases poll_waiting settled'.orderly there waits with ⟨-, same⟩ | ⟨-, returns⟩
  · -- the operation has not ended
    rw [same] at ended
    exact absurd ended (by simp)
  · have moved : (c.run before).poll task.number = c.run (before ++ [.poll task.number]) :=
      (run_append c before [.poll task.number]).symm
    refine ⟨returns.back, closed, ?_⟩
    rw [moved] at returns ⊢
    exact settled.clears indexed opened (List.mem_append_right _ returns.asked) after

/-! ### Runs -/

/-- A registration or subscription that the router was asked to end. Its ticket is closed, if it is
there at all. -/
structure Departed (c : Client) (ms : List Move) (e : Handle × Message) : Prop where
  asked : ∃ (kind : FeedKind) (id request : Id), e.2 = kind.departure request id ∧
    Names (c.run ms).session.posts kind id e.1 ∧
    ∀ before after t, ms = before ++ after → .feed t ∈ (c.run before).heldTickets →
      t.route = e.1 → t.kind = kind ∧ t.id = id
  closed : ∀ t, .feed t ∈ (c.run ms).heldTickets → t.route = e.1 → t.closed = true

theorem Fresh.departed (fresh : Fresh c) {command : Command} (asked : command ∈ c.served ms)
    {e : Handle × Message} (parting : command.parting? = some e) : c.Departed ms e := by
  have settled := fresh.settled.run ms
  obtain ⟨q, keys, box, h, answer, rfl, rfl⟩ := Command.eq_of_parting parting
  have removes : (Command.request q keys (.reply box (some (.remove h))) answer).removes h = true :=
    beq_self_eq_true h
  refine ⟨?_, fun t held route => ?_⟩
  · obtain ⟨kind, id, request, reply, names, same, -⟩ :=
      (fresh.formed asked).depart_of_removes removes
    refine ⟨kind, id, request, same, names, fun before after t split held route => ?_⟩
    have arises : t.Arises _ _ := fresh.arises held
    have told := posts_prefix_run (fresh.settled.run before).books.sound after
    rw [← run_append, ← split] at told
    have own := arises.names.mono fun e there => told.subset there
    rw [route] at own
    exact settled.books.names_unique own names
  · by_contra opened
    have spares := settled.spares held (by simpa using opened) _
      (List.mem_append_left _ (List.mem_append_right _ asked))
    rw [route] at spares
    exact nomatch removes.symm.trans spares

/-- A registration or subscription whose ticket is still there keeps its route in a move of a
session that goes on, unless that move has it left. -/
theorem Fresh.route_kept (fresh : Fresh c) {before after : List Move}
    (held : .feed t ∈ (c.run (before ++ m :: after)).heldTickets)
    (there : t.itemRoute ∈ (c.run before).session.router.routes)
    (live : ((c.run before).move m).session.phase ≠ .closed) :
    t.itemRoute ∈ ((c.run before).move m).session.router.routes ∨
      t.closed = true ∧ t.Leaves (c.served before) (c.run before) m := by
  by_cases cut : (c.run before).cuts t.itemRoute m = true
  · obtain ⟨-, leaves⟩ := (fresh.cuts_iff held (x := t.itemRoute) rfl rfl).mp cut
    exact Or.inr ⟨fresh.closed_of_leaves held leaves, leaves⟩
  · refine Or.inl ?_
    cases takes : (c.run before).input? m with
    | none => rwa [(outlook_grows (grows_move takes) 0).2.1]
    | some input =>
      have going : (c.run before).session.phase ≠ .closed := fun late => live (closed_move late m)
      have spares : (c.run before).session.withdraws t.route input = false := by
        rw [cuts_of_feed (x := t.itemRoute) rfl, takes] at cut
        simpa [going, FeedTicket.itemRoute] using cut
      rw [session_move takes] at live ⊢
      exact (Session.retains_step (fresh.settled.run before).books.sound (x := t.itemRoute)
        (by simp [FeedTicket.itemRoute]) (fun m _ _ => ⟨_, rfl⟩) spares).route live there

/-- How tickets are given up in a run of a client. -/
structure Teardown (c : Client) (ms : List Move) : Prop where
  /-- What is sent to end registrations and subscriptions is sent once for each of them. -/
  departs : ∃ (out : List StreamItem) (asked : List (Handle × Message)),
    (c.run ms).session.wire.sent = c.session.wire.sent ++ out ∧
    out.filter StreamItem.departs = asked.map (fun e => .message e.2) ∧
    (asked.map Prod.fst).Nodup ∧ ∀ e ∈ asked, c.Departed ms e
  /-- Nothing of that kind is sent any more once the session is not established. -/
  late : ∀ before after, ms = before ++ after → (c.run before).session.phase ≠ .established →
    ∃ out, (c.run ms).session.wire.sent = (c.run before).session.wire.sent ++ out ∧
      out.filter StreamItem.departs = []
  /-- CANCEL is sent once for each call. -/
  cancels : ∃ (out : List StreamItem) (asked : List Cancellation),
    (c.run ms).session.wire.sent = c.session.wire.sent ++ out ∧
    out.filter StreamItem.cancels = asked.map (fun e => .message e.message) ∧
    (asked.map fun e => e.ticket.box).Nodup ∧ ∀ e ∈ asked, e ∈ c.canceled ms
  /-- A call that is canceled is not settled, and was not canceled before. -/
  canceled : ∀ e ∈ c.canceled ms, ∃ before number name after,
    ms = before ++ .act number (.onTicket name (.cancel e.mode)) :: after ∧
    (c.run before).ticket? name = some (.call e.ticket) ∧
    e.ticket.settled = false ∧ e.ticket.cancelSent = false
  /-- Nor is it settled when CANCEL goes out, unless the operation was dropped that has waited for
  that. -/
  unsettled : ∀ before m after, ms = before ++ m :: after → ∀ out,
    ((c.run before).move m).session.wire.sent = (c.run before).session.wire.sent ++ out →
    ∀ i ∈ out, i.cancels = true → ∃ e ∈ c.canceled before,
      i = .message e.message ∧ e.left.settled = false ∧
      ((∃ name, e.waiting name ∈ c.desisted before) ∨
        ∀ u ∈ (c.run before).heldTickets, u.owns e.ticket.box = true → u = .call e.left)
  /-- To close a ticket that is closed comes to nothing. For one that is open the router is asked,
  and the reply is waited for. -/
  closes : ∀ number name t, ((c.run ms).tasks.any fun task => task.number == number) = false →
    (c.run ms).ticket? name = some (.feed t) → (c.run ms).session.phase = .established →
    let d := c.run ms
    let e := d.move (.act number (.onTicket name .depart))
    (t.closed = true → e.finished = d.finished ++ [(number, .done)] ∧ e.commands = d.commands) ∧
    (t.closed = false →
      e.tasks = d.tasks ++ [⟨number, false, .departure name { t with closed := true } d.nextBox
        (d.nextBox + 1)⟩] ∧
      e.commands =
        d.commands ++ [t.parting d.ids.draw.1 (some (d.nextBox + 1)) (some d.nextBox)])
  /-- Whoever has waited for the reply has the ticket again, whatever came of it. It is closed, and
  its route goes. -/
  returns : ∀ before task after, ms = before ++ .poll task.number :: after →
    task ∈ (c.run before).tasks → ∀ name t accepted reply,
    task.waiting = .departure name t accepted reply →
    let d := (c.run before).poll task.number
    ∀ outcome, d.finished = (c.run before).finished ++ [(task.number, outcome)] →
      d.ticket? name = some (.feed t) ∧ t.closed = true ∧ Clears t.route d after
  /-- The route of a closed ticket that the program has goes, unless the operation was dropped that
  has waited to have it closed. -/
  shut : ∀ before after, ms = before ++ after → (c.run before).session.phase = .established →
    ∀ name t, (c.run before).ticket? name = some (.feed t) → t.closed = true →
      Clears t.route (c.run before) after ∨ Forsaken t.route (c.desisted before)
  /-- Whoever drops that operation has the ticket again at once. It is closed, and its route goes
  with a reply that tells that the router's entry is gone, but not without. -/
  left : ∀ before m after, ms = before ++ m :: after → ∀ name t accepted reply,
    (c.run before).desists? m = some (.departure name t accepted reply) →
      ((c.run before).move m).ticket? name = some (.feed t) ∧ t.closed = true ∧
        ∃ request, t.Left request accepted reply c before m after
  /-- A registration or subscription that is still held loses its route because it was closed, or
  with the session. -/
  feeds : ∀ before m after, ms = before ++ m :: after → ∀ t : FeedTicket,
    .feed t ∈ (c.run ms).heldTickets → t.itemRoute ∈ (c.run before).session.router.routes →
    ((c.run before).move m).session.phase ≠ .closed →
      t.itemRoute ∈ ((c.run before).move m).session.router.routes ∨
        t.closed = true ∧ t.Leaves (c.served before) (c.run before) m
  /-- A call that is still held loses its route with the last answer, or with the session. -/
  calls : ∀ (t : CallTicket) (stream : Bool), t.kept stream ∈ (c.run ms).heldTickets →
    ∃ before after options procedure payload accepted rest, ms = before ++ .serve :: after ∧
      (c.run before).commands = .request (.call t.id options procedure payload) (callKeys t.id)
        (.call t.box) (some accepted) :: rest ∧
      ((c.run ms).session.phase ≠ .closed →
        (⟨t.route, callKeys t.id, .call t.box⟩ ∈ (c.run ms).session.router.routes ↔
          ∀ m ∈ (((c.run before).move .serve).heard after).filter (Message.answersCall t.id),
            m.moreFollows = true))

/-- Tickets may be closed, canceled and let go of in any order, and operations dropped. The router is
asked once at most to end a registration or subscription, and not once the session is not
established. CANCEL goes out once at most for a call, it is asked for while the ticket has not
returned the last result, and it goes out before that unless the program has dropped the operation
that waits for it. Whoever has closed a ticket has its route taken out, and no other ticket loses
its route by that; but if the operation that waits for the reply is dropped, the route goes only
with a reply that confirms that the router's entry is gone, however often the ticket is closed
again. -/
theorem tickets_torn_down (wire : Wire) (now closeTimeout : Nat) (ids : IdSource) (id : Id)
    (realm : Uri) (details : Dictionary) (ms : List Move) :
    (joined (Session.established wire now closeTimeout) ids id realm details).Teardown ms := by
  generalize source : joined (Session.established wire now closeTimeout) ids id realm details = c
  have fresh : Fresh c := source ▸ fresh_joined wire now closeTimeout ids id realm details
  have listed : c.Listed := source ▸ listed_joined wire now closeTimeout ids id realm details
  have indexed : Session.Work.Indexed ⟨c.session, []⟩ :=
    source ▸ Session.work_indexed_established wire now closeTimeout
  have idle : c.commands = [] := source ▸ rfl
  have opened : c.session.phase ≠ .closed := by
    rw [← source]
    exact nofun
  have once : Work.Once [] ⟨c, []⟩ := ⟨by simp [idle, partings], by simp [idle]⟩
  have shut : c.Shut [] [] := fun t held => absurd held (by simp [fresh.empty])
  have sole : Work.Sole [] ⟨c, []⟩ := source ▸ fun task there => absurd there List.not_mem_nil
  have settled := fresh.settled
  refine ⟨?departs, ?late, ?cancels, ?canceled, ?unsettled, ?closes, ?returns, ?shut, ?left,
    ?feeds, ?calls⟩
  case departs =>
    obtain ⟨out, sent, among, -⟩ := once.sent_run settled listed ms
    obtain ⟨asked, part, same⟩ := List.sublist_map_iff.mp among
    have routes : ((partings (c.served ms)).map Prod.fst).Nodup := by
      have all := (once.run settled listed ms).routes
      rw [List.nil_append, partings_append, List.map_append] at all
      exact all.of_append_left
    refine ⟨out, asked, sent, same, routes.sublist (part.map _), fun e there => ?_⟩
    obtain ⟨command, taken, parting⟩ := List.mem_filterMap.mp (part.subset there)
    exact fresh.departed taken parting
  case late =>
    rintro before after rfl ended
    obtain ⟨out, sent, -, none'⟩ :=
      (once.run settled listed before).sent_run (settled.run before) (listed.run before) after
    rw [run_append]
    exact ⟨out, sent, none' ended⟩
  case cancels =>
    obtain ⟨out, asked, sent, same, among⟩ := canceled_sent idle ms
    exact ⟨out, asked, sent, same, (settled.nodup_canceled ms).sublist (among.map _),
      fun e there => among.subset there⟩
  case canceled =>
    intro e there
    obtain ⟨before, m, after, split, how⟩ := exists_cancels there
    obtain ⟨number, name, rfl, held, -, unsettled, first, -⟩ := of_cancels how
    exact ⟨before, number, name, after, split, held, unsettled, first⟩
  case unsettled =>
    rintro before m after - out sent i there cancels
    exact settled.unsettled_of_sent idle sent there cancels
  case closes =>
    intro number name t free held live
    exact ⟨fun closed => finished_depart free held (Or.inl closed),
      fun still => tasks_depart free held still live⟩
  case returns =>
    rintro before task after - there name t accepted reply waits d outcome ended
    exact settled.returned indexed opened there waits ended after
  case shut =>
    rintro before after - live name t named closed
    have shut' := shut.run settled listed before
    exact (shut'.asked (settled.run before).orderly named closed live).imp_left fun asked =>
      settled.clears indexed opened asked after
  case left =>
    rintro before m after - name t accepted reply desists
    obtain ⟨back, closed, request, left⟩ := fresh.left listed sole desists
    exact ⟨back, closed, request, left after⟩
  case feeds =>
    rintro before m after rfl t held there live
    exact fresh.route_kept held there live
  case calls =>
    intro t stream held
    obtain ⟨before, after, options, procedure, payload, accepted, rest, results, split, next, -,
      account⟩ := fresh.call_account held
    exact ⟨before, after, options, procedure, payload, accepted, rest, split, next, account.route⟩

/-- The router refuses to end a subscription, but the program has dropped the operation that waited
for that. It closes the ticket again, which succeeds at once, and the route stays. A call whose last
result has come in can still be canceled, and if the operation that waits for CANCEL is dropped, that
goes out after the result was returned. -/
theorem closed_again_and_canceled_late :
    let t : FeedTicket := ⟨.subscription, Id.min, ⟨"a"⟩, 2, 2, 0, true⟩
    let refusal : Message := .error MessageType.unsubscribe.code Id.min.next []
      ⟨"wamp.error.not_authorized"⟩ Payload.empty
    let d := newcomer.run (subscribed ++ [.act 1 (.onTicket "t" .depart), .serve,
      .act 2 (.desist 1), .arrive (.item (.message refusal))])
    let e := d.run [.act 3 (.onTicket "t" .depart), .serve]
    let u := CallTicket.opened Id.min ⟨"a"⟩ 1 1
    let called := calls 0 "u" ++ [.poll 0]
    let last : Move := .arrive (.item (.message (.result Id.min [] Payload.empty)))
    let cancel : Move := .act 1 (.onTicket "u" (.cancel .kill))
    let read : List Move := [.act 3 (.onTicket "u" .nextOutcome), .poll 3]
    let unread := newcomer.run (called ++ [last, cancel])
    let settled := newcomer.run (called ++ [cancel, .act 2 (.desist 1), last] ++ read)
    (d.session.phase = .established ∧ d.ticket? "t" = some (.feed t) ∧
      e.finished = d.finished ++ [(3, .done)] ∧ e.commands = [] ∧
      e.session.phase = .established ∧ t.itemRoute ∈ e.session.router.routes) ∧
    ((unread.move .serve).session.wire.sent =
      unread.session.wire.sent ++ [.message (.cancel Id.min [("mode", .string "kill")])]) ∧
    (settled.ticket? "u" = some (.call { u with cancelSent := true, settled := true, read := 1 }) ∧
      (settled.move .serve).session.wire.sent =
        settled.session.wire.sent ++ [.message (.cancel Id.min [("mode", .string "kill")])]) := by
  intro t refusal d e u called last cancel read unread settled
  have routes : t.itemRoute ∈ e.session.router.routes := by
    rw [show e.session.router.routes = [t.itemRoute] from rfl]
    exact List.mem_singleton_self _
  exact ⟨⟨rfl, rfl, rfl, rfl, rfl, routes⟩, rfl, rfl, rfl⟩

/-- A subscription that is closed twice and then let go of is ended once. -/
example :
    let d := newcomer.run (subscribed ++ [.act 1 (.onTicket "t" .depart), .serve,
      .arrive (.item (.message (.unsubscribed Id.min.next))), .poll 1,
      .act 2 (.onTicket "t" .depart), .act 3 (.onTicket "t" .drop), .serve])
    d.session.wire.sent.filter StreamItem.departs =
      [.message (.unsubscribe Id.min.next Id.min)] ∧ d.session.router.routes = [] :=
  ⟨rfl, rfl⟩

end WampClient.Client
