import WampClient.Proofs.Client.Dropping
import WampClient.Proofs.Client.Endurance

/-! What becomes of a registration or subscription where the program closes the ticket and then drops
the operation that waits for the reply, but not the ticket. That is closed, so to close it again
comes to nothing, and nobody takes its route out: the route goes with the reply to the one request
that there was, if this confirms that the router's entry is gone, and it stays for as long as the
session goes on if it does not. -/
namespace WampClient

/-- What becomes of a registration or subscription when the program drops in a move the operation
that waits to have it ended. -/
structure FeedTicket.Left (t : FeedTicket) (request : Id) (accepted reply : Box) (c : Client)
    (before : List Move) (m : Move) (after : List Move) : Prop where
  /-- The router was asked to end it. -/
  asked : t.parting request (some reply) (some accepted) ∈
    c.served before ++ (c.run before).commands
  /-- Nothing else is ever asked about its route. -/
  alone : ∀ command ∈ c.served (before ++ m :: after) ++ (c.run (before ++ m :: after)).commands,
    command.removes t.route = true → command = t.parting request (some reply) (some accepted)
  /-- Once a reply is handled that tells that the router's entry is gone, so is the route. -/
  confirmed : ∀ early came late, after = early ++ .arrive (.item (.message came)) :: late →
    t.Answered request reply came (c.run (before ++ m :: early)).session →
      came.confirmsGone = true → Session.Lacks t.route (c.run (before ++ m :: after)).session
  /-- If it was still there, it stays until then, also after any other reply. -/
  stays : t.itemRoute ∈ (c.run before).session.router.routes →
    (c.run (before ++ m :: after)).session.phase ≠ .closed →
    (∀ early came late, after = early ++ .arrive (.item (.message came)) :: late →
      t.Answered request reply came (c.run (before ++ m :: early)).session →
        came.confirmsGone = false) →
    t.itemRoute ∈ (c.run (before ++ m :: after)).session.router.routes

namespace Client

variable {c d : Client} {w w' : Work} {past : List Command} {t : FeedTicket} {h : Handle}
  {m : Move} {ms before : List Move} {task other : Task} {name : String} {accepted reply : Box}

/-! ### Operations that wait to have something ended -/

/-- Two operations never wait to have the same registration or subscription ended. -/
theorem Work.Midway.eq_of_departs (settled : w.Midway past) (there : task ∈ w.client.tasks)
    (there' : other ∈ w.client.tasks) (departs : task.waiting.departs? = some h)
    (departs' : other.waiting.departs? = some h) : task = other := by
  obtain ⟨name, t, accepted, reply, waits, route⟩ := Waiting.eq_of_departs departs
  obtain ⟨name', u, accepted', reply', waits', route'⟩ := Waiting.eq_of_departs departs'
  have mine := mem_tickets_of_departure there waits
  have yours := mem_tickets_of_departure there' waits'
  have same := settled.eq_of_route mine yours (congrArg some route) (congrArg some route')
  obtain rfl := Ticket.feed.inj same
  have own : (Ticket.feed t).owns t.box = true := beq_self_eq_true _
  by_contra differ
  -- otherwise there are two tickets for one box
  have apart : other ∈ (w.client.without task.number).tasks := by
    refine List.mem_filter.mpr ⟨there', ?_⟩
    simp only [decide_not, Bool.not_eq_true', decide_eq_false_iff_not]
    exact fun number => differ
      (List.inj_on_of_nodup_map settled.listed.numbers there there' number.symm)
  have first : 0 < task.waiting.tickets.countP (Ticket.owns t.box) :=
    List.countP_pos_iff.mpr ⟨.feed t, waits ▸ List.mem_cons_self, own⟩
  have second : 0 < (w.client.without task.number).heldTickets.countP (Ticket.owns t.box) := by
    have held : .feed t ∈ (w.client.without task.number).heldTickets :=
      mem_heldTickets.mpr (Or.inr ⟨other, apart, waits' ▸ List.mem_cons_self⟩)
    exact List.countP_pos_iff.mpr ⟨_, held, own⟩
  have both := (perm_without settled.listed.numbers there).countP_eq (Ticket.owns t.box)
  have tally := countP_tickets_le w t.box
  have single := (settled.owned t.box).single
  rw [List.countP_append] at both
  rw [Work.tickets, List.countP_append] at tally
  omega

/-- As long as an operation waits for the reply, its request is all there is that has the route taken
out. -/
def Work.Sole (past : List Command) (w : Work) : Prop :=
  ∀ task ∈ w.client.tasks, ∀ name t accepted reply,
    task.waiting = .departure name t accepted reply → ∃ request,
      t.parting request (some reply) (some accepted) ∈ past ++ w.client.commands ∧
        ∀ command ∈ past ++ w.client.commands, command.removes t.route = true →
          command = t.parting request (some reply) (some accepted)

theorem Work.Sole.links (sole : w.Sole past) (settled : w.Midway past) (links : w.Links w') :
    w'.Sole past := by
  intro task there name t accepted reply waits
  rcases links.departures there waits with old | ⟨fresh, request, asked⟩
  · obtain ⟨request, asked, alone⟩ := sole task old name t accepted reply waits
    refine ⟨request, links.grows.mem_commands asked, fun command among removes => ?_⟩
    rcases List.mem_append.mp among with taken | queue
    · exact alone command (List.mem_append_left _ taken) removes
    rcases links.lets command queue with before | lets
    · exact alone command (List.mem_append_right _ before) removes
    rcases lets _ removes with ⟨u, held, opened, route⟩ | ⟨other, among', left, departs⟩
    · cases (settled.spares held opened route _ asked).symm.trans (removes_parting t _ _ _)
    · have departs' : task.waiting.departs? = some t.route := congrArg Waiting.departs? waits
      exact absurd (settled.eq_of_departs old among' departs' departs ▸ there) left
  · -- the ticket was open until now, so nothing else has been asked about its route
    obtain ⟨new, queue, partings⟩ := links.partings settled.listed
    have last : t.parting request (some reply) (some accepted) ∈ new := by
      rw [queue] at asked
      refine (List.mem_append.mp asked).resolve_left fun old => ?_
      have born := settled.books.issued.fresh _ (List.mem_append_right _ old) accepted
        (by simp [FeedTicket.parting, Command.feeds])
      exact absurd born.2 (Nat.not_lt_of_le fresh)
    refine ⟨request, List.mem_append_right _ asked, fun command among removes => ?_⟩
    cases partings with
    | none lasting kept => cases lasting _ last
    | @closes u request' accepted' reply' held opened live issues boxes born waits' kept =>
      have same := List.mem_singleton.mp (issues ▸ last)
      have route : u.route = t.route := by
        have removes' := removes_parting t request (some reply) (some accepted)
        rw [same] at removes'
        simpa [FeedTicket.parting, Command.removes, Target.removes] using removes'
      rw [queue, issues, ← List.append_assoc] at among
      rcases List.mem_append.mp among with old | new'
      · cases (settled.spares held opened (congrArg some route) command old).symm.trans removes
      · rw [List.mem_singleton.mp new', same]
    | drops held opened live issues gone kept =>
      obtain ⟨-, -, -, none'⟩ := Command.request.inj (List.mem_singleton.mp (issues ▸ last))
      cases none'

theorem Work.Sole.takes (sole : Work.Sole past ⟨c, []⟩) {input : Input}
    (takes : c.input? m = some input) : Work.Sole (past ++ c.taken m) ⟨c.move m, []⟩ := by
  intro task there
  obtain ⟨-, tasks, -⟩ := tickets_of_takes takes
  rw [asked_of_takes past takes]
  exact sole task (tasks ▸ there)

theorem Work.Sole.run (sole : Work.Sole past ⟨c, []⟩) (settled : Settled past c)
    (listed : c.Listed) (ms : List Move) : Work.Sole (past ++ c.served ms) ⟨c.run ms, []⟩ :=
  run_of_links (fun settled sole links => sole.links settled links)
    (fun sole takes => sole.takes takes) sole settled listed ms

/-! ### Operations that are dropped -/

theorem of_desists {v : Waiting} (desists : c.desists? m = some v) :
    ∃ number, ∃ task ∈ c.tasks, m = .act number (.desist task.number) ∧ task.waiting = v ∧
      c.move m = (c.without task.number).handBack v := by
  cases m with
  | act number a =>
    cases a with
    | desist dropped =>
      rw [desists?] at desists
      split at desists
      · cases desists
      next free =>
        obtain ⟨task, found, rfl⟩ := Option.map_eq_some_iff.mp desists
        obtain rfl : task.number = dropped := by simpa using List.find?_some found
        have dropped : c.desist task.number =
            some ((c.without task.number).handBack task.waiting) := by
          rw [desist, found, without_eq]
        refine ⟨number, task, List.mem_of_find?_eq_some found, rfl, rfl, ?_⟩
        rw [move, if_neg free, act, dropped]
    | _ => cases desists
  | _ => cases desists

/-- The program has the ticket again, and all there is that has its route taken out is the request
that was made when it was closed. -/
theorem Settled.quits_of_desists (settled : Settled past c) (listed : c.Listed)
    (sole : Work.Sole past ⟨c, []⟩)
    (desists : c.desists? m = some (.departure name t accepted reply)) :
    .feed t ∈ c.heldTickets ∧ (c.move m).ticket? name = some (.feed t) ∧ c.input? m = none ∧
      ∃ request, t.parting request (some reply) (some accepted) ∈ past ++ c.commands ∧
        Work.Quit t request (some reply) (some accepted) past ⟨c.move m, []⟩ := by
  obtain ⟨number, task, there, rfl, waits, moved⟩ := of_desists desists
  let d := ((c.without task.number).forget accepted).forget reply
  have kept : (c.without task.number).handBack (.departure name t accepted reply) =
      d.keep name (.feed t) := rfl
  obtain ⟨request, asked, alone⟩ := sole task there name t accepted reply waits
  have begun : Part ⟨c, []⟩ ⟨d, [.feed t]⟩ := by
    have part : Part ⟨c, []⟩ ⟨_, task.waiting.tickets ++ []⟩ := .gaveUp there
    rwa [waits] at part
  have work := settled.work listed
  have start : Work.Quit t request (some reply) (some accepted) past ⟨d, [.feed t]⟩ := by
    refine ⟨asked, alone, fun other among departs => ?_⟩
    obtain ⟨among, differ⟩ := List.mem_filter.mp among
    have departs' : task.waiting.departs? = some t.route := congrArg Waiting.departs? waits
    rw [work.eq_of_departs among there departs departs'] at differ
    simp at differ
  have quit := ((work.part begun).chain start (fun settled quit links => quit.links settled links)
    (Relation.ReflTransGen.mono (fun _ _ => .part) _ _ (parts_keep d name (.feed t) []))).2
  rw [moved, kept]
  exact ⟨mem_heldTickets.mpr (Or.inr ⟨task, there, waits ▸ List.mem_cons_self⟩),
    ticket?_keep d name _, rfl, request, asked, quit⟩

theorem Fresh.left (fresh : Fresh c) (listed : c.Listed) (sole : Work.Sole [] ⟨c, []⟩)
    (desists : (c.run before).desists? m = some (.departure name t accepted reply)) :
    ((c.run before).move m).ticket? name = some (.feed t) ∧ t.closed = true ∧
      ∃ request, ∀ after, t.Left request accepted reply c before m after := by
  have settled := fresh.settled.run before
  rw [List.nil_append] at settled
  obtain ⟨held, back, quiet, request, asked, quit⟩ := settled.quits_of_desists (listed.run before)
    (sole.run fresh.settled listed before) desists
  have later := fun after => fresh.quit_later listed quiet quit after
  have closed : t.closed = true := by
    obtain ⟨number, task, there, -, waits, -⟩ := of_desists desists
    exact settled.sourced.closed_of_waits there waits
  refine ⟨back, closed, request, fun after => ⟨asked, (later after).alone, ?_, ?_⟩⟩
  · rintro early came late rfl answered confirms
    rw [← List.cons_append, ← List.append_assoc]
    exact fresh.lacks_of_confirmed (later early) answered confirms
  · intro there going refused
    have arises : t.Arises _ _ := fresh.arises held
    exact fresh.route_stays_later listed quiet quit arises.names there going refused

end Client

end WampClient
