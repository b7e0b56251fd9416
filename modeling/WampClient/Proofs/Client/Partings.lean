import WampClient.Proofs.Client.Exchanges
import WampClient.Proofs.Client.Openings
import WampClient.Proofs.Session.Commissions

/-! How registrations and subscriptions are left. The router is asked once to end one that is open:
when its ticket is closed, and then somebody waits for the reply, or when the ticket is let go of,
and then nobody does. Nothing else that a client asks for has a registration or subscription
ended. -/
namespace WampClient

/-- Whether the message asks the router to end a registration or subscription. -/
def Message.departs : Message → Bool
  | .unregister .. => true
  | .unsubscribe .. => true
  | _ => false

def StreamItem.departs : StreamItem → Bool
  | .message m => m.departs
  | .ping _ => false

/-- The route that goes with the reply to a request, and what the request says. -/
def Command.parting? : Command → Option (Handle × Message)
  | .request m _ (.reply _ (some (.remove h))) _ => some (h, m)
  | _ => none

/-- No registration or subscription is to end by way of the command. -/
def Command.lasting (command : Command) : Bool :=
  command.parting?.isNone && !command.message?.any Message.departs

/-- The request with which the ticket asks the router to end it. -/
def FeedTicket.parting (t : FeedTicket) (request : Id) (reply answer : Option Box) : Command :=
  .request (t.kind.departure request t.id) (t.kind.departureKeys request)
    (.reply reply (some (.remove t.route))) answer

@[simp] theorem FeedTicket.parting?_parting (t : FeedTicket) (request : Id)
    (reply answer : Option Box) :
    (t.parting request reply answer).parting? = some (t.route, t.kind.departure request t.id) := rfl

theorem InvocationTicket.Answers.departs {t : InvocationTicket} {m : Message} {final : Bool}
    (answers : t.Answers m final) : m.departs = false := by
  cases answers <;> rfl

theorem Command.eq_of_parting {command : Command} {e : Handle × Message}
    (parting : command.parting? = some e) : ∃ m keys reply h answer,
      command = .request m keys (.reply reply (some (.remove h))) answer ∧ e = (h, m) := by
  rw [parting?.eq_def] at parting
  split at parting
  next m keys reply h answer =>
    exact ⟨m, keys, reply, h, answer, rfl, (Option.some.inj parting).symm⟩
  · cases parting

theorem Command.about_parting {command : Command} {h : Handle} {m : Message}
    (parting : command.parting? = some (h, m)) :
    command.removes h = true ∧ command.message? = some m := by
  obtain ⟨m', keys, reply, h', answer, rfl, same⟩ := eq_of_parting parting
  obtain ⟨rfl, rfl⟩ := Prod.mk.inj same
  exact ⟨beq_self_eq_true _, rfl⟩

namespace Client

variable {c d : Client} {ts us : List Ticket} {w w' : Work} {past cmds : List Command}
  {new : List Command} {h : Handle} {t : FeedTicket} {m : Move} {ms : List Move}

/-! ### In the middle of a move -/

/-- All that is known of a client in the middle of a move. -/
structure Work.Midway (past : List Command) (w : Work) : Prop where
  books : Books past w.client
  owned : ∀ b, w.Owned b
  sourced : w.Sourced past
  listed : w.client.Listed

theorem Settled.work (settled : Settled past c) (listed : c.Listed) :
    Work.Midway past ⟨c, []⟩ :=
  ⟨settled.books, settled.orderly.owned, settled.sourced, listed⟩

theorem Work.Midway.part (settled : w.Midway past) (part : Part w w') : w'.Midway past := by
  have owned : ∀ b, w'.Owned b := fun b => (settled.owned b).tallies part.grows (part.tallies b)
  exact ⟨settled.books.grows part.grows, owned, settled.sourced.part part owned,
    part.listed settled.listed⟩

theorem Work.Midway.resumes {task : Task} {outcome : Outcome}
    (settled : Work.Midway past ⟨c, []⟩) (there : task ∈ c.tasks)
    (resumes : c.Resumes (c.without task.number).tasks task.waiting outcome w) :
    w.Midway past := by
  have owned : ∀ b, w.Owned b := fun b =>
    (settled.owned b).tallies resumes.grows (Or.inl (resumes.tally_le there b))
  exact ⟨settled.books.grows resumes.grows, owned, settled.sourced.resumes there resumes owned,
    (resumes.turns settled.listed there rfl).2⟩

/-- Nobody has asked for the route of a ticket to be taken out that was not given up. -/
theorem Work.Midway.spares {t : Ticket} (settled : w.Midway past) (held : t ∈ w.tickets)
    (opened : t.isClosed = false) (route : t.route? = some h) :
    ∀ command ∈ past ++ w.client.commands, command.removes h = false :=
  settled.sourced.spares settled.books held opened route

/-- Two tickets never share a route. -/
theorem Work.Midway.eq_of_route {t u : Ticket} (settled : w.Midway past) (ht : t ∈ w.tickets)
    (hu : u ∈ w.tickets) (mine : t.route? = some h) (yours : u.route? = some h) : t = u :=
  settled.sourced.eq_of_route settled.books settled.owned ht hu mine yours

/-! ### Parts of a move -/

/-- The ticket is there, and maybe more was read with it. -/
def Work.Keeps (w : Work) (t : FeedTicket) : Prop := ∃ n, .feed { t with read := n } ∈ w.tickets

theorem keeps_of_mem (held : .feed t ∈ w.tickets) : w.Keeps t := ⟨t.read, held⟩

/-- What the client asks for in addition, as far as it has to do with registrations and
subscriptions that are left, and what becomes of those that are open. -/
inductive Work.Partings (w w' : Work) (new : List Command) : Prop where
  | none (lasting : ∀ command ∈ new, command.lasting = true)
      (kept : w.client.session.phase = .established →
        ∀ u : FeedTicket, .feed u ∈ w.tickets → u.closed = false → w'.Keeps u)
  /-- The ticket is closed, and somebody waits for the reply. -/
  | closes {t : FeedTicket} {request : Id} {accepted reply : Box} (held : .feed t ∈ w.tickets)
      (opened : t.closed = false) (live : w.client.session.phase = .established)
      (issues : new = [t.parting request (some reply) (some accepted)])
      (boxes : w.client.nextBox < w'.client.nextBox) (fresh : w.client.nextBox ≤ accepted)
      (waits : ∃ task ∈ w'.client.tasks, ∃ name,
        task.waiting = .departure name { t with closed := true } accepted reply)
      (kept : ∀ u : FeedTicket, .feed u ∈ w.tickets → u = t ∨ w'.Keeps u)
  /-- The ticket is let go of, and nobody waits for the reply. -/
  | drops {t : FeedTicket} {request : Id} (held : .feed t ∈ w.tickets)
      (opened : t.closed = false) (live : w.client.session.phase = .established)
      (issues : new = [t.parting request none none])
      (gone : t.box ∈ w'.client.session.gone)
      (kept : ∀ u : FeedTicket, .feed u ∈ w.tickets → u = t ∨ w'.Keeps u)

/-- What is asked for in addition has to do with no registration or subscription. -/
def Work.Undisturbed (w w' : Work) : Prop :=
  ∃ new, w'.client.commands = w.client.commands ++ new ∧
    (∀ command ∈ new, command.lasting = true) ∧
      ∀ u : FeedTicket, .feed u ∈ w.tickets → w'.Keeps u

theorem Work.Undisturbed.partings (undisturbed : w.Undisturbed w') :
    ∃ new, w'.client.commands = w.client.commands ++ new ∧ w.Partings w' new := by
  obtain ⟨new, queue, lasting, kept⟩ := undisturbed
  exact ⟨new, queue, .none lasting fun _ u held _ => kept u held⟩

theorem undisturbed_of_perm (tickets : w'.tickets.Perm w.tickets)
    (commands : w'.client.commands = w.client.commands) : w.Undisturbed w' :=
  ⟨[], by rw [commands, List.append_nil], by simp, fun _ held =>
    keeps_of_mem (tickets.mem_iff.mpr held)⟩

theorem undisturbed_of_one {command : Command} (tickets : w'.tickets.Perm w.tickets)
    (commands : w'.client.commands = w.client.commands ++ [command])
    (lasting : command.lasting = true) : w.Undisturbed w' :=
  ⟨_, commands, by simpa using lasting, fun _ held => keeps_of_mem (tickets.mem_iff.mpr held)⟩

/-- An operation begins to wait, with tickets from the hands. -/
theorem kept_await {number : Nat} {onSession : Bool} {v : Waiting} (tickets : d.tickets = c.tickets)
    (tasks : d.tasks = c.tasks ++ [⟨number, onSession, v⟩]) {u : Ticket}
    (hand : u ∈ ts → u ∈ v.tickets ++ us) (held : u ∈ Work.tickets ⟨c, ts⟩) :
    u ∈ Work.tickets ⟨d, us⟩ := by
  rw [Work.tickets, heldTickets_await tickets tasks]
  rcases List.mem_append.mp held with own | other
  · rcases List.mem_append.mp (hand own) with waits | still
    · exact List.mem_append_right _ (List.mem_append_right _ waits)
    · exact List.mem_append_left _ still
  · exact List.mem_append_right _ (List.mem_append_left _ other)

theorem undisturbed_await {number : Nat} {onSession : Bool} {v : Waiting} {command : Command}
    (tickets : d.tickets = c.tickets) (tasks : d.tasks = c.tasks ++ [⟨number, onSession, v⟩])
    (commands : d.commands = c.commands ++ [command]) (lasting : command.lasting = true)
    (hand : ∀ u : FeedTicket, .feed u ∈ ts → .feed u ∈ v.tickets ++ us) :
    Work.Undisturbed ⟨c, ts⟩ ⟨d, us⟩ :=
  ⟨_, commands, by simpa using lasting, fun u held =>
    keeps_of_mem (kept_await tickets tasks (hand u) held)⟩

theorem undisturbed_whenEstablished (number : Nat) (operation : Operation) (target : String)
    {go : Client → Client} (goes : Work.Undisturbed ⟨c, ts⟩ ⟨go c, ts⟩) :
    Work.Undisturbed ⟨c, ts⟩ ⟨c.whenEstablished number operation target go, ts⟩ :=
  whenEstablished_keeps (P := fun d => Work.Undisturbed ⟨c, ts⟩ ⟨d, ts⟩) goes 
    (undisturbed_of_perm (.refl _) rfl)

theorem tickets_of_release (c : Client) (t : Ticket) (ts : List Ticket) :
    Work.tickets ⟨c.release t, ts⟩ = Work.tickets ⟨c, ts⟩ := by
  rw [Work.tickets, Work.tickets, heldTickets, heldTickets, tickets_release, tasks_release]

theorem partings_release (c : Client) (t : Ticket) (ts : List Ticket) :
    ∃ new, (c.release t).commands = c.commands ++ new ∧
      Work.Partings ⟨c, t :: ts⟩ ⟨c.release t, ts⟩ new := by
  have others : ∀ u : FeedTicket, .feed u ∈ Work.tickets ⟨c, t :: ts⟩ →
      .feed u = t ∨ Work.Keeps ⟨c.release t, ts⟩ u := by
    intro u held
    refine (List.mem_cons.mp held).imp_right fun other => keeps_of_mem ?_
    rwa [tickets_of_release]
  have bare : (∀ u, t ≠ .feed u) → ∀ new, (c.release t).commands = c.commands ++ new →
      (∀ command ∈ new, command.lasting = true) →
      ∃ new, (c.release t).commands = c.commands ++ new ∧
        Work.Partings ⟨c, t :: ts⟩ ⟨c.release t, ts⟩ new := fun other new queue lasting =>
    ⟨new, queue, .none lasting fun _ u held _ => (others u held).resolve_left
      fun same => other u same.symm⟩
  have call : ∀ u : CallTicket, (∀ v, t ≠ .feed v) → c.release t = c.release (.call u) →
      ∃ new, (c.release t).commands = c.commands ++ new ∧
        Work.Partings ⟨c, t :: ts⟩ ⟨c.release t, ts⟩ new := by
    intro u other same
    cases settled : u.settled with
    | true =>
      refine bare other [] ?_ (by simp)
      rw [same, release_call, settled, List.append_nil]
      rfl
    | false =>
      refine bare other [.removeRoute u.route] ?_
        (by simp [Command.lasting, Command.parting?, Command.message?])
      rw [same, release_call, settled]
      rfl
  cases t with
  | call u => exact call u (by simp) rfl
  | results u => exact call u (by simp) rfl
  | feed u =>
    by_cases late : (u.closed || c.session.phase != .established) = true
    · refine ⟨[], ?_, .none (by simp) fun live v held opened => ?_⟩
      · rw [release_feed, if_pos late, List.append_nil]
        rfl
      · refine (others v held).resolve_left fun same => ?_
        obtain rfl := Ticket.feed.inj same
        simp_all
    · obtain ⟨opened, live⟩ : u.closed = false ∧ c.session.phase = .established := by
        simpa using late
      refine ⟨[u.parting c.drawId.1 none none], ?_, .drops (mem_tickets.mpr
        (Or.inl List.mem_cons_self)) opened live rfl ?_ fun v held => ?_⟩
      · rw [release_feed, if_neg late]
        rfl
      · rw [gone_release]
        exact List.mem_cons_self
      · exact (others v held).imp_left Ticket.feed.inj
  | invocation u =>
    by_cases late : (u.handled || c.session.phase != .established) = true
    · refine bare (by simp) [] ?_ (by simp)
      rw [release_invocation, if_pos late, List.append_nil]
    · refine bare (by simp) [.send u.abandonment none] ?_ ?_
      · rw [release_invocation, if_neg late]
        rfl
      · exact fun _ there => List.mem_singleton.mp there ▸ rfl

theorem lasting_send {m : Message} {answer : Option Box} (plain : m.departs = false) :
    (Command.send m answer).lasting = true := congrArg not plain

/-- A ticket that is not that of a registration or subscription is used to send something. -/
theorem undisturbed_sendFor {number : Nat} {operation : Operation} {target name : String}
    {outcome : Outcome} {m : Message} {u : Ticket} (v : Ticket) (other : ∀ t, u ≠ .feed t)
    (plain : m.departs = false) :
    Work.Undisturbed ⟨c, u :: ts⟩
      ⟨c.sendFor number false m operation target (some (name, v)) outcome, ts⟩ := by
  refine @undisturbed_await c (c.sendFor number false m operation target (some (name, v)) outcome)
    _ _ _ _ _ _ rfl rfl rfl (lasting_send plain) fun t held => ?_
  exact List.mem_append_right _ (List.mem_of_ne_of_mem (other t).symm held)

theorem Part.partings (part : Part w w') (listed : w.client.Listed) :
    ∃ new, w'.client.commands = w.client.commands ++ new ∧ w.Partings w' new := by
  have none' : ∀ {ts us : List Ticket}, ∀ u : FeedTicket, .feed u ∈ ts → .feed u ∈ us ++ ts :=
    fun _ held => List.mem_append_right _ held
  cases part with
  | concluded number outcome => exact Work.Undisturbed.partings (undisturbed_of_perm (.refl _) rfl)
  | called fresh procedure payload options keep =>
    refine Work.Undisturbed.partings (undisturbed_whenEstablished _ _ _ ?_)
    exact undisturbed_await rfl rfl rfl rfl none'
  | enrolled fresh kind pattern options name =>
    refine Work.Undisturbed.partings (undisturbed_whenEstablished _ _ _ ?_)
    refine undisturbed_await rfl rfl rfl ?_ none'
    cases kind <;> rfl
  | published fresh topic payload options =>
    refine Work.Undisturbed.partings (undisturbed_whenEstablished _ _ _ ?_)
    dsimp only
    split
    · exact undisturbed_await rfl rfl rfl rfl none'
    · exact undisturbed_await rfl rfl rfl rfl none'
  | left fresh =>
    refine Work.Undisturbed.partings ?_
    unfold leave
    split
    · exact undisturbed_of_perm (.refl _) rfl
    · exact undisturbed_await rfl rfl rfl rfl none'
  | dropped => exact Work.Undisturbed.partings (undisturbed_of_one (.refl _) rfl rfl)
  | took found =>
    exact Work.Undisturbed.partings (undisturbed_of_perm (perm_takeOut listed found) rfl)
  | put name t => exact Work.Undisturbed.partings (undisturbed_of_perm (perm_putting name t) rfl)
  | released t => exact partings_release _ t _
  | @waits c ts number fresh onSession v plain =>
    refine ⟨[], (List.append_nil _).symm, .none (by simp) fun _ u held _ => ?_⟩
    exact keeps_of_mem
      (@kept_await c (c.await number onSession v) _ _ _ _ _ rfl rfl _ (fun own => own) held)
  | canceled fresh name more first mode =>
    exact Work.Undisturbed.partings (undisturbed_sendFor _ (by simp) rfl)
  | answered fresh name first answers =>
    exact Work.Undisturbed.partings (undisturbed_sendFor _ (by simp) answers.departs)
  | @departed c ts number fresh name t first live =>
    refine ⟨_, rfl, .closes (mem_tickets.mpr (Or.inl List.mem_cons_self)) first live rfl
      (Nat.lt_add_of_pos_right (n := c.nextBox) Nat.two_pos) (Nat.le_refl _)
      ⟨_, List.mem_append_right _ List.mem_cons_self, name, rfl⟩ fun u held => ?_⟩
    · refine (em (u = t)).imp_right fun other => keeps_of_mem ?_
      refine @kept_await c (c.departing number name t) _ _ _ _ _ rfl rfl _ (fun own => ?_) held
      exact List.mem_append_right _ (List.mem_of_ne_of_mem (fun same => other
        (Ticket.feed.inj same)) own)
  | @shut c ts t late =>
    exact ⟨[], (List.append_nil _).symm, .none (by simp) fun live => absurd live late⟩
  | streamed t =>
    refine ⟨[], (List.append_nil _).symm, .none (by simp) fun _ u held _ => ?_⟩
    rcases List.mem_cons.mp held with same | other
    · cases same
    · exact keeps_of_mem (List.mem_cons_of_mem _ other)
  | gaveUp there =>
    refine Work.Undisturbed.partings (undisturbed_of_perm (perm_gaveUp listed there) ?_)
    rw [forgetAll_eq]
    rfl

/-! ### Moves that the session has no part in -/

/-- The smallest things that happen in a move which the session has no part in. -/
inductive Work.Links : Work → Work → Prop where
  | part {w w' : Work} (part : Part w w') : Links w w'
  | resumes {c : Client} {task : Task} {outcome : Outcome} {w : Work} (there : task ∈ c.tasks)
      (resumes : c.Resumes (c.without task.number).tasks task.waiting outcome w) : Links ⟨c, []⟩ w
  | turned {c : Client} {task : Task} {request : Id} {procedure : Uri} {accepted box : Box}
      {route : Handle} {number : Nat}
      (found : c.tasks.find? (fun t => t.number == number) = some task)
      (moved : ∃ v, c.advance task.waiting = some (c, .inl v))
      (waits : task.waiting = .call request procedure accepted box none)
      (was : c.wasAccepted accepted = some (.ok route)) :
      Links ⟨c, []⟩ ⟨{ c with tasks := c.tasks.map fun t => if t.number = number then
        { t with waiting := .lastOutcome (CallTicket.opened request procedure route box) } else t },
        []⟩

theorem Polls.links {number : Nat} (polls : c.Polls number d) :
    Relation.ReflTransGen Work.Links ⟨c, []⟩ ⟨d, []⟩ := by
  cases polls with
  | still none' => exact .refl
  | turned found moved waits was => exact .single (.turned found moved waits was)
  | @ended task d e outcome v found moved resumes parts =>
    have mine : task.number = number := by simpa using List.find?_some found
    subst mine
    exact .head (.resumes (List.mem_of_find?_eq_some found) resumes)
      (Relation.ReflTransGen.mono (fun _ _ => .part) _ _ parts)

theorem links_move (own : c.input? m = none) :
    Relation.ReflTransGen Work.Links ⟨c, []⟩ ⟨c.move m, []⟩ := by
  rcases parts_move own with ⟨number, rfl⟩ | parts
  · exact (polls c number).links
  · exact Relation.ReflTransGen.mono (fun _ _ => .part) _ _ parts

theorem Work.Links.grows (links : w.Links w') : w.client.Grows w'.client := by
  cases links with
  | part part => exact part.grows
  | resumes there resumes => exact resumes.grows
  | turned found moved waits was => exact grows_quiet rfl rfl (Nat.le_refl _)

theorem Work.Midway.links (settled : w.Midway past) (links : w.Links w') :
    w'.Midway past := by
  cases links with
  | part part => exact settled.part part
  | resumes there resumes => exact settled.resumes there resumes
  | @turned c task request procedure accepted box route number found moved waits was =>
    have mine : task.number = number := by simpa using List.find?_some found
    have grows := (Polls.turned found moved waits was).grows
    have numbers := (Polls.turns (.turned found moved waits was) settled.listed).2
    exact ⟨settled.books.grows grows, fun b => (settled.owned b).tallies grows
      (Or.inl (tally_turned_le settled.listed.numbers (List.mem_of_find?_eq_some found) mine waits
        was b)), settled.sourced.turned found waits was,
      numbers⟩

/-- The ticket of a registration or subscription is kept when an operation goes on with it. -/
theorem Yields.keeps {v : Waiting} {outcome : Outcome} (yields : c.Yields v us outcome)
    (own : .feed t ∈ v.tickets) : ∃ n, .feed { t with read := n } ∈ us := by
  cases yields with
  | same plain idle outcome => exact ⟨t.read, own⟩
  | accepted was outcome => exact absurd own List.not_mem_nil
  | enrolled replied confirms outcome => exact absurd own List.not_mem_nil
  | settled stream last => exact ⟨t.read, own⟩
  | result stream more next => cases stream <;> cases List.mem_singleton.mp own
  | @event name u keep e next =>
    obtain rfl := Ticket.feed.inj (List.mem_singleton.mp own)
    exact ⟨_, List.mem_cons_self⟩
  | @invocation name u keep i cell next canceled =>
    obtain rfl := Ticket.feed.inj (List.mem_singleton.mp own)
    exact ⟨_, List.mem_cons_self⟩
  | drained next other other' => exact ⟨t.read, own⟩

theorem Resumes.undisturbed {task : Task} {outcome : Outcome} (listed : c.Listed)
    (there : task ∈ c.tasks)
    (resumes : c.Resumes (c.without task.number).tasks task.waiting outcome w) :
    Work.Undisturbed ⟨c, []⟩ w := by
  have all := perm_without listed.numbers there
  have held : ∀ {u : FeedTicket}, .feed u ∈ Work.tickets ⟨c, []⟩ →
      .feed u ∈ task.waiting.tickets ∨ .feed u ∈ (c.without task.number).heldTickets :=
    fun among => List.mem_append.mp (all.mem_iff.mpr among)
  have stays : ∀ {u : FeedTicket} {d : Client} {us : List Ticket},
      .feed u ∈ (c.without task.number).heldTickets →
        d.heldTickets = (c.without task.number).heldTickets → Work.Keeps ⟨d, us⟩ u :=
    fun among same => keeps_of_mem (mem_tickets.mpr (Or.inr (same ▸ among)))
  cases resumes with
  | resumed yields =>
    refine ⟨[], (List.append_nil _).symm, by simp, fun u among => ?_⟩
    rcases held among with own | other
    · obtain ⟨n, handed⟩ := yields.keeps own
      exact ⟨n, mem_tickets.mpr (Or.inl handed)⟩
    · exact stays other rfl
  | refused bare own =>
    refine ⟨[], (List.append_nil _).symm, by simp, fun u among => ?_⟩
    rw [bare] at held
    exact stays ((held among).resolve_left List.not_mem_nil) rfl
  | @settled u waits =>
    refine ⟨[], ?_, by simp, fun v among => ?_⟩
    · rw [release_call, List.append_nil]
      rfl
    · rw [waits] at held
      refine stays ((held among).resolve_left (by simp [Waiting.tickets])) ?_
      rw [heldTickets, tickets_release, tasks_release]
      rfl
  | @ceased name u accepted reply waits =>
    refine ⟨[.removeRoute u.route], rfl, fun command among => ?_, fun v among => ?_⟩
    · rw [List.mem_singleton.mp among]
      rfl
    · rw [waits] at held
      rcases held among with own | other
      · exact keeps_of_mem (mem_tickets.mpr (Or.inl own))
      · exact stays other rfl

theorem Work.Links.partings (links : w.Links w') (listed : w.client.Listed) :
    ∃ new, w'.client.commands = w.client.commands ++ new ∧ w.Partings w' new := by
  cases links with
  | part part => exact part.partings listed
  | resumes there resumes => exact (resumes.undisturbed listed there).partings
  | @turned c task request procedure accepted box route number found moved waits was =>
    refine ⟨[], (List.append_nil _).symm, .none (by simp) fun _ u held _ => keeps_of_mem ?_⟩
    -- the operation that goes on has no ticket yet
    have there : .feed u ∈ c.heldTickets := held
    refine mem_tickets.mpr (Or.inr (mem_heldTickets.mpr ?_))
    refine (mem_heldTickets.mp there).imp_right fun ⟨other, among, own⟩ =>
      ⟨_, List.mem_map_of_mem among, ?_⟩
    by_cases same : other.number = number
    · have mine : task.number = number := by simpa using List.find?_some found
      obtain rfl := List.inj_on_of_nodup_map listed.numbers among
        (List.mem_of_find?_eq_some found) (same.trans mine.symm)
      rw [waits] at own
      exact absurd own List.not_mem_nil
    · rwa [if_neg same]

/-! ### Once -/

/-- What is asked of the router with these commands, to end registrations and subscriptions, and the
routes that go with it. -/
def partings (commands : List Command) : List (Handle × Message) :=
  commands.filterMap Command.parting?

theorem partings_append (before after : List Command) :
    partings (before ++ after) = partings before ++ partings after := List.filterMap_append

theorem partings_of_lasting (lasting : ∀ command ∈ new, command.lasting = true) :
    partings new = [] := by
  refine List.filterMap_eq_nil_iff.mpr fun command there => ?_
  have own := lasting command there
  rw [Command.lasting, Bool.and_eq_true] at own
  exact Option.isNone_iff_eq_none.mp own.1

theorem removes_of_mem_partings {commands : List Command} {e : Handle × Message}
    (there : e ∈ partings commands) : ∃ command ∈ commands, command.removes e.1 = true := by
  obtain ⟨command, among, parting⟩ := List.mem_filterMap.mp there
  exact ⟨command, among, (Command.about_parting parting).1⟩

/-- No registration or subscription is left twice, and nothing but that has one ended. -/
structure Work.Once (past : List Command) (w : Work) : Prop where
  routes : ((partings (past ++ w.client.commands)).map Prod.fst).Nodup
  messages : ∀ command ∈ past ++ w.client.commands, command.lasting = true ∨
    ∃ e, command.parting? = some e

theorem Work.Once.links (once : w.Once past) (settled : w.Midway past) (links : w.Links w') :
    w'.Once past := by
  obtain ⟨new, queue, partings'⟩ := links.partings settled.listed
  have all : past ++ w'.client.commands = (past ++ w.client.commands) ++ new := by
    rw [queue, List.append_assoc]
  have known : (∀ command ∈ new, command.lasting = true ∨ ∃ e, command.parting? = some e) →
      ∀ command ∈ past ++ w'.client.commands, command.lasting = true ∨
        ∃ e, command.parting? = some e := by
    intro asked command there
    rw [all] at there
    exact (List.mem_append.mp there).elim (once.messages command) (asked command)
  -- the ticket is open, so nobody has asked for its route yet
  have left : ∀ {t : FeedTicket} {request : Id} {reply answer : Option Box},
      .feed t ∈ w.tickets → t.closed = false → new = [t.parting request reply answer] →
        w'.Once past := by
    rintro t request reply answer held opened rfl
    refine ⟨?_, known fun command there => Or.inr ?_⟩
    · rw [all, partings_append, List.map_append]
      refine List.nodup_append.mpr ⟨once.routes, List.nodup_singleton _, ?_⟩
      rintro h there _ own rfl
      obtain ⟨e, among, rfl⟩ := List.mem_map.mp there
      obtain ⟨command, asked, removes⟩ := removes_of_mem_partings among
      rw [List.mem_singleton.mp own] at removes
      exact absurd removes (by simp [settled.spares held opened rfl command asked])
    · rw [List.mem_singleton.mp there]
      exact ⟨_, rfl⟩
  cases partings' with
  | none lasting kept =>
    refine ⟨?_, known fun command there => Or.inl (lasting command there)⟩
    rw [all, partings_append, partings_of_lasting lasting, List.append_nil]
    exact once.routes
  | closes held opened live issues boxes fresh waits kept => exact left held opened issues
  | drops held opened live issues gone kept => exact left held opened issues

/-- What every link keeps, a move keeps that the session has no part in. -/
theorem Work.Midway.chain {P : Work → Prop} (settled : w.Midway past) (start : P w)
    (links : ∀ {w w' : Work}, w.Midway past → P w → w.Links w' → P w')
    (chain : Relation.ReflTransGen Work.Links w w') : w'.Midway past ∧ P w' := by
  induction chain with
  | refl => exact ⟨settled, start⟩
  | tail _ link ih => exact ⟨ih.1.links link, links ih.1 ih.2 link⟩

section

variable {P : List Command → Work → Prop}

/-- What every link keeps, and what does not change when the session has part in a move, every move
keeps. -/
theorem move_of_links
    (links : ∀ {past : List Command} {w w' : Work}, w.Midway past → P past w → w.Links w' →
      P past w')
    (takes : ∀ {past : List Command} {c : Client} {m : Move} {input : Input}, P past ⟨c, []⟩ →
      c.input? m = some input → P (past ++ c.taken m) ⟨c.move m, []⟩)
    (start : P past ⟨c, []⟩) (settled : Settled past c) (listed : c.Listed) (m : Move) :
    P (past ++ c.taken m) ⟨c.move m, []⟩ := by
  cases own : c.input? m with
  | some input => exact takes start own
  | none =>
    rw [taken_of_quiet own, List.append_nil]
    exact ((settled.work listed).chain start links (links_move own)).2

theorem run_of_links
    (links : ∀ {past : List Command} {w w' : Work}, w.Midway past → P past w → w.Links w' →
      P past w')
    (takes : ∀ {past : List Command} {c : Client} {m : Move} {input : Input}, P past ⟨c, []⟩ →
      c.input? m = some input → P (past ++ c.taken m) ⟨c.move m, []⟩)
    (start : P past ⟨c, []⟩) (settled : Settled past c) (listed : c.Listed) (ms : List Move) :
    P (past ++ c.served ms) ⟨c.run ms, []⟩ :=
  (run_of_moves (P := fun past c => P past ⟨c, []⟩ ∧ Settled past c ∧ c.Listed)
    ⟨start, settled, listed⟩ (fun ⟨start, settled, listed⟩ m =>
      ⟨move_of_links links takes start settled listed m, settled.move m, listed.move m⟩) ms).1

end

/-- All that was ever asked for stays the same when the session has part in a move. -/
theorem asked_of_takes (past : List Command) {input : Input} (takes : c.input? m = some input) :
    past ++ c.taken m ++ (c.move m).commands = past ++ c.commands := by
  rw [List.append_assoc, ← queue_of_takes takes]

theorem Work.Once.takes (once : Work.Once past ⟨c, []⟩) {input : Input}
    (takes : c.input? m = some input) : Work.Once (past ++ c.taken m) ⟨c.move m, []⟩ :=
  ⟨asked_of_takes past takes ▸ once.routes,
    asked_of_takes past takes ▸ once.messages⟩

theorem Work.Once.move (once : Work.Once past ⟨c, []⟩) (settled : Settled past c)
    (listed : c.Listed) (m : Move) : Work.Once (past ++ c.taken m) ⟨c.move m, []⟩ :=
  move_of_links (fun settled once links => once.links settled links)
    (fun once takes => once.takes takes) once settled listed m

theorem Work.Once.run (once : Work.Once past ⟨c, []⟩) (settled : Settled past c)
    (listed : c.Listed) (ms : List Move) : Work.Once (past ++ c.served ms) ⟨c.run ms, []⟩ :=
  run_of_links (fun settled once links => once.links settled links)
    (fun once takes => once.takes takes) once settled listed ms

/-! ### On the wire -/

theorem departs_of_own {i : StreamItem} (own : i.isOwn = true) : i.departs = false := by
  cases i with
  | message m => cases m <;> first | rfl | cases own
  | ping data => rfl

/-- What goes out in a move: things that the session says on its own account, or what it was asked
to send with the command that it takes up. -/
inductive Says (c : Client) (m : Move) : List StreamItem → Prop where
  | own {out : List StreamItem} (own : ∀ i ∈ out, i.isOwn = true) : Says c m out
  | asked {command : Command} {rest : List Command} {said : Message} (serves : m = .serve)
      (next : c.commands = command :: rest) (asks : command.message? = some said)
      (opened : c.session.phase = .established ∨
        c.session.phase = .closing ∧ ∃ answer, command = .send said answer) :
      Says c m [.message said]

theorem says_move (c : Client) (m : Move) :
    ∃ out, (c.move m).session.wire.sent = c.session.wire.sent ++ out ∧ c.Says m out := by
  cases takes : c.input? m with
  | none =>
    obtain ⟨boxes, session⟩ := (grows_move takes).session
    exact ⟨[], by rw [session, List.append_nil], .own (by simp)⟩
  | some input =>
    rw [session_move takes]
    cases Session.says_step c.session input with
    | own out sent own => exact ⟨out, sent, .own own⟩
    | @asked command said is asks sent opened =>
      subst is
      cases m with
      | serve =>
        obtain ⟨_, head, same⟩ := Option.map_eq_some_iff.mp takes
        obtain rfl := Input.command.inj same
        obtain ⟨rest, next⟩ := List.head?_eq_some_iff.mp head
        exact ⟨_, sent, .asked rfl next asks opened⟩
      | _ => simp [input?] at takes

theorem taken_of_next {command : Command} {rest : List Command}
    (next : c.commands = command :: rest) : c.taken .serve = [command] := by
  rw [Client.taken, next]
  rfl

/-- What a move sends to end registrations and subscriptions was asked for with the command that it
takes up, and nothing of that kind is sent unless the session is established. -/
theorem Work.Once.sent_move (once : Work.Once past ⟨c, []⟩) (m : Move) :
    ∃ out, (c.move m).session.wire.sent = c.session.wire.sent ++ out ∧
      (out.filter StreamItem.departs).Sublist
        ((partings (c.taken m)).map fun e => .message e.2) ∧
      (c.session.phase ≠ .established → out.filter StreamItem.departs = []) := by
  have none' : ∀ {out : List StreamItem}, (∀ i ∈ out, i.departs = false) →
      out.filter StreamItem.departs = [] := fun plain => by simpa using plain
  obtain ⟨out, sent, spoken⟩ := says_move c m
  refine ⟨out, sent, ?_⟩
  cases spoken with
  | own own =>
    have plain := none' fun i there => departs_of_own (own i there)
    exact ⟨plain ▸ List.nil_sublist _, fun _ => plain⟩
  | @asked command rest said serves next asks opened =>
    rw [serves, taken_of_next next]
    rcases once.messages command (List.mem_append_right _ (next ▸ List.mem_cons_self)) with
      lasting | ⟨e, parting⟩
    · have plain : said.departs = false := by
        simpa [Command.lasting, asks] using (Bool.and_eq_true_iff.mp lasting).2
      have empty : [StreamItem.message said].filter StreamItem.departs = [] :=
        none' (by simpa [StreamItem.departs] using plain)
      rw [empty]
      exact ⟨List.nil_sublist _, fun _ => rfl⟩
    · obtain ⟨-, message⟩ := Command.about_parting (h := e.1) (m := e.2) parting
      obtain rfl := Option.some.inj (asks.symm.trans message)
      refine ⟨?_, fun late => ?_⟩
      · rw [partings, List.filterMap_cons_some parting]
        exact List.filter_sublist
      · obtain ⟨-, answer, rfl⟩ := opened.resolve_left late
        cases parting

theorem Work.Once.sent_run (once : Work.Once past ⟨c, []⟩) (settled : Settled past c)
    (listed : c.Listed) (ms : List Move) :
    ∃ out, (c.run ms).session.wire.sent = c.session.wire.sent ++ out ∧
      (out.filter StreamItem.departs).Sublist
        ((partings (c.served ms)).map fun e => .message e.2) ∧
      (c.session.phase ≠ .established → out.filter StreamItem.departs = []) := by
  induction ms generalizing c past with
  | nil => exact ⟨[], (List.append_nil _).symm, List.nil_sublist _, fun _ => rfl⟩
  | cons m rest ih =>
    obtain ⟨first, sent, asked, late⟩ := once.sent_move m
    obtain ⟨later, sent', asked', late'⟩ :=
      ih (once.move settled listed m) (settled.move m) (listed.move m)
    refine ⟨first ++ later, ?_, ?_, fun ended' => ?_⟩
    · rw [← List.append_assoc, ← sent]
      exact sent'
    · rw [served, partings_append, List.map_append, List.filter_append]
      exact asked.append asked'
    · rw [List.filter_append, late ended', late' fun live => ended' (established_of_move live)]
      rfl

/-- A subscription that the router has confirmed, with the ticket in the program's hands. -/
def subscribed : List Move := [.act 0 (.onSession (.enrol .subscription "a" none "t")), .serve,
  .arrive (.item (.message (.subscribed Id.min Id.min))), .poll 0]

end Client

end WampClient
