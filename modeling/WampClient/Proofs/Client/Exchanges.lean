import WampClient.Proofs.Client.Readings
import WampClient.Proofs.Session.Sendings

/-! What becomes of the tickets of registrations, subscriptions and invocations while a client does
something on its own. Between two moments one of them at most is made, changed, or let go of; an
invocation is answered in exchange for its ticket, and none is answered otherwise. -/
namespace WampClient

/-- The invocation that is answered with what a command sends. -/
def Command.answers? (c : Command) : Option Id := c.message?.bind Message.answers?

/-- The box of the registration or subscription that a command asks for. -/
def Command.enrols? : Command → Option Box
  | .request _ _ (.reply _ (some (.install feed))) _ => some feed.box
  | _ => none

def Ticket.isCall : Ticket → Bool
  | .call _ => true
  | .results _ => true
  | _ => false

theorem InvocationTicket.Answers.about {t : InvocationTicket} {m : Message} {final : Bool}
    (answers : t.Answers m final) :
    m.answers? = some t.id ∧ m.settles? = if final then some t.id else none := by
  cases answers with
  | result payload => exact ⟨rfl, rfl⟩
  | progress payload wanted => exact ⟨rfl, rfl⟩
  | error e => exact ⟨rfl, rfl⟩

theorem CallTicket.isCall_kept (t : CallTicket) (stream : Bool) :
    (t.kept stream).isCall = true := by
  cases stream <;> rfl

theorem Waiting.mem_boxes_of_enrols {v : Waiting} {b : Box} (enrols : v.enrols? = some b) :
    b ∈ v.boxes := by
  cases v with
  | enrolment kind name pattern accepted reply box =>
    obtain rfl := Option.some.inj enrols
    simp [boxes]
  | _ => cases enrols

namespace Client

/-- The tickets for what the router sends of its own accord. -/
def inbound (ts : List Ticket) : List Ticket := ts.filter fun t => !t.isCall

/-- An operation waits to get the ticket that has the box. -/
def Work.Opening (b : Box) (w : Work) : Prop :=
  ∃ task ∈ w.client.tasks, task.waiting.enrols? = some b

/-- Nothing new is asked to be said about an invocation. -/
def Work.Silent (w w' : Work) : Prop :=
  ∃ new, w'.client.commands = w.client.commands ++ new ∧
    ∀ command ∈ new, command.answers? = none

/-- What is made of the tickets at once. -/
inductive Work.Exchanges (w w' : Work) : Prop where
  | same (tickets : (inbound w'.tickets).Perm (inbound w.tickets)) (silent : w.Silent w')
  | shut {t : FeedTicket} {rest : List Ticket}
      (before : (inbound w.tickets).Perm (.feed t :: rest))
      (after : (inbound w'.tickets).Perm (.feed { t with closed := true } :: rest))
      (silent : w.Silent w')
  /-- A ticket is let go of that nobody waits for an answer to. -/
  | dropped {t : Ticket} {rest : List Ticket} (before : (inbound w.tickets).Perm (t :: rest))
      (after : (inbound w'.tickets).Perm rest)
      (gone : ∀ b, t.owns b = true → b ∈ w'.client.session.gone)
      (settled : ∀ u, t = .invocation u →
        u.handled = true ∨ w.client.session.phase ≠ .established)
      (silent : w.Silent w')
  /-- The ticket of an invocation is kept on, or let go of. -/
  | answered {t : InvocationTicket} {us rest : List Ticket} {m : Message} {final : Bool}
      {box : Option Box} (before : (inbound w.tickets).Perm (.invocation t :: rest))
      (after : (inbound w'.tickets).Perm (us ++ rest)) (first : t.handled = false)
      (answers : t.Answers m final)
      (kept : us = [.invocation { t with handled := final }] ∨ us = [] ∧ final = true)
      (issues : w'.client.commands = w.client.commands ++ [.send m box])
  | opened {kind : FeedKind} {id : Id} {pattern : UriPattern} {route : Handle} {box : Box}
      (due : w.Opening box)
      (after : (inbound w'.tickets).Perm
        (.feed (FeedTicket.opened kind id pattern route box) :: inbound w.tickets))
      (silent : w.Silent w')
  | passed {t : FeedTicket} {e : Event} {rest : List Ticket}
      (lies : (w.client.session.postsTo t.box)[t.read]? = some (.event e))
      (before : (inbound w.tickets).Perm (.feed t :: rest))
      (after : (inbound w'.tickets).Perm (.feed { t with read := t.read + 1 } :: rest))
      (silent : w.Silent w')
  | yielded {t : FeedTicket} {i : Invocation} {cell : Cell} {rest : List Ticket}
      (lies : (w.client.session.postsTo t.box)[t.read]? = some (.invocation i cell))
      (before : (inbound w.tickets).Perm (.feed t :: rest))
      (after : (inbound w'.tickets).Perm (.feed { t with read := t.read + 1 } ::
        .invocation ⟨i, t.pattern, cell, false⟩ :: rest))
      (silent : w.Silent w')

/-- What is done at once, to the tickets and to those who wait for one. -/
structure Work.Turns (w w' : Work) : Prop where
  grows : w.client.Grows w'.client
  tallies : ∀ b, Work.Tallies b w w'
  exchanges : w.Exchanges w'
  keeps : ∀ b, w.Opening b → w'.Opening b ∨ b ∈ w'.client.session.gone ∨
    ∃ t, .feed t ∈ w'.tickets ∧ t.box = b ∧ t.read = 0
  enrols : ∀ command ∈ w'.client.commands, command ∈ w.client.commands ∨
    ∀ b, command.enrols? = some b → w'.Opening b

variable {c d : Client} {ts us : List Ticket} {w w' : Work} {new : List Command}

/-! ### Lists of tickets -/

theorem inbound_append (ts us : List Ticket) : inbound (ts ++ us) = inbound ts ++ inbound us :=
  List.filter_append _ _

@[simp] theorem inbound_feed (t : FeedTicket) (ts : List Ticket) :
    inbound (.feed t :: ts) = .feed t :: inbound ts := rfl

@[simp] theorem inbound_invocation (t : InvocationTicket) (ts : List Ticket) :
    inbound (.invocation t :: ts) = .invocation t :: inbound ts := rfl

theorem inbound_of_isCall {t : Ticket} (call : t.isCall = true) (ts : List Ticket) :
    inbound (t :: ts) = inbound ts := List.filter_cons_of_neg (by simp [call])

theorem mem_inbound {t : Ticket} : t ∈ inbound ts ↔ t ∈ ts ∧ t.isCall = false := by
  simp [inbound]

theorem silent_of_same (commands : w'.client.commands = w.client.commands) : w.Silent w' :=
  ⟨[], by rw [commands, List.append_nil], by simp⟩

theorem silent_of_one {command : Command}
    (commands : w'.client.commands = w.client.commands ++ [command])
    (silent : command.answers? = none) : w.Silent w' :=
  ⟨_, commands, fun other there => by rwa [List.mem_singleton.mp there]⟩

theorem exchanges_of_perm (tickets : w'.tickets.Perm w.tickets) (silent : w.Silent w') :
    w.Exchanges w' := .same (tickets.filter _) silent

theorem heldTickets_await {number : Nat} {onSession : Bool} {v : Waiting}
    (tickets : d.tickets = c.tickets) (tasks : d.tasks = c.tasks ++ [⟨number, onSession, v⟩]) :
    d.heldTickets = c.heldTickets ++ v.tickets := by
  simp [heldTickets, tickets, tasks]

theorem perm_await {number : Nat} {onSession : Bool} {v : Waiting}
    (tickets : d.tickets = c.tickets) (tasks : d.tasks = c.tasks ++ [⟨number, onSession, v⟩]) :
    (inbound (Work.tickets ⟨d, us⟩)).Perm (inbound v.tickets ++ inbound (us ++ c.heldTickets)) := by
  rw [Work.tickets, heldTickets_await tickets tasks, ← List.append_assoc, inbound_append]
  exact List.perm_append_comm

/-- The tickets of an operation come into the hands, and the others stay. -/
theorem perm_without {task : Task} (numbers : (c.tasks.map Task.number).Nodup)
    (there : task ∈ c.tasks) :
    (task.waiting.tickets ++ (c.without task.number).heldTickets).Perm c.heldTickets := by
  obtain ⟨before, after, tasks⟩ := List.append_of_mem there
  have others : (c.without task.number).tasks = before ++ after := by
    rw [tasks, List.map_append, List.map_cons] at numbers
    obtain ⟨-, late, apart⟩ := List.nodup_append.mp numbers
    have late := (List.nodup_cons.mp late).1
    have left : ∀ other ∈ before, other.number ≠ task.number := fun other among same =>
      apart _ (List.mem_map_of_mem among) _ List.mem_cons_self same
    have right : ∀ other ∈ after, other.number ≠ task.number := fun other among same =>
      late (same ▸ List.mem_map_of_mem among)
    rw [without, tasks, List.filter_append, List.filter_cons_of_neg (by simp),
      List.filter_eq_self.mpr fun other among => by simpa using left other among,
      List.filter_eq_self.mpr fun other among => by simpa using right other among]
  rw [heldTickets, heldTickets, others, tasks, List.flatMap_append, List.flatMap_append,
    List.flatMap_cons, show (c.without task.number).tickets = c.tickets from rfl]
  refine (List.perm_append_comm_assoc _ _ _).trans ?_
  exact (List.perm_append_comm_assoc _ _ _).append_left _

/-! ### What a client keeps in order -/

/-- No name, and no number, is used twice. -/
structure Listed (c : Client) : Prop where
  names : (c.tickets.map Prod.fst).Nodup
  numbers : (c.tasks.map Task.number).Nodup

theorem Part.listed (part : Part w w') (listed : w.client.Listed) : w'.client.Listed where
  numbers := part.numbers listed.numbers
  names := by
    have names := listed.names
    cases part with
    | called fresh procedure payload options keep =>
      rwa [Client.call, tickets_whenEstablished _ _ _ rfl]
    | enrolled fresh kind pattern options name => rwa [enrol, tickets_whenEstablished _ _ _ rfl]
    | published fresh topic payload options =>
      rwa [publish, tickets_whenEstablished]
      dsimp only
      split <;> rfl
    | left fresh =>
      unfold leave
      split <;> exact names
    | took found => exact Assoc.nodup_erase _ names
    | put name t => exact Assoc.nodup_alter _ _ names
    | released t => rwa [tickets_release]
    | gaveUp there => rwa [forgetAll_eq]
    | _ => exact names

/-! ### Tickets that change hands -/

theorem perm_takeOut (listed : c.Listed) {name : String} {t : Ticket}
    (found : c.ticket? name = some t) :
    (Work.tickets ⟨c.takeOut name, t :: ts⟩).Perm (Work.tickets ⟨c, ts⟩) := by
  have tickets := Assoc.perm_erase listed.names found
  rw [Work.tickets, Work.tickets, heldTickets, heldTickets]
  refine List.perm_middle.symm.trans (List.Perm.append_left ts ?_)
  exact (tickets.symm.append_right (c.tasks.flatMap fun task => task.waiting.tickets))

theorem perm_putting (name : String) (t : Ticket) :
    (Work.tickets ⟨c.putting name t, (c.ticket? name).toList ++ ts⟩).Perm
      (Work.tickets ⟨c, t :: ts⟩) := by
  have tickets := Assoc.perm_alter name t c.tickets
  rw [Work.tickets, Work.tickets, heldTickets, heldTickets, List.append_assoc]
  refine (List.perm_append_comm_assoc _ _ _).trans ?_
  refine (List.Perm.append_left ts ?_).trans List.perm_middle
  rw [← List.append_assoc]
  exact tickets.append_right _

theorem perm_gaveUp (listed : c.Listed) {task : Task} (there : task ∈ c.tasks) :
    (Work.tickets ⟨task.waiting.boxes.foldl forget (c.without task.number),
      task.waiting.tickets ++ ts⟩).Perm (Work.tickets ⟨c, ts⟩) := by
  rw [Work.tickets, Work.tickets, forgetAll_eq, List.append_assoc]
  refine (List.perm_append_comm_assoc _ _ _).trans (List.Perm.append_left ts ?_)
  exact perm_without listed.numbers there

/-! ### One ticket -/

/-- The ticket of a registration or subscription is let go of with its box, or it is still there. If
an invocation was taken out of the box, there is a ticket for that. -/
theorem Work.Exchanges.feed (exchanges : w.Exchanges w') {t : FeedTicket}
    (there : .feed t ∈ inbound w.tickets) : t.box ∈ w'.client.session.gone ∨
      ∃ u, .feed u ∈ inbound w'.tickets ∧ u.box = t.box ∧ (u.read = t.read ∨
        u.read = t.read + 1 ∧ ∃ p, (w.client.session.postsTo t.box)[t.read]? = some p ∧
          ∀ i cell, p = .invocation i cell →
            .invocation ⟨i, t.pattern, cell, false⟩ ∈ inbound w'.tickets) := by
  -- a ticket among those that nothing happens to
  have stays : ∀ {v : FeedTicket} {us : List Ticket}, .feed v ∈ us →
      (inbound w'.tickets).Perm us → v.box ∈ w'.client.session.gone ∨
        ∃ u, .feed u ∈ inbound w'.tickets ∧ u.box = v.box ∧ (u.read = v.read ∨
          u.read = v.read + 1 ∧ ∃ p, (w.client.session.postsTo v.box)[v.read]? = some p ∧
            ∀ i cell, p = .invocation i cell →
              .invocation ⟨i, v.pattern, cell, false⟩ ∈ inbound w'.tickets) :=
    fun among after => Or.inr ⟨_, after.mem_iff.mpr among, rfl, Or.inl rfl⟩
  cases exchanges with
  | same tickets silent => exact stays there tickets
  | @shut v rest before after silent =>
    rcases List.mem_cons.mp (before.mem_iff.mp there) with same | other
    · obtain rfl := Ticket.feed.inj same
      exact Or.inr ⟨_, after.mem_iff.mpr List.mem_cons_self, rfl, Or.inl rfl⟩
    · exact stays (List.mem_cons_of_mem _ other) after
  | @dropped v rest before after gone settled silent =>
    rcases List.mem_cons.mp (before.mem_iff.mp there) with rfl | other
    · exact Or.inl (gone t.box (by simp))
    · exact stays other after
  | @answered v us rest m final box before after first answers kept issues =>
    rcases List.mem_cons.mp (before.mem_iff.mp there) with same | other
    · cases same
    · exact stays (List.mem_append_right _ other) after
  | opened due after silent => exact stays (List.mem_cons_of_mem _ there) after
  | @passed v e rest lies before after silent =>
    rcases List.mem_cons.mp (before.mem_iff.mp there) with same | other
    · obtain rfl := Ticket.feed.inj same
      refine Or.inr ⟨_, after.mem_iff.mpr List.mem_cons_self, rfl, Or.inr ⟨rfl, _, lies, ?_⟩⟩
      intro i cell same
      cases same
    · exact stays (List.mem_cons_of_mem _ other) after
  | @yielded v i cell rest lies before after silent =>
    rcases List.mem_cons.mp (before.mem_iff.mp there) with same | other
    · obtain rfl := Ticket.feed.inj same
      refine Or.inr ⟨_, after.mem_iff.mpr List.mem_cons_self, rfl, Or.inr ⟨rfl, _, lies, ?_⟩⟩
      intro j own same
      obtain ⟨rfl, rfl⟩ := Post.invocation.inj same
      exact after.mem_iff.mpr (List.mem_cons_of_mem _ List.mem_cons_self)
    · exact stays (List.mem_cons_of_mem _ (List.mem_cons_of_mem _ other)) after

/-! ### Parts of a move -/

/-- An operation begins to wait, with tickets from the hands. -/
theorem exchanges_await {number : Nat} {onSession : Bool} {v : Waiting}
    (tickets : d.tickets = c.tickets) (tasks : d.tasks = c.tasks ++ [⟨number, onSession, v⟩])
    (hand : inbound ts = inbound (v.tickets ++ us)) (silent : Work.Silent ⟨c, ts⟩ ⟨d, us⟩) :
    Work.Exchanges ⟨c, ts⟩ ⟨d, us⟩ := by
  refine .same ((perm_await tickets tasks).trans (List.Perm.of_eq ?_)) silent
  rw [Work.tickets, inbound_append, inbound_append, hand, inbound_append, List.append_assoc]

theorem exchanges_whenEstablished (number : Nat) (operation : Operation) (target : String)
    {go : Client → Client} (goes : Work.Exchanges ⟨c, ts⟩ ⟨go c, ts⟩) :
    Work.Exchanges ⟨c, ts⟩ ⟨c.whenEstablished number operation target go, ts⟩ :=
  whenEstablished_keeps (P := fun d => Work.Exchanges ⟨c, ts⟩ ⟨d, ts⟩) goes 
    (exchanges_of_perm (.refl _) (silent_of_same rfl))

theorem exchanges_release (c : Client) (t : Ticket) (ts : List Ticket) :
    Work.Exchanges ⟨c, t :: ts⟩ ⟨c.release t, ts⟩ := by
  have held : (c.release t).heldTickets = c.heldTickets := by
    rw [heldTickets, heldTickets, tickets_release, tasks_release]
  have after : (inbound (Work.tickets ⟨c.release t, ts⟩)).Perm (inbound (ts ++ c.heldTickets)) := by
    rw [Work.tickets, held]
  have gone : ∀ b, t.owns b = true → b ∈ (c.release t).session.gone := by
    intro b own
    have box : t.box? = some b := by simpa [Ticket.owns] using own
    rw [gone_release, box]
    exact List.mem_cons_self
  have call : ∀ u : CallTicket, t.isCall = true →
      (c.release t).commands = (c.release (.call u)).commands →
        Work.Exchanges ⟨c, t :: ts⟩ ⟨c.release t, ts⟩ := by
    intro u own commands
    refine .same (after.trans (List.Perm.of_eq ?_)) ?_
    · rw [Work.tickets, List.cons_append, inbound_of_isCall own]
    · rw [release_call] at commands
      cases settled : u.settled with
      | true => exact silent_of_same (commands.trans (by rw [settled]; rfl))
      | false => exact silent_of_one (commands.trans (by rw [settled]; rfl)) rfl
  cases t with
  | call u => exact call u rfl rfl
  | results u => exact call u rfl rfl
  | feed u =>
    refine .dropped (t := .feed u) (.refl _) after gone (fun v same => by cases same) ?_
    by_cases late : (u.closed || c.session.phase != .established) = true
    · refine silent_of_same ?_
      change (c.release (.feed u)).commands = _
      rw [release_feed, if_pos late]
      rfl
    · refine @silent_of_one _ _ (.request (u.kind.departure c.drawId.1 u.id)
        (u.kind.departureKeys c.drawId.1) (.reply none (some (.remove u.route))) none) ?_ ?_
      · change (c.release (.feed u)).commands = _
        rw [release_feed, if_neg late]
        rfl
      · cases kind : u.kind <;> rfl
  | invocation u =>
    by_cases late : (u.handled || c.session.phase != .established) = true
    · refine .dropped (t := .invocation u) (.refl _) after gone (fun v same => ?_)
        (silent_of_same ?_)
      · obtain rfl := Ticket.invocation.inj same
        simpa using late
      · change (c.release (.invocation u)).commands = _
        rw [release_invocation, if_pos late]
    · refine @Work.Exchanges.answered _ _ u [] _ u.abandonment true none (.refl _) after ?_
        (.error _) (Or.inr ⟨rfl, rfl⟩) ?_
      · simpa using (not_or.mp (mt Bool.or_eq_true_iff.mpr late)).1
      · change (c.release (.invocation u)).commands = _
        rw [release_invocation, if_neg late]
        rfl

theorem Part.exchanges (part : Part w w') (listed : w.client.Listed) : w.Exchanges w' := by
  cases part with
  | concluded number outcome => exact exchanges_of_perm (.refl _) (silent_of_same rfl)
  | called fresh procedure payload options keep =>
    exact exchanges_whenEstablished _ _ _
      (exchanges_await rfl rfl rfl (silent_of_one rfl rfl))
  | enrolled fresh kind pattern options name =>
    refine exchanges_whenEstablished _ _ _ (exchanges_await rfl rfl rfl (silent_of_one rfl ?_))
    cases kind <;> rfl
  | published fresh topic payload options =>
    refine exchanges_whenEstablished _ _ _ ?_
    dsimp only
    split
    · exact exchanges_await rfl rfl rfl (silent_of_one rfl rfl)
    · exact exchanges_await rfl rfl rfl (silent_of_one rfl rfl)
  | left fresh =>
    unfold leave
    split
    · exact exchanges_of_perm (.refl _) (silent_of_same rfl)
    · exact exchanges_await rfl rfl rfl (silent_of_one rfl rfl)
  | dropped => exact exchanges_of_perm (.refl _) (silent_of_one rfl rfl)
  | took found => exact exchanges_of_perm (perm_takeOut listed found) (silent_of_same rfl)
  | put name t => exact exchanges_of_perm (perm_putting name t) (silent_of_same rfl)
  | released t => exact exchanges_release _ t _
  | waits fresh onSession plain => exact exchanges_await rfl rfl rfl (silent_of_same rfl)
  | canceled fresh name more first mode =>
    exact exchanges_await rfl rfl rfl (silent_of_one rfl rfl)
  | answered fresh name first answers =>
    exact .answered (.refl _) (perm_await rfl rfl) first answers (Or.inl rfl) rfl
  | @departed c ts number fresh name t first live =>
    have after := @perm_await c (c.departing number name t) ts _ _ _ rfl rfl
    refine @Work.Exchanges.shut _ _ t (inbound (ts ++ c.heldTickets)) (.refl _) after
      (silent_of_one rfl ?_)
    cases kind : t.kind <;> rfl
  | shut t late => exact .shut (.refl _) (.refl _) (silent_of_same rfl)
  | streamed t => exact .same (.refl _) (silent_of_same rfl)
  | gaveUp there =>
    refine exchanges_of_perm (perm_gaveUp listed there) (silent_of_same ?_)
    rw [forgetAll_eq]
    rfl

/-- Whoever waits goes on waiting, unless the operation is given up with all its boxes. -/
theorem Part.stays (part : Part w w') (listed : w.client.Listed) :
    ∀ task ∈ w.client.tasks, task ∈ w'.client.tasks ∨
      ∀ b ∈ task.waiting.boxes, b ∈ w'.client.session.gone := by
  have append : ∀ {c d : Client} {new : Task}, d.tasks = c.tasks ++ [new] →
      ∀ task ∈ c.tasks, task ∈ d.tasks ∨ ∀ b ∈ task.waiting.boxes, b ∈ d.session.gone :=
    fun tasks task there => Or.inl (tasks ▸ List.mem_append_left _ there)
  cases part with
  | called fresh procedure payload options keep =>
    unfold Client.call whenEstablished
    split
    · exact append rfl
    · exact fun _ => Or.inl
  | enrolled fresh kind pattern options name =>
    unfold enrol whenEstablished
    split
    · exact append rfl
    · exact fun _ => Or.inl
  | published fresh topic payload options =>
    unfold publish whenEstablished
    split
    · dsimp only
      split
      · exact append rfl
      · exact append rfl
    · exact fun _ => Or.inl
  | left fresh =>
    unfold leave
    split
    · exact fun _ => Or.inl
    · exact append rfl
  | released t =>
    rw [tasks_release]
    exact fun _ => Or.inl
  | waits fresh onSession plain => exact append rfl
  | canceled fresh name more first mode => exact append rfl
  | answered fresh name first answers => exact append rfl
  | departed fresh name first live => exact append rfl
  | @gaveUp c ts task there =>
    intro other among
    rw [forgetAll_eq]
    by_cases same : other.number = task.number
    · obtain rfl := List.inj_on_of_nodup_map listed.numbers among there same
      exact Or.inr fun b own => List.mem_append_left _ (List.mem_reverse.mpr own)
    · exact Or.inl (List.mem_filter.mpr ⟨among, by simpa using same⟩)
  | _ => exact fun _ => Or.inl

/-- Who asks for a registration or subscription waits for the ticket. -/
theorem Part.enrols (part : Part w w') : ∀ command ∈ w'.client.commands,
    command ∈ w.client.commands ∨ ∀ b, command.enrols? = some b → w'.Opening b := by
  have issued : ∀ {d : Client} {us : List Ticket} {commands : List Command} {new : Command},
      d.commands = commands ++ [new] → (∀ b, new.enrols? = some b → Work.Opening b ⟨d, us⟩) →
        ∀ command ∈ d.commands, command ∈ commands ∨
          ∀ b, command.enrols? = some b → Work.Opening b ⟨d, us⟩ := by
    intro d us commands new queue due command there
    rw [queue] at there
    rcases List.mem_append.mp there with old | last
    · exact Or.inl old
    · rw [List.mem_singleton.mp last]
      exact Or.inr due
  have idle : ∀ {d : Client} {us : List Ticket} {commands : List Command} {new : Command},
      d.commands = commands ++ [new] → new.enrols? = none → ∀ command ∈ d.commands,
        command ∈ commands ∨ ∀ b, command.enrols? = some b → Work.Opening b ⟨d, us⟩ :=
    fun queue none' => issued queue fun b due => by cases none'.symm.trans due
  cases part with
  | called fresh procedure payload options keep =>
    unfold Client.call whenEstablished
    split
    · exact idle rfl rfl
    · exact fun _ => Or.inl
  | @enrolled c ts number fresh kind pattern options name =>
    unfold enrol whenEstablished
    split
    · refine issued rfl fun b due => ?_
      refine ⟨_, List.mem_append_right _ (List.mem_singleton_self _), ?_⟩
      rw [← due]
      exact congrArg some (kind.box_feed _).symm
    · exact fun _ => Or.inl
  | published fresh topic payload options =>
    unfold publish whenEstablished
    split
    · dsimp only
      split
      · exact idle rfl rfl
      · exact idle rfl rfl
    · exact fun _ => Or.inl
  | left fresh =>
    unfold leave
    split
    · exact fun _ => Or.inl
    · exact idle rfl rfl
  | dropped => exact idle rfl rfl
  | @released c ts t =>
    have call : ∀ u : CallTicket, c.release t = c.release (.call u) →
        ∀ command ∈ (c.release t).commands, command ∈ c.commands ∨
          ∀ b, command.enrols? = some b → Work.Opening b ⟨c.release t, ts⟩ := by
      intro u same
      rw [same, release_call]
      cases u.settled with
      | true => exact fun _ => Or.inl
      | false => exact idle rfl rfl
    cases t with
    | call u => exact call u rfl
    | results u => exact call u rfl
    | feed u =>
      rw [release_feed]
      by_cases late : (u.closed || c.session.phase != .established) = true
      · rw [if_pos late]
        exact fun _ => Or.inl
      · rw [if_neg late]
        exact idle rfl rfl
    | invocation u =>
      rw [release_invocation]
      by_cases late : (u.handled || c.session.phase != .established) = true
      · rw [if_pos late]
        exact fun _ => Or.inl
      · rw [if_neg late]
        exact idle rfl rfl
  | canceled fresh name more first mode => exact idle rfl rfl
  | answered fresh name first answers => exact idle rfl rfl
  | departed fresh name first live => exact idle rfl rfl
  | gaveUp there =>
    rw [forgetAll_eq]
    exact fun _ => Or.inl
  | _ => exact fun _ => Or.inl

theorem Part.turns (part : Part w w') (listed : w.client.Listed) : w.Turns w' where
  grows := part.grows
  tallies := part.tallies
  exchanges := part.exchanges listed
  keeps b := by
    rintro ⟨task, there, due⟩
    rcases part.stays listed task there with still | gone
    · exact Or.inl ⟨task, still, due⟩
    · exact Or.inr (Or.inl (gone b (Waiting.mem_boxes_of_enrols due)))
  enrols := part.enrols

theorem Parts.turns (parts : Parts w w') (listed : w.client.Listed) :
    Relation.ReflTransGen Work.Turns w w' ∧ w'.client.Listed := by
  induction parts with
  | refl => exact ⟨.refl, listed⟩
  | tail _ part ih => exact ⟨ih.1.tail (part.turns ih.2), part.listed ih.2⟩

/-! ### Operations that go on -/

theorem listed_without (listed : c.Listed) (number : Nat) : (c.without number).Listed :=
  ⟨listed.names, listed.numbers.sublist (List.filter_sublist.map _)⟩

/-- What an operation does with its tickets when it goes on. -/
theorem Yields.exchanges {task : Task} {v : Waiting} {outcome : Outcome} (listed : c.Listed)
    (there : task ∈ c.tasks) (own : task.waiting = v) (yields : c.Yields v us outcome) :
    Work.Exchanges ⟨c, []⟩ ⟨c.without task.number, us⟩ := by
  have all := (perm_without listed.numbers there).filter (fun t => !t.isCall)
  rw [List.filter_append, own] at all
  have silent : Work.Silent ⟨c, []⟩ ⟨c.without task.number, us⟩ := silent_of_same rfl
  have same : inbound us = inbound v.tickets →
      Work.Exchanges ⟨c, []⟩ ⟨c.without task.number, us⟩ := by
    intro alike
    refine .same ?_ silent
    rw [Work.tickets, inbound_append, alike]
    exact all
  cases yields with
  | same plain idle outcome => exact same rfl
  | accepted was outcome => exact same rfl
  | @enrolled kind name pattern accepted reply box m route id replied confirms outcome =>
    exact .opened ⟨task, there, by rw [own]; rfl⟩ (all.cons _) silent
  | settled stream last => exact same rfl
  | result stream more next =>
    refine same ?_
    rw [inbound_of_isCall (CallTicket.isCall_kept _ _)]
    exact (inbound_of_isCall (CallTicket.isCall_kept _ _) []).symm
  | event next => exact .passed (lies_of_postAt next) all.symm (.refl _) silent
  | invocation next canceled => exact .yielded (lies_of_postAt next) all.symm (.refl _) silent
  | drained next other other' => exact same rfl

theorem Resumes.turns {task : Task} {v : Waiting} {outcome : Outcome} (listed : c.Listed)
    (there : task ∈ c.tasks) (own : task.waiting = v)
    (resumes : c.Resumes (c.without task.number).tasks v outcome w) :
    Work.Turns ⟨c, []⟩ w ∧ w.client.Listed := by
  have tasks := resumes.numbers
  have others : ∀ other ∈ c.tasks, other ∈ w.client.tasks ∨ other = task := by
    intro other among
    rw [tasks]
    by_cases same : other.number = task.number
    · exact Or.inr (List.inj_on_of_nodup_map listed.numbers among there same)
    · exact Or.inl (List.mem_filter.mpr ⟨among, by simpa using same⟩)
  refine ⟨⟨resumes.grows, fun b => Or.inl ?_, ?_, ?_, ?_⟩, ?_⟩
  · subst own
    exact resumes.tally_le there b
  · have all := (perm_without listed.numbers there).filter (fun t => !t.isCall)
    rw [List.filter_append, own] at all
    cases resumes with
    | resumed yields => exact yields.exchanges listed there own
    | refused bare last =>
      rw [bare] at all
      exact .same all (silent_of_same rfl)
    | @settled t waits =>
      rw [waits] at all
      refine .same ?_ (silent_of_same ?_)
      · rw [Work.tickets, heldTickets, tickets_release, tasks_release]
        exact all
      · rw [release_call, if_pos rfl]
        rfl
    | @ceased name t accepted reply waits =>
      rw [waits] at all
      exact .same all (silent_of_one rfl rfl)
  · rintro b ⟨other, among, due⟩
    rcases others other among with still | rfl
    · exact Or.inl ⟨other, still, due⟩
    rw [own] at due
    refine Or.inr ?_
    cases resumes with
    | resumed yields =>
      cases yields with
      | same plain idle outcome => cases idle.symm.trans due
      | @enrolled kind name pattern accepted reply box m route id replied confirms outcome =>
        obtain rfl := Option.some.inj due
        exact Or.inr ⟨_, List.mem_cons_self, rfl, rfl⟩
      | _ => cases due
    | refused bare last =>
      cases v with
      | enrolment kind name pattern accepted reply box =>
        obtain rfl := Option.some.inj due
        obtain rfl := Option.some.inj last
        exact Or.inl List.mem_cons_self
      | _ => cases due
    | settled waits =>
      rw [waits] at due
      cases due
    | ceased waits =>
      rw [waits] at due
      cases due
  · intro command among
    cases resumes with
    | settled waits =>
      rw [release_call, if_pos rfl] at among
      exact Or.inl among
    | ceased waits =>
      rcases List.mem_append.mp among with old | last
      · exact Or.inl old
      · rw [List.mem_singleton.mp last]
        exact Or.inr fun b due => by cases due
    | _ => exact Or.inl among
  · refine ⟨?_, ?_⟩
    · cases resumes with
      | settled waits =>
        rw [tickets_release]
        exact listed.names
      | _ => exact listed.names
    · rw [tasks]
      exact (listed_without listed task.number).numbers

theorem Polls.turns {number : Nat} (polls : c.Polls number d) (listed : c.Listed) :
    Relation.ReflTransGen Work.Turns ⟨c, []⟩ ⟨d, []⟩ ∧ d.Listed := by
  cases polls with
  | still none' => exact ⟨.refl, listed⟩
  | @turned task request procedure accepted box route found moved waits was =>
    let turn : Task → Task := fun t => if t.number = number then
      { t with waiting := .lastOutcome (CallTicket.opened request procedure route box) } else t
    have there := List.mem_of_find?_eq_some found
    have mine : task.number = number := by simpa using List.find?_some found
    have numbered : ∀ t : Task, (turn t).number = t.number := by
      intro t
      dsimp only [turn]
      split <;> rfl
    have turned : ∀ t ∈ c.tasks, t.number = number → t.waiting.tickets = [] ∧
        t.waiting.enrols? = none := by
      intro t among same
      obtain rfl := List.inj_on_of_nodup_map listed.numbers among there (same.trans mine.symm)
      rw [waits]
      exact ⟨rfl, rfl⟩
    have tickets : inbound (c.tasks.flatMap fun t => (turn t).waiting.tickets) =
        inbound (c.tasks.flatMap fun t => t.waiting.tickets) := by
      rw [inbound, inbound, List.filter_flatMap, List.filter_flatMap]
      refine List.flatMap_congr fun t among => ?_
      by_cases same : t.number = number
      · rw [(turned t among same).1]
        simp [turn, same, Waiting.tickets, Ticket.isCall]
      · simp [turn, same]
    refine ⟨.single ⟨grows_quiet rfl rfl (Nat.le_refl _),
      fun b => Or.inl (tally_turned_le listed.numbers there mine waits was b), ?_, ?_,
      fun _ => Or.inl⟩, listed.names, ?_⟩
    · refine .same (List.Perm.of_eq ?_) (silent_of_same rfl)
      change inbound (c.tickets.map Prod.snd ++ (c.tasks.map turn).flatMap _) =
        inbound (c.tickets.map Prod.snd ++ _)
      rw [inbound_append, inbound_append, List.flatMap_map, tickets]
    · rintro b ⟨other, among, due⟩
      refine Or.inl ⟨turn other, List.mem_map_of_mem among, ?_⟩
      have same : other.number ≠ number := fun same => by
        cases (turned other among same).2.symm.trans due
      rwa [show turn other = other from if_neg same]
    · have same : (c.tasks.map turn).map Task.number = c.tasks.map Task.number := by
        simp [Function.comp_def, numbered]
      exact same ▸ listed.numbers
  | @ended task d e outcome v found moved resumes parts =>
    have there := List.mem_of_find?_eq_some found
    have mine : task.number = number := by simpa using List.find?_some found
    subst mine
    obtain ⟨first, listed'⟩ := resumes.turns listed there rfl
    obtain ⟨later, done⟩ := Parts.turns parts listed'
    exact ⟨.head first later, done⟩

/-! ### Moves -/

theorem sent_prefix_run (c : Client) (ms : List Move) :
    c.session.wire.sent <+: (c.run ms).session.wire.sent := by
  induction ms generalizing c with
  | nil => exact List.prefix_rfl
  | cons m rest ih =>
    refine List.IsPrefix.trans ?_ (ih (c.move m))
    cases takes : c.input? m with
    | none =>
      obtain ⟨boxes, session⟩ := (grows_move takes).session
      have same : (c.move m).session.wire = c.session.wire := by rw [session]
      exact same ▸ List.prefix_rfl
    | some input => exact session_move takes ▸ Session.sent_prefix_step c.session input

theorem established_of_move {m : Move} (live : (c.move m).session.phase = .established) :
    c.session.phase = .established := by
  cases takes : c.input? m with
  | none => exact (phase_grows (grows_move takes)).symm.trans live
  | some input =>
    rw [session_move takes] at live
    exact Session.established_of_step live

theorem established_of_run {ms : List Move} (live : (c.run ms).session.phase = .established) :
    c.session.phase = .established := by
  induction ms generalizing c with
  | nil => exact live
  | cons m rest ih => exact established_of_move (ih live)

theorem turns_move {m : Move} (own : c.input? m = none) (listed : c.Listed) :
    Relation.ReflTransGen Work.Turns ⟨c, []⟩ ⟨c.move m, []⟩ ∧ (c.move m).Listed := by
  rcases parts_move own with ⟨number, rfl⟩ | parts
  · exact (polls c number).turns listed
  · exact Parts.turns parts listed

theorem Listed.move (listed : c.Listed) (m : Move) : (c.move m).Listed := by
  cases takes : c.input? m with
  | none => exact (turns_move takes listed).2
  | some input =>
    obtain ⟨tickets, tasks, -⟩ := tickets_of_takes takes
    exact ⟨tickets ▸ listed.names, tasks ▸ listed.numbers⟩

theorem Listed.run (listed : c.Listed) (ms : List Move) : (c.run ms).Listed := by
  induction ms generalizing c with
  | nil => exact listed
  | cons m rest ih => exact ih (listed.move m)

theorem listed_joined (wire : Wire) (now closeTimeout : Nat) (ids : IdSource) (id : Id)
    (realm : Uri) (details : Dictionary) :
    (joined (Session.established wire now closeTimeout) ids id realm details).Listed :=
  ⟨List.nodup_nil, List.nodup_nil⟩

end Client

end WampClient
