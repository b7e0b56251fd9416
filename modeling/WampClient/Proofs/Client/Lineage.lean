import WampClient.Proofs.Client.History

/-! What becomes of tickets. A ticket keeps its route and its box for as long as it lives, and it
can be followed back to the request that it was made for. A route is taken out only on behalf of
the ticket that it came with, and only once that ticket is given up. -/
namespace WampClient

/-- The one ticket has become the other, of which nothing was read meanwhile. -/
inductive Ticket.Descends : Ticket → Ticket → Prop where
  | call (t : CallTicket) (stream stream' cancelSent : Bool) :
      Descends (t.kept stream) ({ t with cancelSent }.kept stream')
  | feed (t : FeedTicket) {closed : Bool} (stays : t.closed = true → closed = true) :
      Descends (.feed t) (.feed { t with closed })
  | invocation (t u : InvocationTicket) : Descends (.invocation t) (.invocation u)

theorem Ticket.Descends.refl (t : Ticket) : t.Descends t := by
  cases t with
  | call t => exact .call t false false t.cancelSent
  | results t => exact .call t true true t.cancelSent
  | feed t => exact .feed t id
  | invocation t => exact .invocation t t

/-- What a part of a move makes of a ticket. -/
inductive Ticket.Becomes : Ticket → Ticket → Prop where
  | same (t : Ticket) : Becomes t t
  | streamed (t : CallTicket) : Becomes (.call t) (.results t)
  | canceled (t : CallTicket) : Becomes (.call t) (.call { t with cancelSent := true })
  | closed (t : FeedTicket) : Becomes (.feed t) (.feed { t with closed := true })
  | answered (t : InvocationTicket) (handled : Bool) :
      Becomes (.invocation t) (.invocation { t with handled })

theorem Ticket.Becomes.descends {t u : Ticket} (becomes : t.Becomes u) : t.Descends u := by
  cases becomes with
  | same => exact .refl t
  | streamed t => exact .call t false true t.cancelSent
  | canceled t => exact .call t false false true
  | closed t => exact .feed t fun _ => rfl
  | answered t handled => exact .invocation t _

/-- An operation has asked for what it waits for. -/
def Waiting.Begun (commands : List Command) : Waiting → Prop
  | .call request _ accepted box _ =>
    ∃ m, .request m (Client.callKeys request) (.call box) (some accepted) ∈ commands
  | .enrolment kind _ _ accepted reply box => accepted < reply ∧ reply < box ∧
    ∃ m request, .request m (kind.enrolmentKeys request)
      (.reply (some reply) (some (.install (kind.feed box)))) (some accepted) ∈ commands
  | .departure _ t _ _ => t.closed = true
  | _ => True

theorem Waiting.begun_of_plain {w : Waiting} (plain : w.boxes = []) (commands : List Command) :
    w.Begun commands := by
  cases w with
  | call request procedure accepted box keep => simp [boxes] at plain
  | enrolment kind name pattern accepted reply box => simp [boxes] at plain
  | departure name t accepted reply => simp [boxes] at plain
  | _ => trivial

theorem Waiting.Begun.mono {commands more : List Command} {w : Waiting} (begun : w.Begun commands)
    (old : ∀ command ∈ commands, command ∈ more) : w.Begun more := by
  cases w with
  | call request procedure accepted box keep =>
    obtain ⟨m, there⟩ := begun
    exact ⟨m, old _ there⟩
  | enrolment kind name pattern accepted reply box =>
    obtain ⟨first, second, m, request, there⟩ := begun
    exact ⟨first, second, m, request, old _ there⟩
  | departure name t accepted reply => exact begun
  | _ => trivial

/-- How an operation stands that has just begun: its boxes are new, and it has asked for what it
waits for. -/
inductive Waiting.Begins (first : Box) (commands : List Command) : Waiting → Prop where
  | call {request : Id} {options : Dictionary} {procedure : Uri} {payload : Payload}
      {keep : Option String}
      (asked : .request (.call request options procedure payload) (Client.callKeys request)
        (.call (first + 1)) (some first) ∈ commands) :
      Begins first commands (.call request procedure first (first + 1) keep)
  | enrolment {kind : FeedKind} {name : String} {request : Id} {options : Dictionary}
      {pattern : UriPattern}
      (asked : .request (kind.enrolment request options pattern) (kind.enrolmentKeys request)
        (.reply (some (first + 1)) (some (.install (kind.feed (first + 2))))) (some first) ∈
          commands) :
      Begins first commands (.enrolment kind name pattern first (first + 1) (first + 2))
  | publication {request : Id} {options : Dictionary} {topic : Uri} {payload : Payload}
      (asked : .request (.publish request options topic payload) (Client.publishKeys request)
        (.reply (some (first + 1)) none) (some first) ∈ commands) :
      Begins first commands (.publication topic first (first + 1))
  | sent {operation : Operation} {target : String} {back : Option (String × Ticket)}
      {outcome : Outcome} (hopeful : ∀ f, outcome ≠ .failed f) :
      Begins first commands (.sent first operation target back outcome)
  | departure {name : String} {t : FeedTicket} {request : Id} (closed : t.closed = true)
      (asked : .request (t.kind.departure request t.id) (t.kind.departureKeys request)
        (.reply (some (first + 1)) (some (.remove t.route))) (some first) ∈ commands) :
      Begins first commands (.departure name t first (first + 1))
  | leave (asked : .close (some first) ∈ commands) : Begins first commands (.leave first)
  /-- It waits with tickets alone, or for the end. -/
  | plain {w : Waiting} (plain : w.boxes = []) : Begins first commands w

namespace Client

variable {c d : Client} {ts us : List Ticket} {w w' : Work}

/-! ### Tickets in parts of a move -/

theorem mem_heldTickets {t : Ticket} : t ∈ c.heldTickets ↔
    (∃ e ∈ c.tickets, e.2 = t) ∨ ∃ task ∈ c.tasks, t ∈ task.waiting.tickets := by
  simp [heldTickets]

theorem mem_tickets {t : Ticket} : t ∈ w.tickets ↔ t ∈ w.hand ∨ t ∈ w.client.heldTickets :=
  List.mem_append

/-- The tickets that an operation waits with are among those that are there. -/
theorem mem_tickets_of_waiting {task : Task} {t : Ticket} (there : task ∈ w.client.tasks)
    (own : t ∈ task.waiting.tickets) : t ∈ w.tickets :=
  mem_tickets.mpr (Or.inr (mem_heldTickets.mpr (Or.inr ⟨task, there, own⟩)))

/-- When a call has begun to wait for its last result: an operation is one of those before, or it
is the one that waits. -/
theorem mem_turned {number : Nat} {t : CallTicket} {other : Task}
    (among : other ∈ c.tasks.map fun task =>
      if task.number = number then { task with waiting := .lastOutcome t } else task) :
    other ∈ c.tasks ∨ other.waiting = .lastOutcome t := by
  obtain ⟨old, before, rfl⟩ := List.mem_map.mp among
  split
  · exact Or.inr rfl
  · exact Or.inl before

theorem mem_heldTickets_turned {number : Nat} {t : CallTicket} {u : Ticket}
    (held : u ∈ Client.heldTickets { c with tasks := c.tasks.map fun task =>
      if task.number = number then { task with waiting := .lastOutcome t } else task }) :
    u ∈ c.heldTickets ∨ u = .call t := by
  rcases mem_heldTickets.mp held with kept | ⟨other, among, own⟩
  · exact Or.inl (mem_heldTickets.mpr (Or.inl kept))
  · rcases mem_turned among with old | waits
    · exact Or.inl (mem_heldTickets.mpr (Or.inr ⟨other, old, own⟩))
    · rw [waits] at own
      exact Or.inr (List.mem_singleton.mp own)

theorem becomes_of (tickets : ∀ e ∈ d.tickets, e ∈ c.tickets ∨ e.2 ∈ ts)
    (tasks : ∀ task ∈ d.tasks, task ∈ c.tasks ∨ ∀ u ∈ task.waiting.tickets, ∃ t ∈ ts, t.Becomes u)
    (hand : ∀ u ∈ us, (∃ t ∈ ts, t.Becomes u) ∨ u ∈ c.heldTickets) :
    ∀ u ∈ Work.tickets ⟨d, us⟩, ∃ t ∈ Work.tickets ⟨c, ts⟩, t.Becomes u := by
  intro u there
  have handed : (∃ t ∈ ts, t.Becomes u) → ∃ t ∈ Work.tickets ⟨c, ts⟩, t.Becomes u :=
    fun ⟨t, among, becomes⟩ => ⟨t, mem_tickets.mpr (Or.inl among), becomes⟩
  have kept : u ∈ c.heldTickets → ∃ t ∈ Work.tickets ⟨c, ts⟩, t.Becomes u :=
    fun among => ⟨u, mem_tickets.mpr (Or.inr among), .same u⟩
  rcases mem_tickets.mp there with among | held
  · rcases hand u among with handed' | kept'
    · exact handed handed'
    · exact kept kept'
  · rcases mem_heldTickets.mp held with ⟨e, among, rfl⟩ | ⟨task, among, own⟩
    · rcases tickets e among with old | new
      · exact kept (mem_heldTickets.mpr (Or.inl ⟨e, old, rfl⟩))
      · exact handed ⟨e.2, new, .same _⟩
    · rcases tasks task among with old | new
      · exact kept (mem_heldTickets.mpr (Or.inr ⟨task, old, own⟩))
      · exact handed (new u own)

theorem tasks_whenEstablished {P : Task → Prop} (number : Nat) (operation : Operation)
    (target : String) {go : Client → Client} (goes : ∀ task ∈ (go c).tasks, P task)
    (stays : ∀ task ∈ c.tasks, P task) :
    ∀ task ∈ (c.whenEstablished number operation target go).tasks, P task :=
  whenEstablished_keeps (P := fun d => ∀ task ∈ d.tasks, P task) goes stays

theorem tickets_whenEstablished (number : Nat) (operation : Operation) (target : String)
    {go : Client → Client} (goes : (go c).tickets = c.tickets) :
    (c.whenEstablished number operation target go).tickets = c.tickets :=
  whenEstablished_keeps (P := fun d => d.tickets = c.tickets) goes rfl

/-- A task is one of these, or the one that was added. -/
theorem mem_append_task {P : Task → Prop} {tasks : List Task} {new : Task}
    (old : ∀ task ∈ tasks, P task) (last : P new) : ∀ task ∈ tasks ++ [new], P task := by
  intro task there
  rcases List.mem_append.mp there with among | there
  · exact old task among
  · rwa [List.mem_singleton.mp there]

/-- A ticket is made of another one, except by the operations that go on. -/
theorem Part.becomes (part : Part w w') :
    ∀ u ∈ w'.tickets, ∃ t ∈ w.tickets, t.Becomes u := by
  have same : ∀ {ts : List Ticket} {c : Client}, ∀ u ∈ ts,
      (∃ t ∈ ts, t.Becomes u) ∨ u ∈ c.heldTickets := fun u there => Or.inl ⟨u, there, .same u⟩
  have rest : ∀ {t : Ticket} {ts : List Ticket} {c : Client}, ∀ u ∈ ts,
      (∃ v ∈ t :: ts, v.Becomes u) ∨ u ∈ c.heldTickets :=
    fun u there => Or.inl ⟨u, List.mem_cons_of_mem _ there, .same u⟩
  cases part with
  | concluded number outcome => exact becomes_of (fun _ => Or.inl) (fun _ => Or.inl) same
  | called fresh procedure payload options keep =>
    -- what is begun has no ticket yet
    refine becomes_of (fun e there => Or.inl ?_) (tasks_whenEstablished _ _ _ ?_ fun _ => Or.inl)
      same
    · rwa [Client.call, tickets_whenEstablished] at there
      rfl
    · exact mem_append_task (fun _ => Or.inl) (Or.inr fun u own => absurd own List.not_mem_nil)
  | enrolled fresh kind pattern options name =>
    refine becomes_of (fun e there => Or.inl ?_) (tasks_whenEstablished _ _ _ ?_ fun _ => Or.inl)
      same
    · rwa [enrol, tickets_whenEstablished] at there
      rfl
    · exact mem_append_task (fun _ => Or.inl) (Or.inr fun u own => absurd own List.not_mem_nil)
  | @published c ts number fresh topic payload options =>
    refine becomes_of (fun e there => Or.inl ?_) (tasks_whenEstablished _ _ _ ?_ fun _ => Or.inl)
      same
    · rwa [publish, tickets_whenEstablished] at there
      dsimp only
      split <;> rfl
    · dsimp only
      split
      · exact mem_append_task (fun _ => Or.inl) (Or.inr fun u own => absurd own List.not_mem_nil)
      · exact mem_append_task (fun _ => Or.inl) (Or.inr fun u own => absurd own List.not_mem_nil)
  | @left c ts number fresh =>
    unfold leave
    split
    · exact becomes_of (fun _ => Or.inl) (fun _ => Or.inl) same
    · exact becomes_of (fun _ => Or.inl) (mem_append_task (fun _ => Or.inl)
        (Or.inr fun u own => absurd own List.not_mem_nil)) same
  | dropped => exact becomes_of (fun _ => Or.inl) (fun _ => Or.inl) same
  | @took c ts name t found =>
    refine becomes_of (fun e there => Or.inl (List.mem_of_mem_filter there)) (fun _ => Or.inl) ?_
    intro u there
    rcases List.mem_cons.mp there with rfl | among
    · exact Or.inr (mem_heldTickets.mpr (Or.inl ⟨_, Assoc.mem_of_get? found, rfl⟩))
    · exact Or.inl ⟨u, among, .same u⟩
  | @put c ts name t =>
    refine becomes_of (fun e there => ?_) (fun _ => Or.inl) ?_
    · rcases Assoc.mem_alter there with old | ⟨-, new⟩
      · exact Or.inl old
      · rw [← Option.some.inj new]
        exact Or.inr List.mem_cons_self
    · intro u there
      -- the ticket that had the name before goes into the hand in its place
      rcases List.mem_append.mp there with old | among
      · exact Or.inr (mem_heldTickets.mpr
          (Or.inl ⟨_, Assoc.mem_of_get? (Option.mem_toList.mp old), rfl⟩))
      · exact rest u among
  | released t =>
    refine becomes_of (fun e there => Or.inl ?_) (fun task there => Or.inl ?_) rest
    · rwa [tickets_release] at there
    · rwa [tasks_release] at there
  | waits fresh onSession plain =>
    refine becomes_of (fun _ => Or.inl) (mem_append_task (fun _ => Or.inl) (Or.inr fun u own =>
      ⟨u, List.mem_append_left _ own, .same u⟩)) fun u there => ?_
    exact Or.inl ⟨u, List.mem_append_right _ there, .same u⟩
  | @canceled c ts number fresh name t more first mode =>
    refine becomes_of (fun _ => Or.inl) (mem_append_task (fun _ => Or.inl) (Or.inr ?_)) rest
    intro u own
    rw [List.mem_singleton.mp own]
    exact ⟨_, List.mem_cons_self, .canceled t⟩
  | answered fresh name first answers =>
    refine becomes_of (fun _ => Or.inl) (mem_append_task (fun _ => Or.inl) (Or.inr ?_)) rest
    intro u own
    rw [List.mem_singleton.mp own]
    exact ⟨_, List.mem_cons_self, .answered _ _⟩
  | departed fresh name first live =>
    refine becomes_of (fun _ => Or.inl) (mem_append_task (fun _ => Or.inl) (Or.inr ?_)) rest
    intro u own
    rw [List.mem_singleton.mp own]
    exact ⟨_, List.mem_cons_self, .closed _⟩
  | shut t late =>
    refine becomes_of (fun _ => Or.inl) (fun _ => Or.inl) fun u there => ?_
    rcases List.mem_cons.mp there with rfl | among
    · exact Or.inl ⟨_, List.mem_cons_self, .closed t⟩
    · exact rest u among
  | streamed t =>
    refine becomes_of (fun _ => Or.inl) (fun _ => Or.inl) fun u there => ?_
    rcases List.mem_cons.mp there with rfl | among
    · exact Or.inl ⟨_, List.mem_cons_self, .streamed t⟩
    · exact rest u among
  | @gaveUp c ts task there =>
    refine becomes_of (fun e there => Or.inl ?_) (fun task there => Or.inl ?_) fun u out => ?_
    · rwa [forgetAll_eq] at there
    · rw [forgetAll_eq] at there
      exact List.mem_of_mem_filter there
    · rcases List.mem_append.mp out with own | old
      · exact Or.inr (mem_heldTickets.mpr (Or.inr ⟨task, there, own⟩))
      · exact Or.inl ⟨u, old, .same u⟩

theorem Part.descends (part : Part w w') :
    ∀ u ∈ w'.tickets, ∃ t ∈ w.tickets, t.Descends u := by
  intro u there
  obtain ⟨t, among, becomes⟩ := part.becomes u there
  exact ⟨t, among, becomes.descends⟩

/-- Whoever goes on after a part of a move went on before or has just begun. -/
theorem Part.begins (part : Part w w') : ∀ task ∈ w'.client.tasks, task ∈ w.client.tasks ∨
    task.waiting.Begins w.client.nextBox w'.client.commands := by
  have last : ∀ {commands : List Command} {command : Command},
      command ∈ commands ++ [command] := List.mem_append_right _ List.mem_cons_self
  cases part with
  | called fresh procedure payload options keep =>
    unfold Client.call whenEstablished
    split
    · exact mem_append_task (fun _ => Or.inl) (Or.inr (.call last))
    · exact fun _ => Or.inl
  | enrolled fresh kind pattern options name =>
    unfold enrol whenEstablished
    split
    · exact mem_append_task (fun _ => Or.inl) (Or.inr (.enrolment last))
    · exact fun _ => Or.inl
  | published fresh topic payload options =>
    unfold publish whenEstablished
    split
    · dsimp only
      split
      · exact mem_append_task (fun _ => Or.inl) (Or.inr (.publication last))
      · exact mem_append_task (fun _ => Or.inl) (Or.inr (.sent fun _ same => nomatch same))
    · exact fun _ => Or.inl
  | left fresh =>
    unfold leave
    split
    · exact fun _ => Or.inl
    · exact mem_append_task (fun _ => Or.inl) (Or.inr (.leave last))
  | released t =>
    rw [tasks_release]
    exact fun _ => Or.inl
  | waits fresh onSession plain =>
    exact mem_append_task (fun _ => Or.inl) (Or.inr (.plain plain))
  | canceled fresh name more first mode =>
    exact mem_append_task (fun _ => Or.inl) (Or.inr (.sent fun _ same => nomatch same))
  | answered fresh name first answers =>
    exact mem_append_task (fun _ => Or.inl) (Or.inr (.sent fun _ same => nomatch same))
  | departed fresh name first live =>
    exact mem_append_task (fun _ => Or.inl) (Or.inr (.departure rfl last))
  | gaveUp there =>
    rw [forgetAll_eq]
    exact fun task among => Or.inl (List.mem_of_mem_filter among)
  | _ => exact fun _ => Or.inl

/-- An operation that begins has asked for what it waits for, and has new boxes. -/
theorem Part.begun (part : Part w w') : ∀ task ∈ w'.client.tasks, task ∈ w.client.tasks ∨
    task.waiting.Begun w'.client.commands ∧ ∀ b ∈ task.waiting.boxes, w.client.nextBox ≤ b := by
  refine fun task there => (part.begins task there).imp_right fun begins => ?_
  generalize task.waiting = v at begins
  cases begins with
  | call asked => exact ⟨⟨_, asked⟩, by simp [Waiting.boxes]⟩
  | enrolment asked =>
    exact ⟨⟨Nat.lt_succ_self _, Nat.lt_succ_self _, _, _, asked⟩, by simp [Waiting.boxes]⟩
  | publication asked => exact ⟨trivial, by simp [Waiting.boxes]⟩
  | sent hopeful => exact ⟨trivial, by simp [Waiting.boxes]⟩
  | departure closed asked => exact ⟨closed, by simp [Waiting.boxes]⟩
  | leave asked => exact ⟨trivial, by simp [Waiting.boxes]⟩
  | plain plain => exact ⟨Waiting.begun_of_plain plain _, by simp [plain]⟩

end Client

end WampClient
