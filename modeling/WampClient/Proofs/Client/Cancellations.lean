import WampClient.Proofs.Client.Endurance
import WampClient.Proofs.Client.Partings

/-! How calls are canceled. A caller can ask for CANCEL once for each call, as long as the last
result was not taken; nobody else does so. CANCEL goes out while the caller waits for that, and the
ticket stays as it was until then. -/
namespace WampClient

def StreamItem.cancels : StreamItem → Bool
  | .message m => m.cancels
  | .ping _ => false

/-- A call that is canceled: with which ticket, how, and on which box the program waits until that
is out. -/
structure Cancellation where
  ticket : CallTicket
  mode : CancelMode
  box : Box

namespace Cancellation

def message (e : Cancellation) : Message := .cancel e.ticket.id [("mode", .string e.mode.name)]

def command (e : Cancellation) : Command := .send e.message (some e.box)

/-- The ticket from then on. -/
def left (e : Cancellation) : CallTicket := { e.ticket with cancelSent := true }

/-- What the program waits for meanwhile, with the ticket. -/
def waiting (e : Cancellation) (name : String) : Waiting :=
  .sent e.box .cancel e.ticket.procedure.text (some (name, .call e.left)) .done

end Cancellation

/-- Whether no call can be canceled with the ticket any more. -/
def Ticket.isCanceled : Ticket → Bool
  | .call t => t.cancelSent
  | _ => true

theorem Ticket.Becomes.isCanceled {t u : Ticket} (becomes : t.Becomes u)
    (canceled : t.isCanceled = true) : u.isCanceled = true := by
  cases becomes with
  | same => exact canceled
  | _ => rfl

theorem Command.feeds_of_answer {command : Command} {b : Box} (answer : command.answer? = some b) :
    command.feeds b = true := by
  cases command with
  | removeRoute route => cases answer
  | request m keys target own => simp_all [answer?, feeds]
  | _ => simp_all [answer?, feeds]

namespace Client

variable {c d : Client} {w w' : Work} {past : List Command} {m : Move} {ms : List Move}
  {e : Cancellation} {b : Box}

/-- The call that the program has canceled in a move. That is done once for a call, and only if it
is not settled. -/
def cancels? (c : Client) : Move → Option Cancellation
  | .act number (.onTicket name (.cancel mode)) =>
    if c.tasks.any (fun task => task.number == number) then none
    else match c.ticket? name with
      | some (.call t) =>
        if t.settled || t.cancelSent then none
        else some ⟨t, mode, c.nextBox⟩
      | _ => none
  | _ => none

/-- The calls that the program has canceled in a run. -/
def canceled : Client → List Move → List Cancellation
  | _, [] => []
  | c, m :: ms => (c.cancels? m).toList ++ canceled (c.move m) ms

/-! ### What is asked for -/

/-- The program has its call canceled: it waits until CANCEL is out, with the ticket. -/
theorem of_cancels (cancels : c.cancels? m = some e) :
    ∃ number name, m = .act number (.onTicket name (.cancel e.mode)) ∧
      c.ticket? name = some (.call e.ticket) ∧ e.box = c.nextBox ∧
      e.ticket.settled = false ∧ e.ticket.cancelSent = false ∧
      c.move m = (c.takeOut name).sendFor number false e.message .cancel e.ticket.procedure.text
        (some (name, .call e.left)) .done := by
  cases m with
  | act number a =>
    cases a with
    | onTicket name a =>
      cases a with
      | cancel mode =>
        rw [cancels?] at cancels
        split at cancels
        · cases cancels
        next free =>
          split at cancels
          next t held =>
            split at cancels
            · cases cancels
            next open' =>
              obtain rfl := Option.some.inj cancels
              have opened : t.settled = false ∧ t.cancelSent = false := by simpa using open'
              refine ⟨number, name, rfl, held, rfl, opened.1, opened.2, ?_⟩
              rw [move, if_neg free, act, held]
              change c.cancel number name t mode = _
              rw [cancel_eq, if_neg open']
              rfl
          next => cases cancels
      | _ => cases cancels
    | _ => cases cancels
  | _ => cases cancels

/-- A cancel that comes to nothing asks for nothing. -/
theorem commands_of_idle {number : Nat} {name : String} {mode : CancelMode}
    (idle : c.cancels? (.act number (.onTicket name (.cancel mode))) = none) :
    (c.move (.act number (.onTicket name (.cancel mode)))).commands = c.commands := by
  rw [cancels?] at idle
  rw [move]
  split at idle
  next taken => rw [if_pos taken]
  next free =>
    rw [if_neg free, act]
    split at idle
    next t held =>
      rw [held]
      change (c.cancel number name t mode).commands = c.commands
      rw [cancel_eq]
      split at idle
      next done =>
        rw [if_pos done]
        rfl
      next => cases idle
    next other =>
      split
      next t held =>
        cases t with
        | call t => exact absurd held (other t)
        | _ => rfl
      next => rfl

theorem addressed_release (c : Client) (t : Ticket) :
    ∃ new, (c.release t).commands = c.commands ++ new ∧
      ∀ command ∈ new, command.cancels = false := by
  have call : ∀ u : CallTicket, c.release t = c.release (.call u) →
      ∃ new, (c.release t).commands = c.commands ++ new ∧
        ∀ command ∈ new, command.cancels = false := by
    intro u same
    rw [same, release_call]
    cases u.settled with
    | true => exact ⟨[], (List.append_nil _).symm, by simp⟩
    | false => exact ⟨[.removeRoute u.route], rfl, by simp [Command.cancels, Command.message?]⟩
  cases t with
  | call u => exact call u rfl
  | results u => exact call u rfl
  | feed u =>
    rw [release_feed]
    split
    · exact ⟨[], (List.append_nil _).symm, by simp⟩
    · refine ⟨_, rfl, fun command there => ?_⟩
      rw [List.mem_singleton.mp there]
      cases u.kind <;> rfl
  | invocation u =>
    rw [release_invocation]
    split
    · exact ⟨[], (List.append_nil _).symm, by simp⟩
    · exact ⟨_, rfl, fun command there => List.mem_singleton.mp there ▸ rfl⟩

/-- Whoever asks for CANCEL waits until it is out. -/
theorem Part.addressed (part : Part w w') :
    ∃ new, w'.client.commands = w.client.commands ++ new ∧
      ∀ command ∈ new, command.cancels = true → command.answer? ≠ none := by
  have still : ∀ {d : Client} {commands : List Command}, d.commands = commands →
      ∃ new, d.commands = commands ++ new ∧
        ∀ command ∈ new, command.cancels = true → command.answer? ≠ none :=
    fun same => ⟨[], by rw [same, List.append_nil], by simp⟩
  have asks : ∀ {d : Client} {commands : List Command} {command : Command},
      d.commands = commands ++ [command] → (command.cancels = true → command.answer? ≠ none) →
        ∃ new, d.commands = commands ++ new ∧
          ∀ command ∈ new, command.cancels = true → command.answer? ≠ none :=
    fun queue own => ⟨_, queue, fun _ there => List.mem_singleton.mp there ▸ own⟩
  cases part with
  | called fresh procedure payload options keep =>
    unfold Client.call whenEstablished
    split
    · exact asks rfl (by simp [Command.answer?])
    · exact still rfl
  | enrolled fresh kind pattern options name =>
    unfold enrol whenEstablished
    split
    · exact asks rfl (by simp [Command.answer?])
    · exact still rfl
  | published fresh topic payload options =>
    unfold publish whenEstablished
    split
    · dsimp only
      split
      · exact asks rfl (by simp [Command.answer?])
      · exact asks rfl (by simp [Command.answer?])
    · exact still rfl
  | left fresh =>
    unfold leave
    split
    · exact still rfl
    · exact asks rfl (by simp [Command.answer?])
  | dropped => exact asks rfl (by simp [Command.cancels, Command.message?])
  | released t =>
    obtain ⟨new, queue, other⟩ := addressed_release _ t
    exact ⟨new, queue, fun command there cancels =>
      absurd cancels (by simp [other command there])⟩
  | canceled fresh name more first mode => exact asks rfl (by simp [Command.answer?])
  | answered fresh name first answers => exact asks rfl (by simp [Command.answer?])
  | departed fresh name first live => exact asks rfl (by simp [Command.answer?])
  | gaveUp there => exact still (by rw [forgetAll_eq]; rfl)
  | _ => exact still rfl

theorem Work.Links.addressed (links : w.Links w') :
    ∃ new, w'.client.commands = w.client.commands ++ new ∧
      ∀ command ∈ new, command.cancels = true → command.answer? ≠ none := by
  cases links with
  | part part => exact part.addressed
  | resumes there resumes =>
    cases resumes with
    | settled waits =>
      refine ⟨[], ?_, by simp⟩
      rw [release_call, List.append_nil]
      rfl
    | ceased waits => exact ⟨_, rfl, by simp [Command.cancels, Command.message?]⟩
    | _ => exact ⟨[], (List.append_nil _).symm, by simp⟩
  | turned found moved waits was => exact ⟨[], (List.append_nil _).symm, by simp⟩

theorem addressed_move (own : c.input? m = none) :
    ∃ new, (c.move m).commands = c.commands ++ new ∧
      ∀ command ∈ new, command.cancels = true → command.answer? ≠ none := by
  have all : ∀ {w : Work}, Relation.ReflTransGen Work.Links ⟨c, []⟩ w →
      ∃ new, w.client.commands = c.commands ++ new ∧
        ∀ command ∈ new, command.cancels = true → command.answer? ≠ none := by
    intro w chain
    induction chain with
    | refl => exact ⟨[], (List.append_nil _).symm, by simp⟩
    | tail _ link ih =>
      obtain ⟨first, queue, own⟩ := ih
      obtain ⟨more, queue', own'⟩ := link.addressed
      refine ⟨first ++ more, by rw [queue', queue, List.append_assoc], fun command there => ?_⟩
      exact (List.mem_append.mp there).elim (own command) (own' command)
  exact all (links_move own)

/-- Nobody asks for CANCEL but the program that has its call canceled. -/
theorem cancels_move (own : c.input? m = none) :
    (c.move m).commands.filter Command.cancels = c.commands.filter Command.cancels ++
      (c.cancels? m).toList.map Cancellation.command := by
  cases cancels : c.cancels? m with
  | some e =>
    obtain ⟨number, name, rfl, -, box, -, -, moved⟩ := of_cancels cancels
    have queue : (c.move (.act number (.onTicket name (.cancel e.mode)))).commands =
        c.commands ++ [e.command] := by
      rw [moved, Cancellation.command, box]
      rfl
    rw [queue, List.filter_append]
    rfl
  | none =>
    by_cases cancel : ∃ number name mode, m = .act number (.onTicket name (.cancel mode))
    · obtain ⟨number, name, mode, rfl⟩ := cancel
      rw [commands_of_idle cancels]
      simp
    · have other : ∀ number name mode, m ≠ .act number (.onTicket name (.cancel mode)) :=
        fun number name mode same => cancel ⟨number, name, mode, same⟩
      cases opens_move own other with
      | one session queue plain => simp [queue, plain]
      | none boxes =>
        obtain ⟨new, queue, addressed⟩ := addressed_move own
        obtain ⟨new', queue', issued⟩ := (grows_move own).commands
        obtain rfl := List.append_cancel_left (queue.symm.trans queue')
        -- there is no box that anybody could wait on
        have plain : new.filter Command.cancels = [] := by
          refine List.filter_eq_nil_iff.mpr fun command there cancels => ?_
          obtain ⟨b, answer⟩ := Option.ne_none_iff_exists'.mp (addressed command there cancels)
          obtain ⟨low, high⟩ := issued.fresh command there b (Command.feeds_of_answer answer)
          exact absurd (boxes ▸ high) (Nat.not_lt_of_le low)
        rw [queue, List.filter_append, plain]
        rfl

/-- All that was ever asked for to cancel calls. -/
theorem cancels_run (c : Client) (ms : List Move) :
    (c.served ms ++ (c.run ms).commands).filter Command.cancels =
      c.commands.filter Command.cancels ++ (c.canceled ms).map Cancellation.command := by
  induction ms generalizing c with
  | nil => simp [served, canceled, run]
  | cons m rest ih =>
    have step : (c.taken m ++ (c.move m).commands).filter Command.cancels =
        c.commands.filter Command.cancels ++ (c.cancels? m).toList.map Cancellation.command := by
      cases takes : c.input? m with
      | none => rw [taken_of_quiet takes, List.nil_append, cancels_move takes]
      | some input =>
        have idle : c.cancels? m = none := by
          cases m with
          | act number a => simp [input?] at takes
          | _ => rfl
        rw [← queue_of_takes takes, idle]
        simp
    have onward : (c.run (m :: rest)).commands = ((c.move m).run rest).commands := rfl
    rw [served, canceled, List.map_append, ← List.append_assoc, ← step, List.append_assoc, onward,
      List.filter_append, ih, List.filter_append, List.append_assoc]

/-! ### Once for each call -/

/-- Whoever has the box now cannot have a call canceled with it. -/
structure Work.Canceled (b : Box) (w : Work) : Prop where
  given : b < w.client.nextBox
  tickets : ∀ t ∈ w.tickets, t.owns b = true → t.isCanceled = true
  boxes : ∀ task ∈ w.client.tasks, b ∉ task.waiting.boxes

theorem Orderly.canceled (orderly : c.Orderly) {t : Ticket} (held : t ∈ c.heldTickets)
    (own : t.owns b = true) (canceled : t.isCanceled = true) : Work.Canceled b ⟨c, []⟩ := by
  have among : t ∈ Work.tickets ⟨c, []⟩ := mem_tickets.mpr (Or.inr held)
  obtain ⟨given, -, boxes⟩ := (orderly.owned b).held among own
  exact ⟨given, fun u there mine => (orderly.owned b).unique there among mine own ▸ canceled,
    boxes⟩

/-- An operation that goes on keeps a canceled call canceled. -/
theorem Yields.canceled {v : Waiting} {us : List Ticket} {outcome : Outcome}
    (yields : c.Yields v us outcome) (boxes : b ∉ v.boxes)
    (tickets : ∀ t ∈ v.tickets, t.owns b = true → t.isCanceled = true) :
    ∀ u ∈ us, u.owns b = true → u.isCanceled = true := by
  intro u there own
  cases yields with
  | same plain idle outcome => exact tickets u there own
  | @accepted request procedure accepted box keep route was outcome =>
    obtain rfl := List.mem_singleton.mp there
    obtain rfl : box = b := by simpa [CallTicket.opened] using own
    simp [Waiting.boxes] at boxes
  | settled stream last => exact tickets u there own
  | @result name t came stream more next =>
    obtain rfl := List.mem_singleton.mp there
    have before := tickets (t.kept stream) List.mem_cons_self (by simpa [CallTicket.take] using own)
    cases stream with
    | true => rfl
    | false => exact before
  | enrolled replied confirms outcome => exact List.mem_singleton.mp there ▸ rfl
  | event next => exact List.mem_singleton.mp there ▸ rfl
  | invocation next canceled =>
    rcases List.mem_pair.mp there with rfl | rfl
    · rfl
    · rfl
  | drained next other other' => exact List.mem_singleton.mp there ▸ rfl

theorem Work.Canceled.links (canceled : w.Canceled b) (links : w.Links w') : w'.Canceled b := by
  have given := Nat.lt_of_lt_of_le canceled.given links.grows.boxes
  cases links with
  | part part =>
    refine ⟨given, fun u there own => ?_, fun task there own => ?_⟩
    · obtain ⟨t, among, becomes⟩ := part.becomes u there
      exact becomes.isCanceled (canceled.tickets t among (becomes.descends.owns ▸ own))
    · rcases part.begun task there with old | ⟨-, fresh⟩
      · exact canceled.boxes task old own
      · exact absurd canceled.given (Nat.not_lt_of_le (fresh b own))
  | @resumes c task outcome w there resumes =>
    have others : ∀ {u : Ticket}, u ∈ (c.without task.number).heldTickets → u.owns b = true →
        u.isCanceled = true := fun among =>
      canceled.tickets _ (mem_tickets.mpr (Or.inr (mem_heldTickets_without among)))
    refine ⟨given, fun u among own => ?_, fun other among => ?_⟩
    · cases resumes with
      | resumed yields =>
        rcases mem_tickets.mp among with handed | held
        · refine yields.canceled (canceled.boxes task there) (fun t mine => ?_) u handed own
          exact canceled.tickets t (mem_tickets_of_waiting there mine)
        · exact others held own
      | refused bare last => exact others among own
      | settled waits =>
        rw [tickets_of_release] at among
        exact others among own
      | ceased waits =>
        rcases mem_tickets.mp among with handed | held
        · exact List.mem_singleton.mp handed ▸ rfl
        · exact others held own
    · rw [resumes.numbers] at among
      exact canceled.boxes other (List.mem_of_mem_filter among)
  | @turned c task request procedure accepted box route number found moved waits was =>
    have there := List.mem_of_find?_eq_some found
    refine ⟨given, fun u among own => ?_, fun other among => ?_⟩
    · rcases mem_heldTickets_turned among with held | rfl
      · exact canceled.tickets u (mem_tickets.mpr (Or.inr held)) own
      · obtain rfl : box = b := by simpa [CallTicket.opened] using own
        exact absurd (by simp [waits, Waiting.boxes]) (canceled.boxes task there)
    · rcases mem_turned among with old | waits'
      · exact canceled.boxes other old
      · simp [waits', Waiting.boxes]

theorem Work.Canceled.move (canceled : Work.Canceled b ⟨c, []⟩) (m : Move) :
    Work.Canceled b ⟨c.move m, []⟩ := by
  cases takes : c.input? m with
  | none =>
    have all : ∀ {w : Work}, Relation.ReflTransGen Work.Links ⟨c, []⟩ w → w.Canceled b := by
      intro w chain
      induction chain with
      | refl => exact canceled
      | tail _ link ih => exact ih.links link
    exact all (links_move takes)
  | some input =>
    obtain ⟨-, tasks, boxes⟩ := tickets_of_takes takes
    refine ⟨boxes ▸ canceled.given, fun u there => ?_, fun task there => ?_⟩
    · rw [Work.tickets, heldTickets_of_takes takes] at there
      exact canceled.tickets u there
    · exact canceled.boxes task (tasks ▸ there)

theorem Work.Canceled.apart (canceled : Work.Canceled b ⟨c, []⟩) (ms : List Move) :
    ∀ e ∈ c.canceled ms, e.ticket.box ≠ b := by
  induction ms generalizing c with
  | nil => exact fun e there => nomatch there
  | cons m rest ih =>
    intro e there
    rcases List.mem_append.mp there with now | later
    · obtain ⟨number, name, rfl, held, -, -, first, -⟩ := of_cancels (Option.mem_toList.mp now)
      rintro rfl
      have among : Ticket.call e.ticket ∈ c.heldTickets :=
        mem_heldTickets.mpr (Or.inl ⟨_, Assoc.mem_of_get? held, rfl⟩)
      have again := canceled.tickets _ (mem_tickets.mpr (Or.inr among)) (by simp)
      exact absurd again (by simp [Ticket.isCanceled, first])
    · exact ih (canceled.move m) e later

/-- No call is canceled twice. -/
theorem Settled.nodup_canceled (settled : Settled past c) (ms : List Move) :
    ((c.canceled ms).map fun e => e.ticket.box).Nodup := by
  induction ms generalizing c past with
  | nil => exact List.nodup_nil
  | cons m rest ih =>
    rw [canceled]
    cases cancels : c.cancels? m with
    | none => exact ih (settled.move m)
    | some e =>
      obtain ⟨number, name, rfl, -, -, -, -, moved⟩ := of_cancels cancels
      have held : Ticket.call e.left ∈
          (c.move (.act number (.onTicket name (.cancel e.mode)))).heldTickets := by
        rw [moved]
        refine mem_heldTickets.mpr (Or.inr ⟨_, List.mem_append_right _ List.mem_cons_self, ?_⟩)
        exact List.mem_cons_self
      have done := (settled.move _).orderly.canceled held (b := e.ticket.box)
        (by simp [Cancellation.left]) rfl
      refine List.nodup_cons.mpr ⟨fun again => ?_, ih (settled.move _)⟩
      obtain ⟨e', there, same⟩ := List.mem_map.mp again
      exact done.apart rest e' there same

/-! ### Until CANCEL is out -/

/-- As long as CANCEL is not taken up, the operation waits with the ticket, unless both were let go
of. -/
structure Pending (e : Cancellation) (task : Task) (past : List Command) (c : Client) : Prop where
  asked : e.command ∈ past ++ c.commands
  waits : e.command ∉ past → c.session.phase ≠ .closed →
    task ∈ c.tasks ∨ e.ticket.box ∈ c.session.gone

/-- It is not the turn of an operation whose message has not been taken up. -/
theorem poll_unsent (settled : Settled past c) {task : Task} (there : task ∈ c.tasks)
    {name : String} (own : task.waiting = e.waiting name) (live : c.session.phase ≠ .closed)
    (asked : e.command ∈ past ++ c.commands) (unserved : e.command ∉ past) :
    c.poll task.number = c := by
  have feeds : e.command.feeds e.box = true := Command.feeds_of_answer rfl
  have empty := (settled.books.blank e.box (settled.books.unfed asked feeds unserved)).1
  have queued := (List.mem_append.mp asked).resolve_left unserved
  have fed : c.feeds e.box = true := by
    have some' : (c.commands.any fun command => command.feeds e.box) = true :=
      List.any_eq_true.mpr ⟨_, queued, feeds⟩
    simp [Client.feeds, live, some']
  have still : c.advance task.waiting = none := by
    rw [own, Cancellation.waiting, advance, wasSent, postAt, empty, fed]
    rfl
  simp only [poll, settled.orderly.find_task there, still]

theorem Pending.move {task : Task} (pending : Pending e task past c) (settled : Settled past c)
    {name : String} (own : task.waiting = e.waiting name) (kept : c.desists? m ≠ some task.waiting) :
    Pending e task (past ++ c.taken m) (c.move m) where
  asked := by
    rw [List.append_assoc]
    refine List.mem_append.mpr ((List.mem_append.mp pending.asked).imp_right fun queued => ?_)
    exact (moves c m).queue.subset queued
  waits unserved live := by
    have unserved' : e.command ∉ past := fun old => unserved (List.mem_append_left _ old)
    have live' : c.session.phase ≠ .closed := fun late => live (closed_move late m)
    rcases pending.waits unserved' live' with there | gone
    · by_cases turn : m = .poll task.number
      · rw [turn, Client.move, poll_unsent settled there own live' pending.asked unserved']
        exact Or.inl there
      · have own' : .call e.left ∈ task.waiting.tickets := by
          rw [own]
          exact List.mem_cons_self
        rcases stays_move settled.orderly there turn with still | gone | desists
        · exact Or.inl still
        · exact Or.inr (gone (.call e.left) own' (beq_self_eq_true _))
        · exact absurd desists kept
    · exact Or.inr ((moves c m).gone settled.books.sound gone)

theorem Pending.run {task : Task} (pending : Pending e task past c) (settled : Settled past c)
    {name : String} (own : task.waiting = e.waiting name) (ms : List Move)
    (kept : task.waiting ∉ c.desisted ms) : Pending e task (past ++ c.served ms) (c.run ms) := by
  induction ms generalizing c past with
  | nil => rwa [served, List.append_nil]
  | cons m rest ih =>
    rw [desisted, List.mem_append, not_or, Option.mem_toList] at kept
    rw [served, ← List.append_assoc]
    exact ih (pending.move settled own kept.1) (settled.move m) kept.2

theorem exists_cancels (there : e ∈ c.canceled ms) :
    ∃ before m after, ms = before ++ m :: after ∧ (c.run before).cancels? m = some e := by
  induction ms generalizing c with
  | nil => cases there
  | cons m rest ih =>
    rcases List.mem_append.mp there with now | later
    · exact ⟨[], m, rest, rfl, Option.mem_toList.mp now⟩
    · obtain ⟨before, m', after, rfl, cancels⟩ := ih later
      exact ⟨m :: before, m', after, rfl, cancels⟩

/-- Until CANCEL is taken up, whoever has the ticket has it as it was when the call was canceled,
unless the program has dropped the operation that waits for that. -/
theorem Settled.unchanged_until_served (settled : Settled past c) (there : e ∈ c.canceled ms)
    (unserved : e.command ∉ past ++ c.served ms) (live : (c.run ms).session.phase ≠ .closed)
    (kept : ∀ name, e.waiting name ∉ c.desisted ms) :
    ∀ u ∈ (c.run ms).heldTickets, u.owns e.ticket.box = true → u = .call e.left := by
  obtain ⟨before, m, after, rfl, cancels⟩ := exists_cancels there
  obtain ⟨number, name, act, -, box, -, -, moved⟩ := of_cancels cancels
  have untaken : (c.run before).taken m = [] := by rw [act]; rfl
  let task : Task := ⟨number, false, e.waiting name⟩
  have pending : Pending e task (past ++ c.served before) ((c.run before).move m) := by
    rw [moved]
    refine ⟨List.mem_append_right _ ?_, fun _ _ => Or.inl ?_⟩
    · rw [Cancellation.command, box]
      exact List.mem_append_right _ List.mem_cons_self
    · dsimp only [task]
      rw [Cancellation.waiting, box]
      exact List.mem_append_right _ List.mem_cons_self
  have start := (settled.run before).move m
  rw [untaken, List.append_nil] at start
  have own : task.waiting = e.waiting name := rfl
  have kept' : task.waiting ∉ ((c.run before).move m).desisted after := fun dropped => by
    refine kept name ?_
    rw [desisted_append, desisted]
    exact List.mem_append_right _ (List.mem_append_right _ dropped)
  have later := pending.run start own after kept'
  rw [served_append, served, untaken, List.nil_append, ← List.append_assoc] at unserved
  have settled' := settled.run (before ++ m :: after)
  rw [run_append] at live settled' ⊢
  intro u held own
  rcases later.waits unserved live with waits | gone
  · have mine : Ticket.call e.left ∈ _ :=
      mem_heldTickets.mpr (Or.inr ⟨task, waits, List.mem_cons_self⟩)
    exact (settled'.orderly.owned _).unique (mem_tickets.mpr (Or.inr held))
      (mem_tickets.mpr (Or.inr mine)) own (beq_self_eq_true _)
  · exact absurd gone ((settled'.orderly.owned _).held (mem_tickets.mpr (Or.inr held)) own).2.1

/-! ### On the wire -/

/-- What is to be said with these commands to cancel calls. -/
def cancellations (commands : List Command) : List StreamItem :=
  ((commands.filter Command.cancels).filterMap Command.message?).map .message

theorem cancellations_append (before after : List Command) :
    cancellations (before ++ after) = cancellations before ++ cancellations after := by
  simp [cancellations]

theorem cancels_of_own {i : StreamItem} (own : i.isOwn = true) : i.cancels = false := by
  cases i with
  | message m => cases m <;> first | rfl | cases own
  | ping data => rfl

theorem cancellations_sent (c : Client) (ms : List Move) :
    ∃ out, (c.run ms).session.wire.sent = c.session.wire.sent ++ out ∧
      (out.filter StreamItem.cancels).Sublist (cancellations (c.served ms)) := by
  induction ms generalizing c with
  | nil => exact ⟨[], (List.append_nil _).symm, List.nil_sublist _⟩
  | cons m rest ih =>
    obtain ⟨first, sent, spoken⟩ := says_move c m
    obtain ⟨later, sent', asked'⟩ := ih (c.move m)
    refine ⟨first ++ later, ?_, ?_⟩
    · rw [← List.append_assoc, ← sent]
      exact sent'
    · rw [served, cancellations_append, List.filter_append]
      refine List.Sublist.append ?_ asked'
      cases spoken with
      | own own =>
        have plain : first.filter StreamItem.cancels = [] := by
          simpa using fun i there => cancels_of_own (own i there)
        exact plain ▸ List.nil_sublist _
      | @asked command rest said serves next asks opened =>
        have same : command.cancels = said.cancels := by rw [Command.cancels, asks]; rfl
        rw [serves, taken_of_next next]
        cases cancels : said.cancels with
        | true => simp [cancellations, same, cancels, asks, StreamItem.cancels]
        | false => simp [cancels, StreamItem.cancels]

/-- Each CANCEL that goes out is that of a call that the program has canceled. -/
theorem canceled_sent (idle : c.commands = []) (ms : List Move) :
    ∃ (out : List StreamItem) (asked : List Cancellation),
      (c.run ms).session.wire.sent = c.session.wire.sent ++ out ∧
      out.filter StreamItem.cancels = asked.map (fun e => .message e.message) ∧
      asked.Sublist (c.canceled ms) := by
  obtain ⟨out, sent, part⟩ := cancellations_sent c ms
  have all : cancellations (c.served ms ++ (c.run ms).commands) =
      (c.canceled ms).map fun e => .message e.message := by
    have said : Command.message? ∘ Cancellation.command = some ∘ Cancellation.message := rfl
    rw [cancellations, cancels_run, idle, List.filter_nil, List.nil_append, List.filterMap_map,
      said, List.filterMap_eq_map, List.map_map]
    rfl
  rw [cancellations_append] at all
  obtain ⟨asked, among, same⟩ := List.sublist_map_iff.mp
    (all ▸ part.trans (List.sublist_append_left _ _))
  exact ⟨out, asked, sent, same, among⟩

/-- When CANCEL goes out, whoever has the ticket of the call has not taken its last result, unless
the program has dropped the operation that waits for that. -/
theorem Settled.unsettled_of_sent (settled : Settled [] c) (idle : c.commands = [])
    {out : List StreamItem} {i : StreamItem}
    (sent : ((c.run ms).move m).session.wire.sent = (c.run ms).session.wire.sent ++ out)
    (there : i ∈ out) (cancels : i.cancels = true) :
    ∃ e ∈ c.canceled ms, i = .message e.message ∧ e.left.settled = false ∧
      ((∃ name, e.waiting name ∈ c.desisted ms) ∨
        ∀ u ∈ (c.run ms).heldTickets, u.owns e.ticket.box = true → u = .call e.left) := by
  obtain ⟨out', sent', spoken⟩ := says_move (c.run ms) m
  obtain rfl := List.append_cancel_left (sent.symm.trans sent')
  cases spoken with
  | own own => exact nomatch cancels.symm.trans (cancels_of_own (own i there))
  | @asked command rest said serves next asks opened =>
    obtain rfl := List.mem_singleton.mp there
    have queued : command ∈ (c.served ms ++ (c.run ms).commands).filter Command.cancels := by
      refine List.mem_filter.mpr ⟨List.mem_append_right _ (next ▸ List.mem_cons_self), ?_⟩
      rw [Command.cancels, asks]
      exact cancels
    rw [cancels_run, idle, List.filter_nil, List.nil_append] at queued
    obtain ⟨e, canceled, rfl⟩ := List.mem_map.mp queued
    obtain ⟨before, m', after, split, how⟩ := exists_cancels canceled
    obtain ⟨number, name, -, -, -, unsettled, -⟩ := of_cancels how
    have feeds : e.command.feeds e.box = true := Command.feeds_of_answer rfl
    have new : e.command ∉ [] ++ c.served ms := fun old =>
      nomatch feeds.symm.trans (((settled.run ms).books.not_feeds next feeds).1 _ old)
    have live : (c.run ms).session.phase ≠ .closed := by
      rcases opened with opened | ⟨closing, -⟩
      · simp [opened]
      · simp [closing]
    refine ⟨e, canceled, congrArg _ (Option.some.inj asks).symm, unsettled, ?_⟩
    by_cases dropped : ∃ name, e.waiting name ∈ c.desisted ms
    · exact Or.inl dropped
    · exact Or.inr (settled.unchanged_until_served canceled new live (not_exists.mp dropped))

end Client

end WampClient
