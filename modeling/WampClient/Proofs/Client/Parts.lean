import WampClient.Client.Run
import Mathlib.Logic.Relation

/-! What a client does on its own in a move, taken apart. A ticket is kept under a name, or by an
operation that waits, or is in the hands of the move that goes on; each part of a move makes one
thing of it. What all parts keep, every move keeps. -/
namespace WampClient

/-- How a call's ticket is kept: for itself, or as a stream of its results. -/
def CallTicket.kept (t : CallTicket) (stream : Bool) : Ticket :=
  if stream then .results t else .call t

@[simp] theorem FeedKind.box_feed (kind : FeedKind) (box : Box) : (kind.feed box).box = box := by
  cases kind <;> rfl

namespace Waiting

/-- The tickets that an operation has while it waits. -/
def tickets : Waiting → List Ticket
  | .lastOutcome t => [.call t]
  | .nextOutcome _ t stream => [t.kept stream]
  | .sent _ _ _ back _ => (back.map Prod.snd).toList
  | .departure _ t _ _ => [.feed t]
  | .nextItem _ t _ => [.feed t]
  | .cancellation _ t => [.invocation t]
  | _ => []

/-- The ticket that was only lent to it, and the name under which that is kept again. -/
def lent? : Waiting → Option (String × Ticket)
  | .nextOutcome name t stream => some (name, t.kept stream)
  | .sent _ _ _ back _ => back
  | .departure name t _ _ => some (name, .feed t)
  | .nextItem name t _ => some (name, .feed t)
  | .cancellation name t => some (name, .invocation t)
  | _ => none

/-- The boxes that it looks into, apart from those of its tickets. -/
def boxes : Waiting → List Box
  | .call _ _ accepted box _ => [accepted, box]
  | .enrolment _ _ _ accepted reply box => [accepted, reply, box]
  | .publication _ accepted reply => [accepted, reply]
  | .sent box _ _ _ _ => [box]
  | .departure _ _ accepted reply => [accepted, reply]
  | .leave box => [box]
  | _ => []

/-- The box out of which it takes the next thing. -/
def reads? : Waiting → Option Box
  | .nextOutcome _ t _ => some t.box
  | .nextItem _ t _ => some t.box
  | _ => none

/-- The box of the registration or subscription whose ticket it is still to get. -/
def enrols? : Waiting → Option Box
  | .enrolment _ _ _ _ _ box => some box
  | _ => none

end Waiting

/-- The answers that can be given to an invocation, and whether there can be more of them. -/
inductive InvocationTicket.Answers (t : InvocationTicket) : Message → Bool → Prop where
  | result (payload : Payload) : Answers t (t.result payload) true
  | progress (payload : Payload) (wanted : t.receivesProgress = true) :
      Answers t (t.progress payload) false
  | error (e : CalleeError) : Answers t (t.error e) true

namespace Client

/-- The tickets that an operation has when it goes on, because of what is in its boxes, and what it
comes to. -/
inductive Yields (c : Client) : Waiting → List Ticket → Outcome → Prop where
  | same {w : Waiting} (plain : w.reads? = none) (idle : w.enrols? = none) (outcome : Outcome) :
      Yields c w w.tickets outcome
  | accepted {request : Id} {procedure : Uri} {accepted box : Box} {keep : Option String}
      {route : Handle} (was : c.wasAccepted accepted = some (.ok route)) (outcome : Outcome) :
      Yields c (.call request procedure accepted box keep)
        [.call (CallTicket.opened request procedure route box)] outcome
  | enrolled {kind : FeedKind} {name : String} {pattern : UriPattern} {accepted reply box : Box}
      {m : Message} {route : Handle} {id : Id}
      (replied : c.replied accepted reply = some (.ok (m, some route)))
      (confirms : kind.enrolled? m = some id) (outcome : Outcome) :
      Yields c (.enrolment kind name pattern accepted reply box)
        [.feed (FeedTicket.opened kind id pattern route box)] outcome
  | settled {name : String} {t : CallTicket} (stream : Bool) (last : t.settled = true) :
      Yields c (.nextOutcome name t stream) [t.kept stream] .exhausted
  | result {name : String} {t : CallTicket} {came : Except Failure Message} (stream : Bool)
      (more : t.settled = false) (next : c.cameBack t = some came) :
      Yields c (.nextOutcome name t stream) [(t.take came).1.kept stream] (ofResult (t.judge came))
  | event {name : String} {t : FeedTicket} {keep : Option String} {e : Event}
      (next : c.postAt t.box t.read = some (some (.event e))) :
      Yields c (.nextItem name t keep) [.feed { t with read := t.read + 1 }] (.event (t.event e))
  | invocation {name : String} {t : FeedTicket} {keep : Option String} {i : Invocation}
      {cell : Cell} (next : c.postAt t.box t.read = some (some (.invocation i cell)))
      (canceled : Option CancelMode) :
      Yields c (.nextItem name t keep)
        [.feed { t with read := t.read + 1 }, .invocation ⟨i, t.pattern, cell, false⟩]
        (.ticket (.invocation ⟨i, t.pattern, cell, false⟩) canceled)
  | drained {name : String} {t : FeedTicket} {keep : Option String} {p : Option Post}
      (next : c.postAt t.box t.read = some p) (other : ∀ i cell, p ≠ some (.invocation i cell))
      (other' : ∀ e, p ≠ some (.event e)) : Yields c (.nextItem name t keep) [.feed t] .exhausted

/-- A client in the middle of a move, with the tickets that it has in its hands. -/
structure Work where
  client : Client
  hand : List Ticket

/-- The client with a ticket under a name, whatever was kept there. -/
def putting (c : Client) (name : String) (t : Ticket) : Client :=
  { c with tickets := Assoc.alter name (fun _ => some t) c.tickets }

/-- The client without the operation of a given number. -/
def without (c : Client) (number : Nat) : Client :=
  { c with tasks := c.tasks.filter fun t => t.number ≠ number }

/-- Asks the router to end a registration or subscription, whose ticket waits for the reply. -/
def departing (c : Client) (number : Nat) (name : String) (t : FeedTicket) : Client :=
  let (request, c) := c.drawId
  let (accepted, c) := c.newBox
  let (reply, c) := c.newBox
  (c.issue (.request (t.kind.departure request t.id) (t.kind.departureKeys request)
    (.reply (some reply) (some (.remove t.route))) (some accepted))).await number false
      (.departure name { t with closed := true } accepted reply)

/-- The smallest things that a client does on its own. An operation begins under a number that no
other has. -/
inductive Part : Work → Work → Prop where
  | concluded {c : Client} {ts : List Ticket} (number : Nat) (outcome : Outcome) :
      Part ⟨c, ts⟩ ⟨c.conclude number outcome, ts⟩
  | called {c : Client} {ts : List Ticket} {number : Nat}
      (fresh : ∀ task ∈ c.tasks, task.number ≠ number) (procedure : Uri) (payload : Payload)
      (options : CallOptions) (keep : Option String) :
      Part ⟨c, ts⟩ ⟨c.call number procedure payload options keep, ts⟩
  | enrolled {c : Client} {ts : List Ticket} {number : Nat}
      (fresh : ∀ task ∈ c.tasks, task.number ≠ number) (kind : FeedKind)
      (pattern : UriPattern) (options : EnrolOptions) (name : String) :
      Part ⟨c, ts⟩ ⟨c.enrol number kind pattern options name, ts⟩
  | published {c : Client} {ts : List Ticket} {number : Nat}
      (fresh : ∀ task ∈ c.tasks, task.number ≠ number) (topic : Uri) (payload : Payload)
      (options : PublishOptions) : Part ⟨c, ts⟩ ⟨c.publish number topic payload options, ts⟩
  | left {c : Client} {ts : List Ticket} {number : Nat}
      (fresh : ∀ task ∈ c.tasks, task.number ≠ number) : Part ⟨c, ts⟩ ⟨c.leave number, ts⟩
  | dropped {c : Client} {ts : List Ticket} : Part ⟨c, ts⟩ ⟨c.dropSession, ts⟩
  | took {c : Client} {ts : List Ticket} {name : String} {t : Ticket}
      (found : c.ticket? name = some t) : Part ⟨c, ts⟩ ⟨c.takeOut name, t :: ts⟩
  /-- Whatever was kept under the name comes into the hands. -/
  | put {c : Client} {ts : List Ticket} (name : String) (t : Ticket) :
      Part ⟨c, t :: ts⟩ ⟨c.putting name t, (c.ticket? name).toList ++ ts⟩
  | released {c : Client} {ts : List Ticket} (t : Ticket) :
      Part ⟨c, t :: ts⟩ ⟨c.release t, ts⟩
  /-- An operation waits with tickets alone. -/
  | waits {c : Client} {ts : List Ticket} {number : Nat}
      (fresh : ∀ task ∈ c.tasks, task.number ≠ number) (onSession : Bool) {w : Waiting}
      (plain : w.boxes = []) : Part ⟨c, w.tickets ++ ts⟩ ⟨c.await number onSession w, ts⟩
  | canceled {c : Client} {ts : List Ticket} {number : Nat}
      (fresh : ∀ task ∈ c.tasks, task.number ≠ number) (name : String) {t : CallTicket}
      (more : t.settled = false) (first : t.cancelSent = false) (mode : CancelMode) :
      Part ⟨c, .call t :: ts⟩
        ⟨c.sendFor number false (.cancel t.id [("mode", .string mode.name)]) .cancel
          t.procedure.text (some (name, .call { t with cancelSent := true })) .done, ts⟩
  | answered {c : Client} {ts : List Ticket} {number : Nat}
      (fresh : ∀ task ∈ c.tasks, task.number ≠ number) (name : String)
      {t : InvocationTicket} (first : t.handled = false) {m : Message} {final : Bool}
      (answers : t.Answers m final) :
      Part ⟨c, .invocation t :: ts⟩
        ⟨c.sendFor number false m .yield t.target
          (some (name, .invocation { t with handled := final })) .done, ts⟩
  | departed {c : Client} {ts : List Ticket} {number : Nat}
      (fresh : ∀ task ∈ c.tasks, task.number ≠ number) (name : String) {t : FeedTicket}
      (first : t.closed = false) (live : c.session.phase = .established) :
      Part ⟨c, .feed t :: ts⟩ ⟨c.departing number name t, ts⟩
  /-- Nothing is to be asked of the router any more. -/
  | shut {c : Client} {ts : List Ticket} (t : FeedTicket) (late : c.session.phase ≠ .established) :
      Part ⟨c, .feed t :: ts⟩ ⟨c, .feed { t with closed := true } :: ts⟩
  | streamed {c : Client} {ts : List Ticket} (t : CallTicket) :
      Part ⟨c, .call t :: ts⟩ ⟨c, .results t :: ts⟩
  /-- An operation is given up, and what it waited for with it. -/
  | gaveUp {c : Client} {ts : List Ticket} {task : Task} (there : task ∈ c.tasks) :
      Part ⟨c, ts⟩ ⟨task.waiting.boxes.foldl forget (c.without task.number),
        task.waiting.tickets ++ ts⟩

abbrev Parts : Work → Work → Prop := Relation.ReflTransGen Part

variable {c d : Client} {ts us : List Ticket}

/-- What holds both of the client that goes on and of the one whose operation has failed at once. -/
theorem whenEstablished_keeps {P : Client → Prop} {number : Nat} {operation : Operation}
    {target : String} {go : Client → Client} (goes : P (go c))
    (refused : P (c.conclude number
      (.failed (Failure.sessionClosed.during operation target)))) :
    P (c.whenEstablished number operation target go) := by
  unfold whenEstablished
  split
  · exact goes
  · exact refused

/-! ### Keeping and letting go -/

theorem release_call (c : Client) (t : CallTicket) : c.release (.call t) =
    (if t.settled then c else c.issue (.removeRoute t.route)).forget t.box := rfl

theorem release_feed (c : Client) (t : FeedTicket) : c.release (.feed t) =
    (if t.closed || c.session.phase != .established then c else c.departDetached t).forget t.box :=
  rfl

theorem release_invocation (c : Client) (t : InvocationTicket) : c.release (.invocation t) =
    if t.handled || c.session.phase != .established then c
    else c.issue (.send t.abandonment none) := rfl

theorem keep_eq (c : Client) (name : String) (t : Ticket) : c.keep name t =
    (c.ticket? name).elim (c.putting name t) (c.putting name t).release := rfl

theorem parts_keep (c : Client) (name : String) (t : Ticket) (ts : List Ticket) :
    Parts ⟨c, t :: ts⟩ ⟨c.keep name t, ts⟩ := by
  have kept : Parts ⟨c, t :: ts⟩ ⟨c.putting name t, (c.ticket? name).toList ++ ts⟩ :=
    .single (.put name t)
  rw [keep_eq]
  cases found : c.ticket? name with
  | none => rwa [found] at kept
  | some old =>
    rw [found] at kept
    exact kept.tail (.released old)

theorem parts_dropTicket (c : Client) (name : String) : Parts ⟨c, []⟩ ⟨c.dropTicket name, []⟩ := by
  unfold dropTicket
  split
  · exact .refl
  next t found => exact .head (.took found) (.single (.released t))

theorem parts_release (ts : List Ticket) (c : Client) : Parts ⟨c, ts⟩ ⟨ts.foldl release c, []⟩ := by
  induction ts generalizing c with
  | nil => exact .refl
  | cons t rest ih => exact .head (.released t) (ih _)

theorem giveUp_eq (c : Client) (w : Waiting) :
    c.giveUp w = w.tickets.foldl release (w.boxes.foldl forget c) := by
  cases w with
  | nextOutcome name t stream => cases stream <;> rfl
  | sent box operation target back outcome => cases back <;> rfl
  | _ => rfl

/-- How an operation is dropped. Nobody looks into its boxes any more; its ticket is let go of, or
the program has it again. -/
inductive Desists (c : Client) (number : Nat) : Client → Prop where
  | released {task : Task} (found : (c.tasks.find? fun t => t.number == number) = some task) :
      Desists c number
        (task.waiting.tickets.foldl release (task.waiting.boxes.foldl forget (c.without number)))
  | kept {task : Task} {e : String × Ticket}
      (found : (c.tasks.find? fun t => t.number == number) = some task)
      (lent : task.waiting.lent? = some e) :
      Desists c number ((task.waiting.boxes.foldl forget (c.without number)).keep e.1 e.2)

theorem without_eq (c : Client) (number : Nat) :
    ({ c with tasks := c.tasks.filter fun t => t.number != number } : Client) =
      c.without number := by
  rw [without]
  congr 2
  funext t
  by_cases same : t.number = number <;> simp [same]

theorem desists_of_abandon {number : Nat} (abandoned : c.abandon number = some d) :
    c.Desists number d := by
  unfold abandon at abandoned
  split at abandoned
  · cases abandoned
  next task found =>
    obtain rfl := Option.some.inj abandoned
    rw [giveUp_eq, without_eq]
    exact .released found

/-- A ticket that was lent to an operation is kept again, and any other is let go of. -/
theorem handBack_cases (c : Client) (w : Waiting) :
    (∃ e, w.lent? = some e ∧ c.handBack w = (w.boxes.foldl forget c).keep e.1 e.2) ∨
      c.handBack w = c.giveUp w := by
  cases w with
  | nextOutcome name t stream => exact Or.inl ⟨_, rfl, rfl⟩
  | sent box operation target back outcome =>
    cases back with
    | none => exact Or.inr rfl
    | some e => exact Or.inl ⟨e, rfl, rfl⟩
  | departure name t accepted reply => exact Or.inl ⟨_, rfl, rfl⟩
  | nextItem name t keep => exact Or.inl ⟨_, rfl, rfl⟩
  | cancellation name t => exact Or.inl ⟨_, rfl, rfl⟩
  | _ => exact Or.inr rfl

theorem desists_of_desist {number : Nat} (desisted : c.desist number = some d) :
    c.Desists number d := by
  unfold desist at desisted
  split at desisted
  · cases desisted
  next task found =>
    obtain rfl := Option.some.inj desisted
    rw [without_eq]
    rcases handBack_cases (c.without number) task.waiting with ⟨e, lent, same⟩ | same
    · rw [same]
      exact .kept found lent
    · rw [same, giveUp_eq]
      exact .released found

/-- A ticket that was lent to an operation is all that it has. -/
theorem tickets_of_lent {w : Waiting} {e : String × Ticket} (lent : w.lent? = some e) :
    w.tickets = [e.2] := by
  cases w with
  | sent box operation target back outcome =>
    obtain rfl : back = some e := lent
    rfl
  | nextOutcome name t stream => exact Option.some.inj lent ▸ rfl
  | departure name t accepted reply => exact Option.some.inj lent ▸ rfl
  | nextItem name t keep => exact Option.some.inj lent ▸ rfl
  | cancellation name t => exact Option.some.inj lent ▸ rfl
  | _ => cases lent

theorem parts_desists {number : Nat} (desists : c.Desists number d) :
    Parts ⟨c, []⟩ ⟨d, []⟩ := by
  have gaveUp : ∀ {task : Task}, (c.tasks.find? fun t => t.number == number) = some task →
      Part ⟨c, []⟩ ⟨task.waiting.boxes.foldl forget (c.without number), task.waiting.tickets⟩ := by
    intro task found
    obtain rfl : task.number = number := by simpa using List.find?_some found
    have part : Part ⟨c, []⟩ ⟨_, task.waiting.tickets ++ []⟩ :=
      .gaveUp (List.mem_of_find?_eq_some found)
    rwa [List.append_nil] at part
  cases desists with
  | released found => exact .head (gaveUp found) (parts_release _ _)
  | kept found lent =>
    have part := gaveUp found
    rw [tickets_of_lent lent] at part
    exact .head part (parts_keep _ _ _ _)

/-! ### What comes out of boxes -/

theorem judgeEnrolment_ok {kind : FeedKind} {pattern : UriPattern} {box : Box}
    {answer : Except Failure (Message × Option Handle)} {t : FeedTicket}
    (enrolled : judgeEnrolment kind pattern box answer = .ok t) :
    ∃ m route id, answer = .ok (m, some route) ∧ kind.enrolled? m = some id ∧
      t = FeedTicket.opened kind id pattern route box := by
  rw [judgeEnrolment.eq_def] at enrolled
  split at enrolled
  next m route =>
    split at enrolled
    next id confirms => exact ⟨m, route, id, rfl, confirms, (Except.ok.inj enrolled).symm⟩
    next => simp at enrolled
  next => simp at enrolled
  next => simp at enrolled

/-- How an operation comes to an end, once it is no longer among those that wait: with tickets in
its hands, or without. -/
inductive Resumes (c : Client) (tasks : List Task) (w : Waiting) (outcome : Outcome) :
    Work → Prop where
  | resumed {us : List Ticket} (yields : c.Yields w us outcome) :
      Resumes c tasks w outcome ⟨{ c with tasks }, us⟩
  /-- Nothing will come into the box. -/
  | refused {box : Box} (bare : w.tickets = []) (own : w.boxes.getLast? = some box) :
      Resumes c tasks w outcome ⟨{ c with tasks }.forget box, []⟩
  | settled {t : CallTicket} (waits : w = .lastOutcome t) :
      Resumes c tasks w outcome ⟨{ c with tasks }.release (.call { t with settled := true }), []⟩
  | ceased {name : String} {t : FeedTicket} {accepted reply : Box}
      (waits : w = .departure name t accepted reply) :
      Resumes c tasks w outcome ⟨{ c with tasks }.issue (.removeRoute t.route), [.feed t]⟩

/-- How an operation goes on: it waits for the last result of its call, or ends and sees to what it
has. -/
inductive Advances (c : Client) (w : Waiting) : Client → Waiting ⊕ Outcome → Prop where
  | turns {request : Id} {procedure : Uri} {accepted box : Box} {route : Handle}
      (waits : w = .call request procedure accepted box none)
      (was : c.wasAccepted accepted = some (.ok route)) :
      Advances c w c (.inl (.lastOutcome (CallTicket.opened request procedure route box)))
  | ends {d : Client} {outcome : Outcome} (tasks : d.tasks = c.tasks)
      (finished : d.finished = c.finished)
      (does : ∀ tasks, ∃ v, Resumes c tasks w outcome v ∧ Parts v ⟨{ d with tasks }, []⟩) :
      Advances c w d (.inr outcome)

/-- Letting go of a ticket has nothing to do with the operations that wait. -/
theorem release_tasks (c : Client) (t : Ticket) (tasks : List Task) :
    { c with tasks }.release t = { c.release t with tasks } := by
  have call : ∀ t : CallTicket,
      { c with tasks }.release (.call t) = { c.release (.call t) with tasks } := by
    intro t
    rw [release_call, release_call]
    cases t.settled <;> rfl
  cases t with
  | call t => exact call t
  | results t => exact call t
  | feed t =>
    rw [release_feed, release_feed]
    by_cases none' : (t.closed || c.session.phase != .established) = true
    · rw [if_pos none', if_pos none']
      rfl
    · rw [if_neg none', if_neg none']
      rfl
  | invocation t =>
    rw [release_invocation, release_invocation]
    by_cases none' : (t.handled || c.session.phase != .established) = true
    · rw [if_pos none', if_pos none']
    · rw [if_neg none', if_neg none']
      rfl

theorem keep_tasks (c : Client) (name : String) (t : Ticket) (tasks : List Task) :
    { c with tasks }.keep name t = { c.keep name t with tasks } := by
  have same : { c with tasks }.ticket? name = c.ticket? name := rfl
  rw [keep_eq, keep_eq, same]
  cases c.ticket? name with
  | none => rfl
  | some old => exact release_tasks (c.putting name t) old tasks

theorem tasks_release (c : Client) (t : Ticket) : (c.release t).tasks = c.tasks := by
  have kept := congrArg Client.tasks (release_tasks c t c.tasks)
  exact kept

theorem tasks_keep (c : Client) (name : String) (t : Ticket) : (c.keep name t).tasks = c.tasks := by
  have kept := congrArg Client.tasks (keep_tasks c name t c.tasks)
  exact kept

theorem finished_release (c : Client) (t : Ticket) : (c.release t).finished = c.finished := by
  have call : ∀ t : CallTicket, (c.release (.call t)).finished = c.finished := by
    intro t
    rw [release_call]
    cases t.settled <;> rfl
  cases t with
  | call t => exact call t
  | results t => exact call t
  | feed t =>
    rw [release_feed]
    split <;> rfl
  | invocation t =>
    rw [release_invocation]
    split <;> rfl

theorem tasks_releases (ts : List Ticket) (c : Client) :
    (ts.foldl release c).tasks = c.tasks := by
  induction ts generalizing c with
  | nil => rfl
  | cons t rest ih => exact (ih _).trans (tasks_release c t)

theorem finished_releases (ts : List Ticket) (c : Client) :
    (ts.foldl release c).finished = c.finished := by
  induction ts generalizing c with
  | nil => rfl
  | cons t rest ih => rw [List.foldl_cons, ih, finished_release]

theorem finished_keep (c : Client) (name : String) (t : Ticket) :
    (c.keep name t).finished = c.finished := by
  rw [keep_eq]
  cases c.ticket? name with
  | none => rfl
  | some old => exact finished_release _ old

theorem ends_keep {w : Waiting} {t : Ticket} (name : String) {outcome : Outcome}
    (yields : c.Yields w [t] outcome) : c.Advances w (c.keep name t) (.inr outcome) := by
  refine .ends (tasks_keep c name t) (finished_keep c name t) fun tasks => ⟨_, .resumed yields, ?_⟩
  rw [← keep_tasks]
  exact parts_keep _ name t []

theorem ends_release {w : Waiting} {t : Ticket} {outcome : Outcome}
    (yields : c.Yields w [t] outcome) : c.Advances w (c.release t) (.inr outcome) := by
  refine .ends (tasks_release c t) (finished_release c t) fun tasks => ⟨_, .resumed yields, ?_⟩
  rw [← release_tasks]
  exact .single (.released t)

theorem ends_forget {w : Waiting} {box : Box} (bare : w.tickets = [])
    (own : w.boxes.getLast? = some box) (outcome : Outcome) :
    c.Advances w (c.forget box) (.inr outcome) :=
  .ends (d := c.forget box) rfl rfl fun _ => ⟨_, .refused bare own, .refl⟩

theorem ends_quietly {w : Waiting} (bare : w.tickets = []) (plain : w.reads? = none)
    (idle : w.enrols? = none) (outcome : Outcome) : c.Advances w c (.inr outcome) := by
  have yields : c.Yields w [] outcome := bare ▸ .same plain idle outcome
  exact .ends rfl rfl fun tasks => ⟨_, .resumed yields, .refl⟩

theorem advances_takeItem (name : String) (t : FeedTicket) (keep : Option String)
    {p : Option Post} (next : c.postAt t.box t.read = some p) :
    let (d, outcome) := c.takeItem name t keep p
    c.Advances (.nextItem name t keep) d (.inr outcome) := by
  rcases p with _ | p
  · exact ends_keep name (.drained next (by simp) (by simp))
  · cases p with
    | invocation i cell =>
      cases keep with
      | none =>
        refine .ends ?_ ?_ fun tasks => ⟨_, .resumed (.invocation next _), ?_⟩
        · rw [tasks_release, tasks_keep]
        · rw [finished_release, finished_keep]
        rw [← release_tasks, ← keep_tasks]
        exact (parts_keep _ name _ _).tail (.released _)
      | some other =>
        refine .ends ?_ ?_ fun tasks => ⟨_, .resumed (.invocation next _), ?_⟩
        · rw [tasks_keep, tasks_keep]
        · rw [finished_keep, finished_keep]
        rw [← keep_tasks, ← keep_tasks]
        exact (parts_keep _ name _ _).trans (parts_keep _ other _ _)
    | event e => exact ends_keep name (.event next)
    | _ => exact ends_keep name (.drained next (by simp) (by simp))

theorem advances {w : Waiting} {next : Waiting ⊕ Outcome} (moved : c.advance w = some (d, next)) :
    c.Advances w d next := by
  cases w with
  | call request procedure accepted box keep =>
    obtain ⟨answer, was, same⟩ := Option.map_eq_some_iff.mp moved
    cases answer with
    | error f =>
      obtain ⟨rfl, rfl⟩ := Prod.mk.inj same
      exact ends_forget rfl rfl _
    | ok route =>
      cases keep with
      | none =>
        obtain ⟨rfl, rfl⟩ := Prod.mk.inj same
        exact .turns rfl was
      | some name =>
        obtain ⟨rfl, rfl⟩ := Prod.mk.inj same
        exact ends_keep name (.accepted was _)
  | lastOutcome t =>
    -- however the wait ends, the call is settled and its ticket let go of
    have ended : ∀ result, some ((c.settleCall t result).1, Sum.inr (c.settleCall t result).2) =
        some (d, next) → c.Advances (.lastOutcome t) d next := by
      intro result same
      obtain ⟨rfl, rfl⟩ := Prod.mk.inj (Option.some.inj same)
      refine .ends (tasks_release c _) (finished_release c _) fun tasks => ⟨_, .settled rfl, ?_⟩
      rw [release_tasks]
      exact .refl
    rw [advance] at moved
    dsimp only at moved
    split at moved
    · exact ended _ moved
    · split at moved
      · exact ended _ moved
      · split at moved
        · simp at moved
        · exact ended _ moved
  | nextOutcome name t stream =>
    rw [advance] at moved
    split at moved
    next last =>
      obtain ⟨rfl, rfl⟩ := Prod.mk.inj (Option.some.inj moved)
      have yields : c.Yields (.nextOutcome name t stream) [t.kept stream] .exhausted :=
        .settled stream last
      cases stream with
      | false => exact ends_keep name yields
      | true => exact ends_release yields
    next more =>
      obtain ⟨came, next, same⟩ := Option.map_eq_some_iff.mp moved
      obtain ⟨rfl, rfl⟩ := Prod.mk.inj same
      exact ends_keep name (.result stream (by simpa using more) next)
  | enrolment kind name pattern accepted reply box =>
    obtain ⟨answer, replied, same⟩ := Option.map_eq_some_iff.mp moved
    split at same
    next t enrolled =>
      obtain ⟨rfl, rfl⟩ := Prod.mk.inj same
      obtain ⟨m, route, id, rfl, confirms, rfl⟩ := judgeEnrolment_ok enrolled
      exact ends_keep name (.enrolled replied confirms _)
    next =>
      obtain ⟨rfl, rfl⟩ := Prod.mk.inj same
      exact ends_forget rfl rfl _
  | publication topic accepted reply =>
    obtain ⟨answer, -, same⟩ := Option.map_eq_some_iff.mp moved
    obtain ⟨rfl, rfl⟩ := Prod.mk.inj same
    exact ends_quietly rfl rfl rfl _
  | sent box operation target back outcome =>
    obtain ⟨result, -, same⟩ := Option.map_eq_some_iff.mp moved
    obtain ⟨rfl, rfl⟩ := Prod.mk.inj same
    cases back with
    | none => exact ends_quietly rfl rfl rfl _
    | some e => exact ends_keep e.1 (.same rfl rfl _)
  | departure name t accepted reply =>
    obtain ⟨answer, -, same⟩ := Option.map_eq_some_iff.mp moved
    obtain ⟨rfl, rfl⟩ := Prod.mk.inj same
    have kept : ((c.issue (.removeRoute t.route)).keep name (.feed t)).tasks = c.tasks :=
      tasks_keep _ name _
    refine .ends kept (finished_keep _ name _) fun tasks => ⟨_, .ceased rfl, ?_⟩
    rw [← keep_tasks]
    exact parts_keep _ name _ []
  | nextItem name t keep =>
    obtain ⟨p, next, same⟩ := Option.map_eq_some_iff.mp moved
    obtain ⟨rfl, rfl⟩ := Prod.mk.inj same
    exact advances_takeItem name t keep next
  | leave box =>
    obtain ⟨p, -, same⟩ := Option.map_eq_some_iff.mp moved
    obtain ⟨rfl, rfl⟩ := Prod.mk.inj same
    exact ends_quietly rfl rfl rfl _
  | ending =>
    rw [advance] at moved
    split at moved
    · obtain ⟨rfl, rfl⟩ := Prod.mk.inj (Option.some.inj moved)
      exact ends_quietly rfl rfl rfl _
    · simp at moved
  | cancellation name t =>
    rw [advance] at moved
    split at moved
    · obtain ⟨rfl, rfl⟩ := Prod.mk.inj (Option.some.inj moved)
      exact ends_keep name (.same rfl rfl _)
    · split at moved
      · simp at moved
      · obtain ⟨rfl, rfl⟩ := Prod.mk.inj (Option.some.inj moved)
        exact ends_keep name (.same rfl rfl _)

theorem tasks_advance {v : Waiting} {next : Waiting ⊕ Outcome}
    (moved : c.advance v = some (d, next)) : d.tasks = c.tasks := by
  cases advances moved with
  | turns waits was => rfl
  | ends tasks finished does => exact tasks

theorem finished_advance {v : Waiting} {next : Waiting ⊕ Outcome}
    (moved : c.advance v = some (d, next)) : d.finished = c.finished := by
  cases advances moved with
  | turns waits was => rfl
  | ends tasks finished does => exact finished

/-- What becomes of a client when one of its operations is polled: nothing, or the operation goes on
to wait for something else, or it comes to an end. -/
inductive Polls (c : Client) (number : Nat) : Client → Prop where
  | still (none' : ∀ task, c.tasks.find? (fun t => t.number == number) = some task →
      c.advance task.waiting = none) : Polls c number c
  | turned {task : Task} {request : Id} {procedure : Uri} {accepted box : Box} {route : Handle}
      (found : c.tasks.find? (fun t => t.number == number) = some task)
      (moved : ∃ w, c.advance task.waiting = some (c, .inl w))
      (waits : task.waiting = .call request procedure accepted box none)
      (was : c.wasAccepted accepted = some (.ok route)) :
      Polls c number { c with tasks := c.tasks.map fun t =>
        if t.number = number then
          { t with waiting := .lastOutcome (CallTicket.opened request procedure route box) }
        else t }
  | ended {task : Task} {d e : Client} {outcome : Outcome} {v : Work}
      (found : c.tasks.find? (fun t => t.number == number) = some task)
      (moved : c.advance task.waiting = some (e, .inr outcome))
      (resumes : c.Resumes (c.without number).tasks task.waiting outcome v)
      (parts : Parts v ⟨d, []⟩) : Polls c number d

theorem polls (c : Client) (number : Nat) : c.Polls number (c.poll number) := by
  cases found : c.tasks.find? (fun t => t.number == number) with
  | none =>
    have still : c.poll number = c := by rw [poll, found]
    rw [still]
    exact .still fun task found' => by simp [found] at found'
  | some task =>
    cases moved : c.advance task.waiting with
    | none =>
      have still : c.poll number = c := by
        rw [poll, found]
        dsimp only
        rw [moved]
      rw [still]
      exact .still fun other found' => by
        obtain rfl := Option.some.inj (found.symm.trans found')
        exact moved
    | some next =>
      rcases next with ⟨e, w | outcome⟩
      · have turned : c.poll number = { e with tasks := e.tasks.map fun t =>
            if t.number = number then { t with waiting := w } else t } := by
          rw [poll, found]
          dsimp only
          rw [moved]
        rw [turned]
        cases advances moved with
        | turns waits was => exact .turned found ⟨_, moved⟩ waits was
      · have ended : c.poll number =
            { e with tasks := e.tasks.filter fun t => t.number ≠ number }.conclude number
              outcome := by
          rw [poll, found]
          dsimp only
          rw [moved]
        rw [ended]
        cases advances moved with
        | ends tasks finished does =>
          rw [tasks]
          obtain ⟨v, resumes, parts⟩ := does (c.without number).tasks
          exact .ended found moved resumes (parts.tail (.concluded number outcome))

/-! ### Beginning operations -/

theorem parts_awaitOn {number : Nat} (fresh : ∀ task ∈ c.tasks, task.number ≠ number)
    {name : String} {w : Waiting} {t : Ticket} (found : c.ticket? name = some t)
    (alone : w.tickets = [t]) (plain : w.boxes = []) :
    Parts ⟨c, []⟩ ⟨c.awaitOn number name w, []⟩ := by
  have still : ∀ task ∈ (c.takeOut name).tasks, task.number ≠ number := fresh
  have waits : Part ⟨c.takeOut name, w.tickets ++ []⟩ ⟨c.awaitOn number name w, []⟩ :=
    .waits still false plain
  rw [alone] at waits
  exact .head (.took found) (.single waits)

theorem parts_cancel {number : Nat} (fresh : ∀ task ∈ c.tasks, task.number ≠ number)
    {name : String} {t : CallTicket}
    (found : c.ticket? name = some (.call t)) (mode : CancelMode) :
    Parts ⟨c, []⟩ ⟨c.cancel number name t mode, []⟩ := by
  unfold cancel
  split
  · exact .single (.concluded number _)
  next more =>
    have still : ∀ task ∈ (c.takeOut name).tasks, task.number ≠ number := fresh
    obtain ⟨more, first⟩ : t.settled = false ∧ t.cancelSent = false := by simpa using more
    exact .head (.took found) (.single (.canceled still name more first mode))

theorem parts_depart {number : Nat} (fresh : ∀ task ∈ c.tasks, task.number ≠ number)
    {name : String} {t : FeedTicket}
    (found : c.ticket? name = some (.feed t)) : Parts ⟨c, []⟩ ⟨c.depart number name t, []⟩ := by
  unfold depart
  split
  · exact .single (.concluded number _)
  next first =>
    dsimp only
    split
    next live =>
      have still : ∀ task ∈ (c.takeOut name).tasks, task.number ≠ number := fresh
      have opened : t.closed = false := by simpa using first
      exact .head (.took found) (.single (.departed still name opened live))
    next late =>
      refine .head (.took found) (.head (.shut t late) ?_)
      exact (parts_keep _ name _ []).tail (.concluded number .done)

theorem parts_answer {number : Nat} (fresh : ∀ task ∈ c.tasks, task.number ≠ number)
    {name : String} {t : InvocationTicket}
    (found : c.ticket? name = some (.invocation t)) {m : Message} {final : Bool}
    (answers : t.receivesProgress = true ∨ final = true → t.Answers m final) :
    Parts ⟨c, []⟩ ⟨c.answer number name t m final, []⟩ := by
  unfold answer
  split
  · exact .single (.concluded number _)
  next first =>
    split
    · exact .single (.concluded number _)
    next wanted =>
      have still : ∀ task ∈ (c.takeOut name).tasks, task.number ≠ number := fresh
      have unanswered : t.handled = false := by simpa using first
      refine .head (.took found) (.single (.answered still name unanswered (answers ?_)))
      cases final <;> simp_all

theorem parts_stream {name : String} {t : CallTicket} (found : c.ticket? name = some (.call t)) :
    Parts ⟨c, []⟩ ⟨c.stream name t, []⟩ :=
  .head (.took found) (.head (.streamed t) (parts_keep _ name _ _))

/-! ### Actions -/

theorem ok_of_bind {ε α β : Type} {x : Except ε α} {f : α → Except ε β} {b : β}
    (made : x >>= f = .ok b) : ∃ a, x = .ok a ∧ f a = .ok b := by
  cases x with
  | error e => exact nomatch made
  | ok a => exact ⟨a, rfl, made⟩

theorem parts_unlessInvalid {result : Except InvalidUri Client}
    (parts : ∀ d, result = .ok d → Parts ⟨c, []⟩ ⟨d, []⟩) :
    Parts ⟨c, []⟩ ⟨(c.unlessInvalid result).1, []⟩ := by
  cases result with
  | ok d => exact parts d rfl
  | error e => exact .refl

theorem parts_beginEnrolment {number : Nat} (fresh : ∀ task ∈ c.tasks, task.number ≠ number)
    {kind : FeedKind} {keep uri : String}
    {options : Option EnrolOptions} (made : c.beginEnrolment number kind keep uri options = .ok d) :
    Parts ⟨c, []⟩ ⟨d, []⟩ := by
  cases options with
  | none =>
    obtain ⟨pattern, -, same⟩ := ok_of_bind made
    obtain rfl := Except.ok.inj same
    exact .single (.enrolled fresh kind _ _ keep)
  | some options =>
    obtain ⟨pattern, -, same⟩ := ok_of_bind made
    obtain rfl := Except.ok.inj same
    exact .single (.enrolled fresh kind _ _ keep)

theorem parts_onSession {number : Nat} (fresh : ∀ task ∈ c.tasks, task.number ≠ number)
    (a : SessionAction) :
    Parts ⟨c, []⟩ ⟨(c.onSession number a).1, []⟩ := by
  cases a with
  | call uri payload options keep =>
    refine parts_unlessInvalid fun d made => ?_
    obtain ⟨procedure, -, same⟩ := ok_of_bind made
    obtain rfl := Except.ok.inj same
    exact .single (.called fresh procedure payload options keep)
  | enrol kind uri options keep =>
    exact parts_unlessInvalid fun d made => parts_beginEnrolment fresh made
  | publish uri payload options =>
    refine parts_unlessInvalid fun d made => ?_
    obtain ⟨topic, -, same⟩ := ok_of_bind made
    obtain rfl := Except.ok.inj same
    exact .single (.published fresh topic payload options)
  | leave => exact .single (.left fresh)
  | awaitEnd =>
    have waits : Part ⟨c, Waiting.ending.tickets ++ []⟩ ⟨c.awaitEnd number, []⟩ :=
      .waits fresh true rfl
    exact .single waits
  | inspect => exact .refl
  | drop =>
    rw [onSession]
    split
    · exact .refl
    · exact .single .dropped

theorem parts_onTicket {number : Nat} (fresh : ∀ task ∈ c.tasks, task.number ≠ number)
    {name : String} {t : Ticket} (found : c.ticket? name = some t) (a : TicketAction) :
    Parts ⟨c, []⟩ ⟨(c.onTicket number name t a).1, []⟩ := by
  rw [onTicket.eq_def]
  split
  · exact .refl
  · exact parts_dropTicket c name
  · exact parts_awaitOn fresh found rfl rfl
  · exact parts_awaitOn fresh found rfl rfl
  · exact parts_awaitOn fresh found rfl rfl
  · exact parts_cancel fresh found _
  · exact parts_stream found
  · exact parts_depart fresh found
  · split
    · exact parts_awaitOn fresh found rfl rfl
    · exact .refl
  · split
    · exact parts_awaitOn fresh found rfl rfl
    · exact .refl
  · exact parts_answer fresh found fun _ => .result _
  · exact parts_answer fresh found fun wanted => .progress _ (by simpa using wanted)
  · refine parts_unlessInvalid fun d made => ?_
    obtain ⟨e, -, same⟩ := ok_of_bind made
    obtain rfl := Except.ok.inj same
    exact parts_answer fresh found fun _ => .error e
  · exact parts_awaitOn fresh found rfl rfl
  · exact .refl

/-- Every action is made of parts. -/
theorem parts_act {number : Nat} (fresh : ∀ task ∈ c.tasks, task.number ≠ number) (a : Action) :
    Parts ⟨c, []⟩ ⟨(c.act number a).1, []⟩ := by
  cases a with
  | onSession a =>
    rw [act]
    split
    · exact parts_onSession fresh a
    · exact .refl
  | onTicket name a =>
    rw [act]
    split
    next found => exact parts_onTicket fresh found a
    next => exact .refl
  | abandon other =>
    rw [act]
    split
    next abandoned => exact parts_desists (desists_of_abandon abandoned)
    next => exact .refl
  | desist other =>
    rw [act]
    split
    next desisted => exact parts_desists (desists_of_desist desisted)
    next => exact .refl

end Client

end WampClient
