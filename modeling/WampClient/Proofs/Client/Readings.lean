import Mathlib.Data.List.Induction
import WampClient.Proofs.Client.Contents

/-! What a program has read through its tickets. A ticket gives out what lies in its box one by one,
in order, and says that nothing is left once that is so; nobody else reads from the box. -/
namespace WampClient

/-- Whether something that lies in the box is the last that comes back for the call. -/
def CallTicket.ends (t : CallTicket) : Post → Bool
  | .outcome came => isLast (t.judge came)
  | _ => false

def CallTicket.Shows (t : CallTicket) (p : Post) (outcome : Outcome) : Prop :=
  ∃ came, p = .outcome came ∧ outcome = Client.ofResult (t.judge came)

def FeedTicket.Shows (t : FeedTicket) (p : Post) (outcome : Outcome) : Prop :=
  match p with
  | .invocation i cell =>
    ∃ canceled, outcome = .ticket (.invocation ⟨i, t.pattern, cell, false⟩) canceled
  | .event e => outcome = .event (t.event e)
  | _ => False

namespace Ticket

/-- How many things were taken out of the box. -/
def read : Ticket → Nat
  | .call t => t.read
  | .results t => t.read
  | .feed t => t.read
  | .invocation _ => 0

/-- The outcome is what comes of taking this out of the box. -/
def Shows : Ticket → Post → Outcome → Prop
  | .call t => t.Shows
  | .results t => t.Shows
  | .feed t => t.Shows
  | .invocation _ => fun _ _ => False

/-- Nothing more is to be taken out of the box. -/
def Drained (c : Client) : Ticket → Prop
  | .call t => t.settled = true
  | .results t => t.settled = true
  | .feed t => c.session.feeds t.box = false ∧ (c.session.postsTo t.box).length = t.read
  | .invocation _ => True

/-- A call is settled once its last result was among what was taken out. -/
def Settles (seen : List Post) : Ticket → Prop
  | .call t => t.settled = seen.any t.ends
  | .results t => t.settled = seen.any t.ends
  | _ => True

/-- What the box has to be like: there is nothing in it but what the ticket can show, and for a call
there is an end to it. -/
def Fits (c : Client) : Ticket → Prop
  | .call t => (∀ p ∈ c.session.postsTo t.box, ∃ came, p = .outcome came) ∧
    (c.session.feeds t.box = false → (c.session.postsTo t.box).any t.ends = true)
  | .results t => (∀ p ∈ c.session.postsTo t.box, ∃ came, p = .outcome came) ∧
    (c.session.feeds t.box = false → (c.session.postsTo t.box).any t.ends = true)
  | .feed t => ∀ p ∈ c.session.postsTo t.box,
    (∃ i cell, p = .invocation i cell) ∨ ∃ e, p = .event e
  | .invocation _ => True

/-- These outcomes were read through the ticket, whose box this is. -/
structure Logged (t : Ticket) (b : Box) (log : List Outcome) (c : Client) : Prop where
  within : t.read ≤ (c.session.postsTo b).length
  shown : ∃ seen k, log = seen ++ List.replicate k .exhausted ∧
    List.Forall₂ t.Shows ((c.session.postsTo b).take t.read) seen ∧ (k = 0 ∨ t.Drained c)
  settles : t.Settles ((c.session.postsTo b).take t.read)

end Ticket

namespace Client

/-! ### Reading -/

/-- What the operation of a number comes to if it is polled now, and what it waited for. -/
def polled (c : Client) (number : Nat) : Option (Waiting × Outcome) :=
  match c.tasks.find? fun t => t.number == number with
  | none => none
  | some task =>
    match c.advance task.waiting with
    | some (_, .inr outcome) => some (task.waiting, outcome)
    | _ => none

/-- What is read from the box in a move. -/
def yields (b : Box) (c : Client) : Move → List Outcome
  | .poll number => ((c.polled number).filter fun e => e.1.reads? == some b).toList.map Prod.snd
  | _ => []

/-- What is read from the box in a run. -/
def yielded (b : Box) : Client → List Move → List Outcome
  | _, [] => []
  | c, m :: ms => c.yields b m ++ yielded b (c.move m) ms

variable {c d : Client} {ms : List Move} {b : Box} {log : List Outcome} {t u : Ticket}
  {w w' : Work}

theorem yielded_append (b : Box) (c : Client) (before after : List Move) :
    c.yielded b (before ++ after) = c.yielded b before ++ (c.run before).yielded b after := by
  induction before generalizing c with
  | nil => rfl
  | cons m rest ih =>
    rw [List.cons_append, yielded, yielded, ih, List.append_assoc]
    rfl

/-- What an operation comes to when it is polled is what the client reports of it. -/
theorem finished_poll {number : Nat} {v : Waiting} {outcome : Outcome}
    (ends : c.polled number = some (v, outcome)) :
    (c.poll number).finished = c.finished ++ [(number, outcome)] := by
  cases found : c.tasks.find? fun t => t.number == number with
  | none => simp [polled, found] at ends
  | some task =>
    simp only [polled, found] at ends
    split at ends
    next e result moved =>
      obtain ⟨-, rfl⟩ := Prod.mk.inj (Option.some.inj ends)
      simp only [poll, found, moved]
      change e.finished ++ [(number, result)] = _
      rw [finished_advance moved]
    next => cases ends

theorem yields_of_other {m : Move} (other : ∀ number, m ≠ .poll number) : c.yields b m = [] := by
  cases m with
  | poll number => exact absurd rfl (other number)
  | _ => rfl

/-! ### Places in a box -/

/-- For an operation on a ticket nothing more may come than what its session still sends it. -/
theorem Aside.postAt (aside : c.Aside b) (place : Nat) :
    c.postAt b place = match (c.session.postsTo b)[place]? with
      | some p => some (some p)
      | none => if c.session.feeds b then none else some none := by
  have none' : (c.commands.any fun command => command.feeds b) = false :=
    List.any_eq_false.mpr fun command there => by simp [aside.asked command there]
  cases lies : (c.session.postsTo b)[place]? <;> simp [Client.postAt, feeds, none', lies]

theorem getElem?_of_longer {α : Type} {l l' : List α} (more : l <+: l') {k : Nat} {a : α}
    (lies : l[k]? = some a) : l'[k]? = some a := by
  obtain ⟨rest, rfl⟩ := more
  rw [List.getElem?_append_left (List.getElem?_eq_some_iff.mp lies).1, lies]

theorem lies_of_postAt {place : Nat} {p : Post} (next : c.postAt b place = some (some p)) :
    (c.session.postsTo b)[place]? = some p := by
  unfold postAt at next
  split at next
  next q found => rwa [← Option.some.inj (Option.some.inj next)]
  next => split at next <;> simp at next

theorem ended_of_postAt {place : Nat} (next : c.postAt b place = some none) :
    c.session.feeds b = false ∧ (c.session.postsTo b).length ≤ place := by
  unfold postAt at next
  split at next
  · simp at next
  next none' =>
    split at next
    · simp at next
    next unfed =>
      rw [feeds, Bool.or_eq_true, not_or] at unfed
      exact ⟨by simpa using unfed.1, List.getElem?_eq_none_iff.mp none'⟩

end Client

theorem CallTicket.Stands.fits {c : Client} {t : CallTicket} {answers : List Message}
    {items : List (Except Failure Message)} (stands : t.Stands answers items c) :
    (Ticket.call t).Fits c := by
  refine ⟨fun p there => ?_, fun unfed => ?_⟩
  · rw [stands.contents] at there
    obtain ⟨came, -, rfl⟩ := List.mem_map.mp there
    exact ⟨came, rfl⟩
  · rw [stands.contents, List.any_map]
    refine (stands.returns.any_last t).mpr ?_
    by_contra going
    obtain ⟨live, more⟩ := not_or.mp going
    have fed := stands.fed.mpr ⟨live, by simpa using more⟩
    exact nomatch unfed.symm.trans fed

theorem FeedKind.cases_of_item {kind : FeedKind} {id : Id} {m : Message} {item : Item}
    (made : kind.item? id m = some item) :
    (∃ i, item = .invocation i) ∨ ∃ e, item = .event e := by
  cases kind with
  | registration =>
    cases m with
    | invocation request own details payload =>
      obtain ⟨-, same⟩ := Option.ite_none_right_eq_some.mp made
      obtain rfl := Option.some.inj same
      exact Or.inl ⟨_, rfl⟩
    | _ => exact nomatch made
  | subscription =>
    cases m with
    | event own publication details payload =>
      obtain ⟨-, same⟩ := Option.ite_none_right_eq_some.mp made
      obtain rfl := Option.some.inj same
      exact Or.inr ⟨_, rfl⟩
    | _ => exact nomatch made

theorem FeedTicket.Stands.fits {c : Client} {t : FeedTicket} {messages : List Message} {cut : Bool}
    (stands : t.Stands (messages.filterMap fun m => t.kind.item? t.id m) cut c) :
    (Ticket.feed t).Fits c := by
  intro p there
  have among : p.item? ∈ (messages.filterMap fun m => t.kind.item? t.id m).map some :=
    stands.contents ▸ List.mem_map_of_mem there
  obtain ⟨item, given, same⟩ := List.mem_map.mp among
  obtain ⟨m, -, made⟩ := List.mem_filterMap.mp given
  rcases FeedKind.cases_of_item made with ⟨i, rfl⟩ | ⟨e, rfl⟩
  · cases p <;> simp_all [Post.item?]
  · cases p <;> simp_all [Post.item?]

namespace Ticket

open Client

variable {c d : Client} {b : Box} {log : List Outcome} {t u : Ticket} {outcome : Outcome}

theorem Drained.congr (drained : t.Drained c)
    (same : ∀ b, d.session.outlook b = c.session.outlook b) : t.Drained d := by
  cases t with
  | feed t =>
    obtain ⟨unfed, all⟩ := drained
    exact ⟨(congrArg Outlook.fed (same t.box)).trans unfed,
      (congrArg (List.length ∘ Outlook.posts) (same t.box)).trans all⟩
  | _ => exact drained

theorem Logged.congr (logged : t.Logged b log c)
    (same : ∀ b, d.session.outlook b = c.session.outlook b) : t.Logged b log d := by
  have posts : d.session.postsTo b = c.session.postsTo b := congrArg Outlook.posts (same b)
  obtain ⟨seen, k, log', shows, drained⟩ := logged.shown
  refine ⟨?_, ⟨seen, k, log', ?_, drained.imp_right fun drained => drained.congr same⟩, ?_⟩
  · rw [posts]
    exact logged.within
  · rw [posts]
    exact shows
  · rw [posts]
    exact logged.settles

/-- What was read stays as it was when more is put into the box. -/
theorem Logged.later (logged : t.Logged b log c) (own : t.owns b = true)
    (more : c.session.postsTo b <+: d.session.postsTo b)
    (frozen : c.session.feeds b = false →
      d.session.postsTo b = c.session.postsTo b ∧ d.session.feeds b = false) :
    t.Logged b log d := by
  have same : (d.session.postsTo b).take t.read = (c.session.postsTo b).take t.read := by
    obtain ⟨rest, all⟩ := more
    rw [← all, List.take_append_of_le_length logged.within]
  have drained : t.Drained c → t.Drained d := by
    cases t with
    | feed t =>
      obtain rfl : t.box = b := by simpa [owns, box?] using own
      rintro ⟨unfed, all⟩
      obtain ⟨posts, unfed'⟩ := frozen unfed
      exact ⟨unfed', posts ▸ all⟩
    | _ => exact id
  obtain ⟨seen, k, log', shows, done⟩ := logged.shown
  refine ⟨Nat.le_trans logged.within more.length_le,
    ⟨seen, k, log', ?_, done.imp_right drained⟩, ?_⟩
  · rw [same]
    exact shows
  · rw [same]
    exact logged.settles

theorem Descends.logged (descends : t.Descends u) (logged : t.Logged b log c) :
    u.Logged b log c := by
  cases descends with
  | call t stream stream' cancelSent =>
    cases stream <;> cases stream' <;> exact ⟨logged.within, logged.shown, logged.settles⟩
  | feed t stays => exact ⟨logged.within, logged.shown, logged.settles⟩
  | invocation t u => exact ⟨logged.within, logged.shown, logged.settles⟩

/-- A ticket that has just been made. -/
theorem logged_new (fresh : t.read = 0) (settles : t.Settles []) : t.Logged b [] c where
  within := by rw [fresh]; exact Nat.zero_le _
  shown := ⟨[], 0, rfl, by rw [fresh]; exact .nil, Or.inl rfl⟩
  settles := by rwa [fresh]

/-- What lies next in the box is taken out. -/
theorem Logged.next (logged : t.Logged b log c) {p : Post}
    (lies : (c.session.postsTo b)[t.read]? = some p) (more : ¬ t.Drained c)
    (shows : t.Shows p outcome) (read : u.read = t.read + 1) (alike : u.Shows = t.Shows)
    (settles : u.Settles ((c.session.postsTo b).take t.read ++ [p])) :
    u.Logged b (log ++ [outcome]) c := by
  obtain ⟨seen, k, rfl, shown, drained⟩ := logged.shown
  obtain rfl := drained.resolve_right more
  obtain ⟨low, place⟩ := List.getElem?_eq_some_iff.mp lies
  have taken : (c.session.postsTo b).take u.read = (c.session.postsTo b).take t.read ++ [p] := by
    rw [read, List.take_add_one, lies]
    rfl
  refine ⟨read ▸ low, ⟨seen ++ [outcome], 0, by simp, ?_, Or.inl rfl⟩, ?_⟩
  · rw [taken, alike]
    exact List.rel_append shown (.cons shows .nil)
  · rw [taken]
    exact settles

theorem Logged.exhausted (logged : t.Logged b log c) (drained : t.Drained c) :
    t.Logged b (log ++ [.exhausted]) c := by
  obtain ⟨seen, k, rfl, shown, -⟩ := logged.shown
  refine ⟨logged.within, ⟨seen, k + 1, ?_, shown, Or.inr drained⟩, logged.settles⟩
  rw [List.append_assoc, List.replicate_succ']

end Ticket

namespace Client

variable {c d : Client} {ms : List Move} {b : Box} {log : List Outcome} {w w' : Work}

/-! ### Operations that go on -/

theorem logged_kept {t : CallTicket} (stream : Bool) :
    (t.kept stream).Logged b log c ↔ (Ticket.call t).Logged b log c := by
  cases stream
  · exact Iff.rfl
  · exact ⟨fun logged => ⟨logged.within, logged.shown, logged.settles⟩,
      fun logged => ⟨logged.within, logged.shown, logged.settles⟩⟩

/-- What came back next for a call that was not settled is what lies next in its box. -/
theorem lies_of_cameBack {t : CallTicket} {came : Except Failure Message}
    (logged : (Ticket.call t).Logged t.box log c) (fits : (Ticket.call t).Fits c)
    (more : t.settled = false) (next : c.cameBack t = some came) :
    (c.session.postsTo t.box)[t.read]? = some (.outcome came) := by
  obtain ⟨plain, ends⟩ := fits
  obtain ⟨q, place, judged⟩ := Option.map_eq_some_iff.mp next
  cases q with
  | none =>
    -- the call would be settled
    obtain ⟨unfed, all⟩ := ended_of_postAt place
    have settled : t.settled = ((c.session.postsTo t.box).take t.read).any t.ends := logged.settles
    rw [List.take_of_length_le all, ends unfed, more] at settled
    exact nomatch settled
  | some p =>
    have lies := lies_of_postAt place
    obtain ⟨came', rfl⟩ := plain p (List.mem_of_getElem? lies)
    rw [lies, show came' = came from judged]

theorem undrained_of_lies {t : FeedTicket} {p : Post}
    (lies : (c.session.postsTo t.box)[t.read]? = some p) : ¬ (Ticket.feed t).Drained c :=
  fun drained => absurd (List.getElem?_eq_some_iff.mp lies).1
    (Nat.not_lt_of_le (Nat.le_of_eq drained.2))

theorem Yields.logged {v : Waiting} {us : List Ticket} {outcome : Outcome}
    (yields : c.Yields v us outcome) (unread : b ∈ v.boxes → log = [])
    (held : ∀ t ∈ v.tickets, t.owns b = true → t.Logged b log c ∧ t.Fits c) {u : Ticket}
    (there : u ∈ us) (own : u.owns b = true) :
    u.Logged b (log ++ if v.reads? = some b then [outcome] else []) c := by
  cases yields with
  | same plain idle outcome =>
    rw [plain, if_neg (by simp), List.append_nil]
    exact (held u there own).1
  | @accepted request procedure accepted box keep route was outcome =>
    -- the ticket is new, and nothing was read from its box before
    obtain rfl := List.mem_singleton.mp there
    obtain rfl : box = b := by simpa [CallTicket.opened] using own
    rw [unread (by simp [Waiting.boxes])]
    exact Ticket.logged_new rfl rfl
  | @enrolled kind name pattern accepted reply box came route id replied confirms outcome =>
    obtain rfl := List.mem_singleton.mp there
    obtain rfl : box = b := by simpa [FeedTicket.opened] using own
    rw [unread (by simp [Waiting.boxes])]
    exact Ticket.logged_new rfl trivial
  | @settled name t stream last =>
    obtain rfl := List.mem_singleton.mp there
    obtain rfl : t.box = b := by simpa using own
    have here : (Waiting.nextOutcome name t stream).reads? = some t.box := rfl
    rw [if_pos here, logged_kept]
    have logged := (held _ List.mem_cons_self own).1
    exact ((logged_kept stream).mp logged).exhausted last
  | @result name t came stream more next =>
    obtain rfl := List.mem_singleton.mp there
    obtain rfl : t.box = b := by simpa [CallTicket.take] using own
    obtain ⟨logged, fits⟩ := held (t.kept stream) List.mem_cons_self
      (by rw [CallTicket.owns_kept, beq_self_eq_true])
    have logged := (logged_kept stream).mp logged
    have fits : (Ticket.call t).Fits c := by
      cases stream <;> exact fits
    have here : (Waiting.nextOutcome name t stream).reads? = some t.box := rfl
    -- the call was not settled by what had been read, so this came out of the box
    have lies := lies_of_cameBack logged fits more next
    have before : ((c.session.postsTo t.box).take t.read).any t.ends = false :=
      logged.settles.symm.trans more
    rw [if_pos here, logged_kept]
    refine logged.next lies (fun drained => ?_) ⟨came, rfl, rfl⟩ rfl rfl ?_
    · exact absurd (more.symm.trans drained) (by simp)
    · have both : (((c.session.postsTo t.box).take t.read ++ [Post.outcome came]).any t.ends) =
          CallTicket.isLast (t.judge came) := by
        rw [List.any_append, before]
        simp [CallTicket.ends]
      exact both.symm
  | @event name t keep e next =>
    obtain rfl := List.mem_singleton.mp there
    obtain rfl : t.box = b := by simpa using own
    have lies := lies_of_postAt next
    have here : (Waiting.nextItem name t keep).reads? = some t.box := rfl
    rw [if_pos here]
    exact (held (.feed t) List.mem_cons_self own).1.next lies (undrained_of_lies lies) rfl rfl rfl
      trivial
  | @invocation name t keep i cell next canceled =>
    rcases List.mem_pair.mp there with rfl | rfl
    · obtain rfl : t.box = b := by simpa using own
      have lies := lies_of_postAt next
      have here : (Waiting.nextItem name t keep).reads? = some t.box := rfl
      rw [if_pos here]
      exact (held (.feed t) List.mem_cons_self own).1.next lies (undrained_of_lies lies)
        ⟨canceled, rfl⟩ rfl rfl trivial
    · cases own
  | @drained name t keep p next other other' =>
    obtain rfl := List.mem_singleton.mp there
    obtain rfl : t.box = b := by simpa using own
    obtain ⟨logged, fits⟩ := held (.feed t) List.mem_cons_self own
    have here : (Waiting.nextItem name t keep).reads? = some t.box := rfl
    rw [if_pos here]
    refine logged.exhausted ?_
    -- nothing but items comes into the box of a feed, so what was read is its end
    cases p with
    | none =>
      obtain ⟨unfed, all⟩ := ended_of_postAt next
      exact ⟨unfed, Nat.le_antisymm all logged.within⟩
    | some p =>
      rcases fits p (List.mem_of_getElem? (lies_of_postAt next)) with ⟨i, cell, rfl⟩ | ⟨e, rfl⟩
      · exact absurd rfl (other i cell)
      · exact absurd rfl (other' e)

/-! ### Whole clients -/

/-- Everything that was read from the box is shown by the ticket that has the box. -/
structure Work.Reads (b : Box) (log : List Outcome) (w : Work) : Prop where
  unread : w.client.nextBox ≤ b ∨ (∃ task ∈ w.client.tasks, b ∈ task.waiting.boxes) → log = []
  tickets : ∀ t ∈ w.tickets, t.owns b = true → t.Logged b log w.client

theorem Work.Reads.part (reads : w.Reads b log) (part : Part w w') : w'.Reads b log where
  unread early := by
    rcases early with unborn | ⟨task, there, own⟩
    · exact reads.unread (Or.inl (Nat.le_trans part.grows.boxes unborn))
    · rcases part.begun task there with old | ⟨-, fresh⟩
      · exact reads.unread (Or.inr ⟨task, old, own⟩)
      · exact reads.unread (Or.inl (fresh b own))
  tickets u there own := by
    obtain ⟨t, among, descends⟩ := part.descends u there
    have logged := descends.logged (reads.tickets t among (descends.owns ▸ own))
    exact logged.congr fun b => (outlook_grows part.grows b).1

theorem Work.Reads.parts (reads : w.Reads b log) (parts : Parts w w') : w'.Reads b log := by
  induction parts with
  | refl => exact reads
  | tail _ part ih => exact ih.part part

theorem Waiting.owns_of_reads {v : Waiting} (reads : v.reads? = some b) :
    ∃ t ∈ v.tickets, t.owns b = true := by
  cases v with
  | nextOutcome name t stream =>
    refine ⟨_, List.mem_cons_self, ?_⟩
    simpa [Waiting.reads?] using reads
  | nextItem name t keep =>
    refine ⟨_, List.mem_cons_self, ?_⟩
    simpa [Waiting.reads?] using reads
  | _ => simp [Waiting.reads?] at reads

/-- Nobody else has the box that an operation reads from. -/
theorem Work.Owned.apart {task : Task} (owned : Work.Owned b ⟨c, []⟩) (there : task ∈ c.tasks)
    (reads : task.waiting.reads? = some b) :
    (∀ u ∈ (c.without task.number).heldTickets, u.owns b = false) ∧ b < c.nextBox ∧
      ∀ other ∈ c.tasks, b ∉ other.waiting.boxes := by
  obtain ⟨t, mine, own⟩ := Waiting.owns_of_reads reads
  have held : t ∈ Work.tickets ⟨c, []⟩ := mem_tickets_of_waiting there mine
  obtain ⟨given, -, boxes⟩ := owned.held held own
  refine ⟨fun u among => ?_, given, boxes⟩
  by_contra yours
  have share : 0 < task.waiting.share b :=
    Nat.add_pos_left (List.countP_pos_iff.mpr ⟨t, mine, own⟩) _
  have others : 0 < (c.without task.number).heldTickets.countP (Ticket.owns b) :=
    List.countP_pos_iff.mpr ⟨u, among, by simpa using yours⟩
  have all := countP_tickets_le ⟨c.without task.number, []⟩ b
  have owners := owners_without there b
  have single := owned.single
  have same : (c.without task.number).session = c.session := rfl
  simp only [Work.tickets, Work.tally, List.nil_append, List.countP_nil, same] at all single
  omega

theorem Work.Reads.resumes {task : Task} {outcome : Outcome} (reads : Work.Reads b log ⟨c, []⟩)
    (owned : Work.Owned b ⟨c, []⟩) (there : task ∈ c.tasks)
    (resumes : c.Resumes (c.without task.number).tasks task.waiting outcome w)
    (fits : ∀ t ∈ c.heldTickets, t.owns b = true → t.Fits c) :
    w.Reads b (log ++ if task.waiting.reads? = some b then [outcome] else []) := by
  have held : ∀ t ∈ task.waiting.tickets, t ∈ c.heldTickets := fun t own =>
    mem_heldTickets.mpr (Or.inr ⟨task, there, own⟩)
  have logged : ∀ t ∈ c.heldTickets, t.owns b = true → t.Logged b log c := fun t own =>
    reads.tickets t (mem_tickets.mpr (Or.inr own))
  have others : ∀ u ∈ (c.without task.number).heldTickets, u.owns b = true →
      u.Logged b (log ++ if task.waiting.reads? = some b then [outcome] else []) c := by
    intro u among own
    by_cases mine : task.waiting.reads? = some b
    · rw [(owned.apart there mine).1 u among] at own
      exact nomatch own
    · rw [if_neg mine, List.append_nil]
      exact logged u (mem_heldTickets_without among) own
  have yielded : ∀ {us : List Ticket}, c.Yields task.waiting us outcome → ∀ u ∈ us,
      u.owns b = true →
        u.Logged b (log ++ if task.waiting.reads? = some b then [outcome] else []) c :=
    fun yields u out own => yields.logged
      (fun box => reads.unread (Or.inr ⟨task, there, box⟩))
      (fun t mine own => ⟨logged t (held t mine) own, fits t (held t mine) own⟩) out own
  refine ⟨fun early => ?_, fun u out own => ?_⟩
  · rw [resumes.numbers] at early
    by_cases mine : task.waiting.reads? = some b
    · obtain ⟨-, given, boxes⟩ := owned.apart there mine
      rcases early with unborn | ⟨other, among, box⟩
      · exact absurd given (Nat.not_lt_of_le (Nat.le_trans resumes.grows.boxes unborn))
      · exact absurd box (boxes other (List.mem_of_mem_filter among))
    · rw [if_neg mine, List.append_nil]
      refine reads.unread (early.imp (Nat.le_trans resumes.grows.boxes) ?_)
      exact fun ⟨other, among, box⟩ => ⟨other, List.mem_of_mem_filter among, box⟩
  · refine Ticket.Logged.congr ?_ fun b => (outlook_grows resumes.grows b).1
    cases resumes with
    | resumed yields =>
      rcases mem_tickets.mp out with handed | rest
      · exact yielded yields u handed own
      · exact others u rest own
    | refused bare own' =>
      exact others u ((mem_tickets.mp out).resolve_left List.not_mem_nil) own
    | settled waits =>
      have rest := (mem_tickets.mp out).resolve_left List.not_mem_nil
      rw [heldTickets, tickets_release, tasks_release] at rest
      exact others u rest own
    | ceased waits =>
      rcases mem_tickets.mp out with handed | rest
      · have plain : task.waiting.reads? = none := by rw [waits]; rfl
        have mine : u ∈ task.waiting.tickets := by rw [waits]; exact handed
        rw [plain, if_neg (by simp), List.append_nil]
        exact logged u (held u mine) own
      · exact others u rest own

theorem Work.Reads.turned {task : Task} {number : Nat} {request : Id} {procedure : Uri}
    {accepted box : Box} {route : Handle} (reads : Work.Reads b log ⟨c, []⟩)
    (found : c.tasks.find? (fun t => t.number == number) = some task)
    (waits : task.waiting = .call request procedure accepted box none) :
    Work.Reads b log ⟨{ c with tasks := c.tasks.map fun t =>
      if t.number = number then
        { t with waiting := .lastOutcome (CallTicket.opened request procedure route box) }
      else t }, []⟩ := by
  have there := List.mem_of_find?_eq_some found
  refine ⟨fun early => reads.unread (early.imp_right ?_), fun u out own => ?_⟩
  · rintro ⟨other, among, mine⟩
    rcases mem_turned among with old | waits'
    · exact ⟨other, old, mine⟩
    · simp [waits', Waiting.boxes] at mine
  · have logged : u.Logged b log c := by
      rcases mem_heldTickets_turned ((mem_tickets.mp out).resolve_left List.not_mem_nil) with
        old | rfl
      · exact reads.tickets u (mem_tickets.mpr (Or.inr old)) own
      · obtain rfl : box = b := by simpa [CallTicket.opened] using own
        rw [reads.unread (Or.inr ⟨task, there, by simp [waits, Waiting.boxes]⟩)]
        exact Ticket.logged_new rfl rfl
    exact logged.congr fun _ => rfl

theorem Work.Reads.polls {number : Nat} (reads : Work.Reads b log ⟨c, []⟩) (orderly : c.Orderly)
    (polls : c.Polls number d) (fits : ∀ t ∈ c.heldTickets, t.owns b = true → t.Fits c) :
    Work.Reads b (log ++ c.yields b (.poll number)) ⟨d, []⟩ := by
  cases polls with
  | still none' =>
    have nothing : c.yields b (.poll number) = [] := by
      cases found : c.tasks.find? (fun t => t.number == number) with
      | none => simp [yields, polled, found]
      | some task => simp [yields, polled, found, none' task found]
    rw [nothing, List.append_nil]
    exact reads
  | turned found moved waits was =>
    obtain ⟨v, moved⟩ := moved
    have nothing : c.yields b (.poll number) = [] := by simp [yields, polled, found, moved]
    rw [nothing, List.append_nil]
    exact reads.turned found waits
  | @ended task d e outcome v found moved resumes parts =>
    have there := List.mem_of_find?_eq_some found
    have mine : task.number = number := by simpa using List.find?_some found
    subst mine
    have read : c.yields b (.poll task.number) =
        if task.waiting.reads? = some b then [outcome] else [] := by
      by_cases mine : task.waiting.reads? = some b <;>
        simp [yields, polled, found, moved, mine]
    rw [read]
    exact (reads.resumes (orderly.owned b) there resumes fits).parts parts

theorem tickets_of_takes {m : Move} {input : Input} (takes : c.input? m = some input) :
    (c.move m).tickets = c.tickets ∧ (c.move m).tasks = c.tasks ∧
      (c.move m).nextBox = c.nextBox := by
  cases m with
  | serve =>
    rw [move, serve]
    split <;> exact ⟨rfl, rfl, rfl⟩
  | poll number => simp [input?] at takes
  | act number a => simp [input?] at takes
  | _ => exact ⟨rfl, rfl, rfl⟩

theorem heldTickets_of_takes {m : Move} {input : Input} (takes : c.input? m = some input) :
    (c.move m).heldTickets = c.heldTickets := by
  obtain ⟨tickets, tasks, -⟩ := tickets_of_takes takes
  rw [heldTickets, heldTickets, tickets, tasks]

/-- The session puts more into boxes, and nothing is read meanwhile. -/
theorem Work.Reads.hears (reads : Work.Reads b log ⟨c, []⟩) {m : Move} {input : Input}
    (takes : c.input? m = some input) (sound : c.session.Sound)
    (owned : ∀ t ∈ c.heldTickets, t.owns b = true → c.Aside b ∧ b ∉ (c.move m).session.gone) :
    Work.Reads b log ⟨c.move m, []⟩ := by
  obtain ⟨tickets, tasks, boxes⟩ := tickets_of_takes takes
  refine ⟨fun early => reads.unread ?_, fun t out own => ?_⟩
  · rw [tasks, boxes] at early
    exact early
  · have held := (mem_tickets.mp out).resolve_left List.not_mem_nil
    rw [heldTickets, tickets, tasks] at held
    obtain ⟨aside, heard⟩ := owned t held own
    refine (reads.tickets t (mem_tickets.mpr (Or.inr held)) own).later own ?_ fun unfed =>
      frozen_move aside sound unfed heard
    have more := Session.posts_prefix_step sound input
    rw [← session_move takes] at more
    exact more.filterMap _

/-! ### Runs -/

theorem Fresh.arises (fresh : Fresh c) {t : Ticket} (held : t ∈ (c.run ms).heldTickets) :
    t.Arises (c.served ms ++ (c.run ms).commands) (c.run ms).session.posts :=
  (fresh.settled.run ms).sourced.tickets t (mem_tickets.mpr (Or.inr held))

theorem Fresh.heard (fresh : Fresh c) {t : Ticket} (held : t ∈ (c.run ms).heldTickets)
    (own : t.owns b = true) : b ∉ (c.run ms).session.gone :=
  (((fresh.settled.run ms).orderly.owned b).held (mem_tickets.mpr (Or.inr held)) own).2.1

theorem Fresh.fits (fresh : Fresh c) {t : Ticket} (held : t ∈ (c.run ms).heldTickets)
    (own : t.owns b = true) : t.Fits (c.run ms) ∧ (c.run ms).Aside b := by
  have call : ∀ t : CallTicket,
      t.Arises (c.served ms ++ (c.run ms).commands) (c.run ms).session.posts →
        t.box = b → (Ticket.call t).Fits (c.run ms) ∧ (c.run ms).Aside b := by
    rintro t arises rfl
    have heard : t.box ∉ (c.run ms).session.gone := fresh.heard held own
    obtain ⟨before, after, message, accepted, rest, -, -, -, stands⟩ :=
      fresh.call_stands arises heard
    obtain ⟨items, stands⟩ := stands [] heard
    exact ⟨stands.fits, stands.aside⟩
  have arises := fresh.arises held
  cases t with
  | call t => exact call t arises (by simpa using own)
  | results t => exact call t arises (by simpa using own)
  | feed t =>
    obtain rfl : t.box = b := by simpa using own
    obtain ⟨before, after, reply, -, -, stands⟩ := fresh.feed_stands arises (fresh.heard held own)
    exact ⟨stands.fits, stands.aside⟩
  | invocation t => exact nomatch own

/-- What a client reads from the box of a ticket is what the ticket shows. -/
theorem Fresh.reads (fresh : Fresh c) (b : Box) (ms : List Move) :
    Work.Reads b (c.yielded b ms) ⟨c.run ms, []⟩ := by
  induction ms using List.reverseRecOn with
  | nil =>
    refine ⟨fun _ => rfl, fun t out => ?_⟩
    have held := (mem_tickets.mp out).resolve_left List.not_mem_nil
    rw [show (c.run []).heldTickets = [] from fresh.empty] at held
    exact absurd held List.not_mem_nil
  | append_singleton before m ih =>
    have settled := fresh.settled.run before
    have orderly := settled.orderly
    have sound := settled.books.sound
    have fits : ∀ t ∈ (c.run before).heldTickets, t.owns b = true → t.Fits (c.run before) :=
      fun t held own => (fresh.fits held own).1
    have stays : c.yielded b (before ++ [m]) = c.yielded b before ++ (c.run before).yields b m := by
      rw [yielded_append, yielded, yielded, List.append_nil]
    rw [stays, run_append]
    cases takes : (c.run before).input? m with
    | some input =>
      rw [yields_of_other (by rintro number rfl; simp [input?] at takes), List.append_nil]
      refine ih.hears takes sound fun t held own => ⟨(fresh.fits held own).2, ?_⟩
      have orderly' := orderly.moves sound (Client.moves (c.run before) m)
      have held' : t ∈ ((c.run before).move m).heldTickets := by
        rwa [heldTickets_of_takes takes]
      exact ((orderly'.owned b).held (mem_tickets.mpr (Or.inr held')) own).2.1
    | none =>
      by_cases polls : ∃ number, m = .poll number
      · obtain ⟨number, rfl⟩ := polls
        exact ih.polls orderly (Client.polls (c.run before) number) fits
      · rw [yields_of_other (fun number same => polls ⟨number, same⟩), List.append_nil]
        exact ih.parts ((parts_move takes).resolve_left polls)

end Client

end WampClient
