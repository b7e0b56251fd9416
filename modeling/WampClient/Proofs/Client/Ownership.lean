import Mathlib.Algebra.Order.BigOperators.Group.List
import Mathlib.Algebra.Order.Ring.Nat
import WampClient.Proofs.Client.Requests

/-! Who holds on to which box. A box is held by one ticket or by one operation that waits, or it has
been let go of, or neither; it is never shared, and nobody gets it back. So a ticket that is still
held is the only one of its box, and its box is not gone. -/
namespace WampClient

namespace Assoc

variable {κ α : Type} [DecidableEq κ]

theorem countP_erase_le {key : κ} {a : α} {entries : List (κ × α)}
    (found : get? key entries = some a) (p : α → Bool) :
    (erase key entries).countP (fun e => p e.2) + (p a).toNat ≤
      entries.countP fun e => p e.2 := by
  induction entries with
  | nil => simp [get?] at found
  | cons e rest ih =>
    obtain ⟨k, v⟩ := e
    by_cases same : k = key
    · obtain rfl : v = a := by simpa [get?, same] using found
      have less : (erase key rest).countP (fun e => p e.2) ≤ rest.countP fun e => p e.2 :=
        List.filter_sublist.countP_le
      have head : erase key ((k, v) :: rest) = erase key rest := by simp [erase, same]
      rw [head, List.countP_cons]
      cases p v <;> simp <;> omega
    · have rec' := ih (by simpa [get?, same] using found)
      have head : erase key ((k, v) :: rest) = (k, v) :: erase key rest := by simp [erase, same]
      rw [head, List.countP_cons, List.countP_cons]
      omega

theorem countP_alter (key : κ) (a : α) (entries : List (κ × α)) (p : α → Bool) :
    (alter key (fun _ => some a) entries).countP (fun e => p e.2) +
        (get? key entries).toList.countP p =
      (p a).toNat + entries.countP fun e => p e.2 := by
  induction entries with
  | nil => cases h : p a <;> simp [alter, get?, h]
  | cons e rest ih =>
    obtain ⟨k, v⟩ := e
    by_cases same : k = key
    · cases h : p a <;> cases h' : p v <;> simp [alter, get?, same, h, h'] <;> omega
    · have rec' := ih
      cases h : p v <;> simp [alter, get?, same, h] <;> omega

end Assoc

/-- The box out of which a ticket takes things. -/
def Ticket.box? : Ticket → Option Box
  | .call t => some t.box
  | .results t => some t.box
  | .feed t => some t.box
  | .invocation _ => none

def Ticket.owns (b : Box) (t : Ticket) : Bool := t.box? == some b

@[simp] theorem Ticket.owns_call (t : CallTicket) (b : Box) :
    (Ticket.call t).owns b = (t.box == b) := rfl

@[simp] theorem Ticket.owns_results (t : CallTicket) (b : Box) :
    (Ticket.results t).owns b = (t.box == b) := rfl

@[simp] theorem Ticket.owns_feed (t : FeedTicket) (b : Box) :
    (Ticket.feed t).owns b = (t.box == b) := rfl

@[simp] theorem Ticket.owns_invocation (t : InvocationTicket) (b : Box) :
    (Ticket.invocation t).owns b = false := rfl

@[simp] theorem CallTicket.owns_kept (t : CallTicket) (stream : Bool) (b : Box) :
    (t.kept stream).owns b = (t.box == b) := by
  cases stream <;> rfl

/-- How often an operation that waits holds on to the box. -/
def Waiting.share (b : Box) (w : Waiting) : Nat :=
  w.tickets.countP (Ticket.owns b) + w.boxes.count b

namespace Client

/-- The tickets that the program or its operations hold. -/
def heldTickets (c : Client) : List Ticket :=
  c.tickets.map Prod.snd ++ c.tasks.flatMap fun task => task.waiting.tickets

def owners (c : Client) (b : Box) : Nat :=
  c.tickets.countP (fun e => e.2.owns b) + (c.tasks.map fun task => task.waiting.share b).sum

/-- How often the box is held on to, and whether it was let go of. -/
def Work.tally (w : Work) (b : Box) : Nat :=
  w.hand.countP (Ticket.owns b) + w.client.owners b + (w.client.session.gone.contains b).toNat

/-- The box is not held on to more often than before, unless it is a new one. -/
def Work.Tallies (b : Box) (w w' : Work) : Prop :=
  w'.tally b ≤ w.tally b ∨
    (w.client.nextBox ≤ b ∧ b < w'.client.nextBox) ∧ w'.tally b ≤ w.tally b + 1

variable {c d : Client} {ts us : List Ticket} {b : Box} {w w' : Work}

/-! ### Parts of a move -/

theorem owners_congr (tickets : d.tickets = c.tickets) (tasks : d.tasks = c.tasks) (b : Box) :
    d.owners b = c.owners b := by
  rw [owners, owners, tickets, tasks]

theorem tallies_quiet (session : d.session = c.session) (tickets : d.tickets = c.tickets)
    (tasks : d.tasks = c.tasks) (hand : us.countP (Ticket.owns b) ≤ ts.countP (Ticket.owns b)) :
    Work.Tallies b ⟨c, ts⟩ ⟨d, us⟩ := by
  refine Or.inl ?_
  have same := owners_congr tickets tasks b
  simp only [Work.tally, session, same]
  omega

/-- An operation begins to wait, with tickets from the hands and new boxes. -/
theorem tallies_await (more : Nat) {number : Nat} {onSession : Bool} {v : Waiting}
    (session : d.session = c.session) (tickets : d.tickets = c.tickets)
    (tasks : d.tasks = c.tasks ++ [⟨number, onSession, v⟩])
    (hand : v.tickets.countP (Ticket.owns b) + us.countP (Ticket.owns b) ≤
      ts.countP (Ticket.owns b))
    (boxes : v.boxes = List.range' c.nextBox more) (next : d.nextBox = c.nextBox + more) :
    Work.Tallies b ⟨c, ts⟩ ⟨d, us⟩ := by
  have owners : d.owners b = c.owners b + v.share b := by
    rw [Client.owners, Client.owners, tickets, tasks]
    simp [Nat.add_assoc]
  have single : v.boxes.count b ≤ 1 :=
    List.nodup_iff_count_le_one.mp (boxes ▸ List.nodup_range') b
  by_cases fresh : b ∈ v.boxes
  · refine Or.inr ⟨?_, ?_⟩
    · rw [boxes] at fresh
      exact next ▸ List.mem_range'_1.mp fresh
    · simp only [Work.tally, session, owners, Waiting.share]
      omega
  · refine Or.inl ?_
    have none' : v.boxes.count b = 0 := List.count_eq_zero.mpr fresh
    simp only [Work.tally, session, owners, Waiting.share]
    omega

theorem tallies_whenEstablished (number : Nat) (operation : Operation) (target : String)
    {go : Client → Client} (goes : Work.Tallies b ⟨c, ts⟩ ⟨go c, ts⟩) :
    Work.Tallies b ⟨c, ts⟩ ⟨c.whenEstablished number operation target go, ts⟩ :=
  whenEstablished_keeps (P := fun d => Work.Tallies b ⟨c, ts⟩ ⟨d, ts⟩) goes 
    (tallies_quiet rfl rfl rfl (Nat.le_refl _))

theorem tallies_sendFor (number : Nat) (onSession : Bool) (m : Message) (operation : Operation)
    (target : String) (back : Option (String × Ticket)) (outcome : Outcome)
    (hand : (back.map Prod.snd).toList.countP (Ticket.owns b) + us.countP (Ticket.owns b) ≤
      ts.countP (Ticket.owns b)) :
    Work.Tallies b ⟨c, ts⟩
      ⟨c.sendFor number onSession m operation target back outcome, us⟩ :=
  tallies_await 1 rfl rfl rfl hand rfl rfl

theorem gone_release (c : Client) (t : Ticket) :
    (c.release t).session.gone = t.box?.toList ++ c.session.gone := by
  have call : ∀ t : CallTicket, (c.release (.call t)).session.gone = t.box :: c.session.gone := by
    intro t
    rw [release_call]
    cases t.settled <;> rfl
  cases t with
  | call t => exact call t
  | results t => exact call t
  | feed t =>
    rw [release_feed]
    split <;> rfl
  | invocation t =>
    rw [release_invocation]
    split <;> rfl

theorem tickets_release (c : Client) (t : Ticket) : (c.release t).tickets = c.tickets := by
  have call : ∀ t : CallTicket, (c.release (.call t)).tickets = c.tickets := by
    intro t
    rw [release_call]
    cases t.settled <;> rfl
  cases t with
  | call t => exact call t
  | results t => exact call t
  | feed t =>
    rw [release_feed]
    split <;> rfl
  | invocation t =>
    rw [release_invocation]
    split <;> rfl

theorem tickets_keep (c : Client) (name : String) (t : Ticket) :
    (c.keep name t).tickets = Assoc.alter name (fun _ => some t) c.tickets := by
  rw [keep_eq]
  cases c.ticket? name with
  | none => rfl
  | some old => exact tickets_release _ old

/-- What is kept under a name is found there. -/
theorem ticket?_keep (c : Client) (name : String) (t : Ticket) :
    (c.keep name t).ticket? name = some t := by
  rw [ticket?, tickets_keep]
  exact Assoc.get?_alter_self name _ _

theorem contains_cons_le (box : Box) (gone : List Box) :
    ((box :: gone).contains b).toNat ≤ (box == b).toNat + (gone.contains b).toNat := by
  rw [List.contains_cons, BEq.comm]
  cases box == b <;> cases gone.contains b <;> simp

theorem ite_beq (box b : Box) : (if (box == b) = true then 1 else 0) = (box == b).toNat := by
  cases box == b <;> rfl

theorem tally_release_le (c : Client) (t : Ticket) (ts : List Ticket) (b : Box) :
    Work.tally ⟨c.release t, ts⟩ b ≤ Work.tally ⟨c, t :: ts⟩ b := by
  have owners := owners_congr (tickets_release c t) (tasks_release c t) b
  simp only [Work.tally, gone_release, owners, List.countP_cons]
  cases own : t.box? with
  | none => simp [Ticket.owns, own]
  | some box =>
    have least := contains_cons_le (b := b) box c.session.gone
    have same : t.owns b = (box == b) := by
      rw [Ticket.owns, own]
      rfl
    rw [Option.toList_some, List.singleton_append, same, ite_beq]
    omega

theorem forgetAll_eq (c : Client) (boxes : List Box) :
    boxes.foldl forget c =
      { c with session := { c.session with gone := boxes.reverse ++ c.session.gone } } := by
  induction boxes generalizing c with
  | nil => rfl
  | cons box rest ih =>
    rw [List.foldl_cons, ih]
    simp [forget, Session.step]

theorem contains_append_le (boxes gone : List Box) :
    ((boxes.reverse ++ gone).contains b).toNat ≤ boxes.count b + (gone.contains b).toNat := by
  by_cases there : b ∈ boxes
  · have counted : 0 < boxes.count b := List.count_pos_iff.mpr there
    have most := Bool.toNat_le ((boxes.reverse ++ gone).contains b)
    omega
  · have same : (boxes.reverse ++ gone).contains b = gone.contains b := by
      rw [Bool.eq_iff_iff]
      simp [there]
    rw [same]
    exact Nat.le_add_left _ _

/-- What the operations hold without those of a given number, and what one of these does. -/
theorem sum_filter_add_le {tasks : List Task} {task : Task} (there : task ∈ tasks)
    (f : Task → Nat) :
    ((tasks.filter fun t => t.number ≠ task.number).map f).sum + f task ≤ (tasks.map f).sum := by
  induction tasks with
  | nil => simp at there
  | cons t rest ih =>
    rcases List.mem_cons.mp there with rfl | later
    · have less : ((rest.filter fun t => t.number ≠ task.number).map f).sum ≤ (rest.map f).sum :=
        (List.filter_sublist.map f).sum_le_sum fun _ _ => Nat.zero_le _
      rw [List.filter_cons_of_neg (by simp), List.map_cons, List.sum_cons]
      omega
    · have rec' := ih later
      rw [List.filter_cons]
      split <;> simp only [List.map_cons, List.sum_cons] <;> omega

theorem owners_without {task : Task} (there : task ∈ c.tasks) (b : Box) :
    (c.without task.number).owners b + task.waiting.share b ≤ c.owners b := by
  have sum := sum_filter_add_le there fun task => task.waiting.share b
  simp only [owners, without]
  omega

theorem tallies_gaveUp {task : Task} (there : task ∈ c.tasks) (ts : List Ticket) :
    Work.Tallies b ⟨c, ts⟩
      ⟨task.waiting.boxes.foldl forget (c.without task.number), task.waiting.tickets ++ ts⟩ := by
  refine Or.inl ?_
  have owners := owners_without there b
  have gone := contains_append_le (b := b) task.waiting.boxes c.session.gone
  have same := owners_congr (c := c.without task.number)
    (d := task.waiting.boxes.foldl forget (c.without task.number)) (by rw [forgetAll_eq])
    (by rw [forgetAll_eq]) b
  simp only [Work.tally, same, List.countP_append, Waiting.share] at owners ⊢
  rw [forgetAll_eq]
  change _ + ((task.waiting.boxes.reverse ++ c.session.gone).contains b).toNat ≤ _
  omega

theorem Part.tallies (part : Part w w') (b : Box) : Work.Tallies b w w' := by
  cases part with
  | concluded number outcome => exact tallies_quiet rfl rfl rfl (Nat.le_refl _)
  | called fresh procedure payload options keep =>
    refine tallies_whenEstablished _ _ _ ?_
    exact tallies_await 2 rfl rfl rfl (by simp [Waiting.tickets]) rfl rfl
  | enrolled fresh kind pattern options name =>
    refine tallies_whenEstablished _ _ _ ?_
    exact tallies_await 3 rfl rfl rfl (by simp [Waiting.tickets]) rfl rfl
  | published fresh topic payload options =>
    refine tallies_whenEstablished _ _ _ ?_
    dsimp only
    split
    · exact tallies_await 2 rfl rfl rfl (by simp [Waiting.tickets]) rfl rfl
    · exact tallies_await 1 rfl rfl rfl (by simp [Waiting.tickets]) rfl rfl
  | @left c ts number fresh =>
    unfold leave
    split
    · exact tallies_quiet rfl rfl rfl (Nat.le_refl _)
    · exact tallies_await 1 rfl rfl rfl (by simp [Waiting.tickets]) rfl rfl
  | dropped => exact tallies_quiet rfl rfl rfl (Nat.le_refl _)
  | @took c ts name t found =>
    refine Or.inl ?_
    have less := Assoc.countP_erase_le found (Ticket.owns b)
    simp only [Work.tally, owners, takeOut, List.countP_cons] at less ⊢
    cases h : t.owns b <;> simp only [h, Bool.toNat_true, Bool.toNat_false] at less <;> simp <;>
      omega
  | @put c ts name t =>
    refine Or.inl ?_
    have same := Assoc.countP_alter name t c.tickets (Ticket.owns b)
    simp only [Work.tally, owners, putting, List.countP_append, List.countP_cons, ticket?]
    cases h : t.owns b <;> simp only [h, Bool.toNat_true, Bool.toNat_false] at same <;> simp <;>
      omega
  | released t => exact Or.inl (tally_release_le _ t _ b)
  | waits fresh onSession plain =>
    exact tallies_await 0 rfl rfl rfl (by simp [List.countP_append]) plain rfl
  | canceled fresh name more first mode =>
    exact tallies_sendFor _ _ _ _ _ _ _
      (by simp [List.countP_cons]; omega)
  | answered fresh name first answers =>
    exact tallies_sendFor _ _ _ _ _ _ _ (by simp)
  | departed fresh name first live =>
    refine tallies_await 2 rfl rfl rfl ?_ rfl rfl
    simp [Waiting.tickets, List.countP_cons]
    omega
  | shut t late =>
    refine tallies_quiet rfl rfl rfl ?_
    simp [List.countP_cons]
  | streamed t =>
    refine tallies_quiet rfl rfl rfl ?_
    simp [List.countP_cons]
  | gaveUp there => exact tallies_gaveUp there _

/-! ### Operations that go on -/

theorem count_of_mem {boxes : List Box} {box : Box} (there : box ∈ boxes) :
    (box == b).toNat ≤ boxes.count b := by
  cases same : box == b with
  | false => exact Nat.zero_le _
  | true => exact List.count_pos_iff.mpr (eq_of_beq same ▸ there)

/-- An operation has no more boxes after it went on than it had before. -/
theorem Yields.share_le {v : Waiting} {outcome : Outcome} (yields : c.Yields v us outcome)
    (b : Box) : us.countP (Ticket.owns b) ≤ v.share b := by
  cases yields with
  | same plain idle outcome => exact Nat.le_add_right _ _
  | @accepted request procedure accepted box keep route was outcome =>
    have own := count_of_mem (b := b) (show box ∈ [accepted, box] by simp)
    rw [← ite_beq] at own
    simpa [Waiting.share, Waiting.tickets, Waiting.boxes, List.countP_cons, Ticket.owns,
      Ticket.box?, CallTicket.opened] using own
  | @enrolled kind name pattern accepted reply box m route id replied confirms outcome =>
    have own := count_of_mem (b := b) (show box ∈ [accepted, reply, box] by simp)
    rw [← ite_beq] at own
    simpa [Waiting.share, Waiting.tickets, Waiting.boxes, List.countP_cons, Ticket.owns,
      Ticket.box?, FeedTicket.opened] using own
  | settled stream last => exact Nat.le_add_right _ _
  | @result name t came stream more next =>
    simp [Waiting.share, Waiting.tickets, Waiting.boxes, List.countP_cons, CallTicket.take]
  | event next =>
    simp [Waiting.share, Waiting.tickets, Waiting.boxes, List.countP_cons]
  | invocation next canceled =>
    simp [Waiting.share, Waiting.tickets, Waiting.boxes, List.countP_cons]
  | drained next other other' => exact Nat.le_add_right _ _

theorem tally_hand (c : Client) (ts : List Ticket) (b : Box) :
    Work.tally ⟨c, ts⟩ b = ts.countP (Ticket.owns b) + Work.tally ⟨c, []⟩ b := by
  simp [Work.tally, Nat.add_assoc]

theorem Resumes.tally_le {task : Task} (there : task ∈ c.tasks) {outcome : Outcome}
    (resumes : c.Resumes (c.without task.number).tasks task.waiting outcome w) (b : Box) :
    w.tally b ≤ Work.tally ⟨c, []⟩ b := by
  have start : task.waiting.share b + Work.tally ⟨c.without task.number, []⟩ b ≤
      Work.tally ⟨c, []⟩ b := by
    have owners := owners_without there b
    have same : (c.without task.number).session = c.session := rfl
    simp only [Work.tally, same]
    omega
  have handed : ∀ us : List Ticket, us.countP (Ticket.owns b) ≤ task.waiting.share b →
      Work.tally ⟨c.without task.number, us⟩ b ≤ Work.tally ⟨c, []⟩ b := by
    intro us less
    rw [tally_hand]
    omega
  cases resumes with
  | resumed yields => exact handed _ (yields.share_le b)
  | @refused box bare own =>
    have own' := count_of_mem (b := b) (List.mem_of_getLast? own)
    have gone := contains_cons_le (b := b) box c.session.gone
    have after : Work.tally ⟨(c.without task.number).forget box, []⟩ b =
        (c.without task.number).owners b + ((box :: c.session.gone).contains b).toNat := by
      simp [Work.tally, forget, Session.step, Client.owners, without]
    have before : Work.tally ⟨c.without task.number, []⟩ b =
        (c.without task.number).owners b + (c.session.gone.contains b).toNat := by
      simp [Work.tally, without]
    change Work.tally ⟨(c.without task.number).forget box, []⟩ b ≤ _
    rw [before, Waiting.share] at start
    omega
  | @settled t waits =>
    refine Nat.le_trans (tally_release_le (c.without task.number) _ [] b) (handed _ ?_)
    rw [waits]
    exact Nat.le_add_right _ _
  | @ceased name t accepted reply waits =>
    refine handed [.feed t] ?_
    rw [waits]
    exact Nat.le_add_right _ _

/-! ### Moves -/

/-- Nobody shares the box, and nobody has it before it is given out. -/
structure Work.Owned (b : Box) (w : Work) : Prop where
  single : w.tally b ≤ 1
  unborn : w.client.nextBox ≤ b → w.tally b = 0

/-- The operations that wait have different numbers, and no box is shared. -/
structure Orderly (c : Client) : Prop where
  numbers : (c.tasks.map Task.number).Nodup
  owned : ∀ b, Work.Owned b ⟨c, []⟩

theorem Work.Owned.tallies (owned : w.Owned b) (grows : w.client.Grows w'.client)
    (tallies : Work.Tallies b w w') : w'.Owned b := by
  have single := owned.single
  rcases tallies with less | ⟨⟨low, high⟩, more⟩
  · refine ⟨Nat.le_trans less single, fun unborn => ?_⟩
    exact Nat.le_zero.mp (owned.unborn (Nat.le_trans grows.boxes unborn) ▸ less)
  · refine ⟨?_, fun unborn => absurd unborn (Nat.not_le_of_lt high)⟩
    rw [owned.unborn low] at more
    exact more

theorem Work.Owned.parts (owned : w.Owned b) (parts : Parts w w') : w'.Owned b := by
  induction parts with
  | refl => exact owned
  | tail _ part ih => exact ih.tallies part.grows (part.tallies b)

theorem numbers_await {number : Nat} {onSession : Bool} {v : Waiting}
    (fresh : ∀ task ∈ c.tasks, task.number ≠ number) (numbers : (c.tasks.map Task.number).Nodup)
    (tasks : d.tasks = c.tasks ++ [⟨number, onSession, v⟩]) :
    (d.tasks.map Task.number).Nodup := by
  rw [tasks, List.map_append, List.map_singleton, List.nodup_append]
  refine ⟨numbers, List.nodup_singleton _, fun a among b last same => ?_⟩
  obtain ⟨task, there, rfl⟩ := List.mem_map.mp among
  exact fresh task there (same.trans (List.mem_singleton.mp last))

theorem numbers_whenEstablished {number : Nat} (operation : Operation) (target : String)
    {go : Client → Client} (numbers : (c.tasks.map Task.number).Nodup)
    (goes : ((go c).tasks.map Task.number).Nodup) :
    ((c.whenEstablished number operation target go).tasks.map Task.number).Nodup :=
  whenEstablished_keeps (P := fun d => (d.tasks.map Task.number).Nodup) goes numbers

theorem Part.numbers (part : Part w w') (numbers : (w.client.tasks.map Task.number).Nodup) :
    (w'.client.tasks.map Task.number).Nodup := by
  cases part with
  | called fresh procedure payload options keep =>
    exact numbers_whenEstablished _ _ numbers (numbers_await fresh numbers rfl)
  | enrolled fresh kind pattern options name =>
    exact numbers_whenEstablished _ _ numbers (numbers_await fresh numbers rfl)
  | published fresh topic payload options =>
    refine numbers_whenEstablished _ _ numbers ?_
    dsimp only
    split
    · exact numbers_await fresh numbers rfl
    · exact numbers_await fresh numbers rfl
  | left fresh =>
    unfold leave
    split
    · exact numbers
    · exact numbers_await fresh numbers rfl
  | released t => rwa [tasks_release]
  | waits fresh onSession plain => exact numbers_await fresh numbers rfl
  | canceled fresh name more first mode => exact numbers_await fresh numbers rfl
  | answered fresh name first answers => exact numbers_await fresh numbers rfl
  | departed fresh name first live => exact numbers_await fresh numbers rfl
  | gaveUp there =>
    rw [forgetAll_eq]
    exact numbers.sublist (List.filter_sublist.map _)
  | _ => exact numbers

theorem Parts.numbers (parts : Parts w w') (numbers : (w.client.tasks.map Task.number).Nodup) :
    (w'.client.tasks.map Task.number).Nodup := by
  induction parts with
  | refl => exact numbers
  | tail _ part ih => exact part.numbers ih

theorem Orderly.parts (orderly : c.Orderly) (parts : Parts ⟨c, []⟩ ⟨d, []⟩) : d.Orderly where
  numbers := Parts.numbers parts orderly.numbers
  owned b := (orderly.owned b).parts parts

/-- The operation of a number is the only one that has it. -/
theorem Orderly.eq_of_number (orderly : c.Orderly) {number : Nat} {task other : Task}
    (found : c.tasks.find? (fun t => t.number == number) = some task) (there : other ∈ c.tasks)
    (same : other.number = number) : other = task := by
  have mine : task.number = number := by simpa using List.find?_some found
  exact List.inj_on_of_nodup_map orderly.numbers there (List.mem_of_find?_eq_some found)
    (same.trans mine.symm)

/-- Looking for the number of an operation finds it. -/
theorem Orderly.find_task (orderly : c.Orderly) {task : Task} (there : task ∈ c.tasks) :
    (c.tasks.find? fun other => other.number == task.number) = some task := by
  cases search : c.tasks.find? fun other => other.number == task.number with
  | none => exact absurd (List.find?_eq_none.mp search task there) (by simp)
  | some other => rw [orderly.eq_of_number search there rfl]

theorem Resumes.numbers {tasks : List Task} {v : Waiting} {outcome : Outcome}
    (resumes : c.Resumes tasks v outcome w) : w.client.tasks = tasks := by
  cases resumes with
  | resumed yields => rfl
  | refused bare own => rfl
  | settled waits => exact tasks_release _ _
  | ceased waits => rfl

/-- A call that begins to wait for its last result holds on to no more than before. -/
theorem tally_turned_le (numbers : (c.tasks.map Task.number).Nodup) {task : Task}
    (there : task ∈ c.tasks) {number : Nat} (mine : task.number = number) {request : Id}
    {procedure : Uri} {accepted box : Box} {route : Handle}
    (waits : task.waiting = .call request procedure accepted box none)
    (was : c.wasAccepted accepted = some (.ok route)) (b : Box) :
    Work.tally ⟨{ c with tasks := c.tasks.map fun t =>
      if t.number = number then
        { t with waiting := .lastOutcome (CallTicket.opened request procedure route box) }
      else t }, []⟩ b ≤ Work.tally ⟨c, []⟩ b := by
  have least : ∀ t ∈ c.tasks, (if t.number = number then
        { t with waiting := .lastOutcome (CallTicket.opened request procedure route box) }
      else t).waiting.share b ≤ t.waiting.share b := by
    intro t among
    split
    next same =>
      rw [List.inj_on_of_nodup_map numbers among there (same.trans mine.symm), waits]
      have yields : c.Yields (.call request procedure accepted box none)
          [.call (CallTicket.opened request procedure route box)] .done := .accepted was .done
      exact yields.share_le b
    next => exact Nat.le_refl _
  have sum := List.sum_le_sum least
  simp only [Work.tally, Client.owners, List.map_map, Function.comp_def]
  omega

theorem Orderly.polls (orderly : c.Orderly) {number : Nat} (polls : c.Polls number d) :
    d.Orderly := by
  cases polls with
  | still none' => exact orderly
  | @turned task request procedure accepted box route found moved waits was =>
    have there := List.mem_of_find?_eq_some found
    have mine : task.number = number := by simpa using List.find?_some found
    refine ⟨?_, fun b => (orderly.owned b).tallies (grows_quiet rfl rfl (Nat.le_refl _))
      (Or.inl (tally_turned_le orderly.numbers there mine waits was b))⟩
    have same : ∀ t : Task, Task.number (if t.number = number then
        { t with waiting := .lastOutcome (CallTicket.opened request procedure route box) }
        else t) = t.number := by
      intro t
      split <;> rfl
    have numbers := orderly.numbers
    simpa [Function.comp_def, same] using numbers
  | @ended task d e outcome v found moved resumes parts =>
    have there := List.mem_of_find?_eq_some found
    have mine : task.number = number := by simpa using List.find?_some found
    subst mine
    refine ⟨Parts.numbers parts ?_, fun b => ?_⟩
    · rw [resumes.numbers]
      exact orderly.numbers.sublist (List.filter_sublist.map _)
    · have owned := (orderly.owned b).tallies resumes.grows (Or.inl (resumes.tally_le there b))
      exact owned.parts parts

/-- A step of the session lets go of no box. -/
theorem Orderly.step (orderly : c.Orderly) (sound : c.session.Sound) {input : Input}
    (heeds : ∀ box, input ≠ .forget box) (commands : List Command) :
    Client.Orderly { c with session := c.session.step input, commands } where
  numbers := orderly.numbers
  owned b := by
    have gone : (c.session.step input).gone.contains b = c.session.gone.contains b := by
      rw [Bool.eq_iff_iff, List.contains_iff_mem, List.contains_iff_mem]
      refine ⟨fun there => ?_, Session.gone_of_mem_step sound input⟩
      exact (Session.gone_step sound there).resolve_right (heeds b)
    have same : Work.tally ⟨{ c with session := c.session.step input, commands }, []⟩ b =
        Work.tally ⟨c, []⟩ b := by
      simp only [Work.tally, Client.owners, gone]
    obtain ⟨single, unborn⟩ := orderly.owned b
    exact ⟨same ▸ single, fun le => same ▸ unborn le⟩

theorem Orderly.moves (orderly : c.Orderly) (sound : c.session.Sound) {cmds : List Command}
    (moves : c.Moves cmds d) : d.Orderly := by
  cases moves with
  | takes input outer heeds => exact orderly.step sound heeds c.commands
  | serves next => exact orderly.step sound (by simp) _
  | acts parts => exact orderly.parts parts
  | polls polls => exact orderly.polls polls

theorem orderly_joined (wire : Wire) (now closeTimeout : Nat) (ids : IdSource) (id : Id)
    (realm : Uri) (details : Dictionary) :
    (joined (Session.established wire now closeTimeout) ids id realm details).Orderly :=
  ⟨List.nodup_nil, fun b => ⟨by simp [Work.tally, owners, joined, Session.established],
    fun _ => by simp [Work.tally, owners, joined, Session.established]⟩⟩

/-! ### Tickets that are held -/

/-- The tickets in the hands, and those that the program or its operations hold. -/
def Work.tickets (w : Work) : List Ticket := w.hand ++ w.client.heldTickets

theorem countP_tickets_le (w : Work) (b : Box) :
    w.tickets.countP (Ticket.owns b) + (w.client.tasks.flatMap fun t => t.waiting.boxes).count b +
      (w.client.session.gone.contains b).toNat = w.tally b := by
  have each : (w.client.tasks.map fun task => task.waiting.share b).sum =
      (w.client.tasks.map fun task => task.waiting.tickets.countP (Ticket.owns b)).sum +
        (w.client.tasks.map fun task => task.waiting.boxes.count b).sum := by
    rw [← List.sum_map_add]
    rfl
  rw [Work.tickets, heldTickets, Work.tally, owners, each]
  simp only [List.countP_append, List.countP_map, List.countP_flatMap, List.count_flatMap,
    Function.comp_def]
  omega

theorem eq_of_countP_le {α : Type} {p : α → Bool} {l : List α} (single : l.countP p ≤ 1) {a b : α}
    (ha : a ∈ l) (hb : b ∈ l) (pa : p a = true) (pb : p b = true) : a = b := by
  induction l with
  | nil => simp at ha
  | cons x rest ih =>
    rw [List.countP_cons] at single
    have none' : p x = true → ∀ y ∈ rest, p y ≠ true := by
      intro px y hy py
      have more : 0 < rest.countP p := List.countP_pos_iff.mpr ⟨y, hy, py⟩
      simp only [px, if_true] at single
      omega
    rcases List.mem_cons.mp ha with first | later
    · rcases List.mem_cons.mp hb with second | later'
      · exact first.trans second.symm
      · exact absurd pb (none' (first ▸ pa) b later')
    · rcases List.mem_cons.mp hb with second | later'
      · exact absurd pa (none' (second ▸ pb) a later)
      · exact ih (by omega) later later'

/-- A box has one ticket at most. -/
theorem Work.Owned.unique (owned : w.Owned b) {t u : Ticket} (ht : t ∈ w.tickets)
    (hu : u ∈ w.tickets) (mine : t.owns b = true) (yours : u.owns b = true) : t = u := by
  have tally := countP_tickets_le w b
  have single := owned.single
  exact eq_of_countP_le (by omega) ht hu mine yours

/-- The box of a ticket that is held was given out, is not gone, and belongs to no operation that
is still to get its ticket. -/
theorem Work.Owned.held (owned : w.Owned b) {t : Ticket} (there : t ∈ w.tickets)
    (mine : t.owns b = true) : b < w.client.nextBox ∧ b ∉ w.client.session.gone ∧
      ∀ task ∈ w.client.tasks, b ∉ task.waiting.boxes := by
  have tally := countP_tickets_le w b
  have single := owned.single
  have counted : 0 < w.tickets.countP (Ticket.owns b) := List.countP_pos_iff.mpr ⟨t, there, mine⟩
  refine ⟨Nat.lt_of_not_le fun unborn => ?_, fun gone => ?_, fun task among own => ?_⟩
  · have none' := owned.unborn unborn
    omega
  · have one : (w.client.session.gone.contains b).toNat = 1 := by simp [gone]
    omega
  · have one : 0 < (w.client.tasks.flatMap fun t => t.waiting.boxes).count b :=
      List.count_pos_iff.mpr (List.mem_flatMap.mpr ⟨task, among, own⟩)
    omega

end Client

end WampClient
