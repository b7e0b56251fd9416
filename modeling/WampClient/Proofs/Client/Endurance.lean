import WampClient.Proofs.Client.Boxes

/-! How long operations wait. An operation goes on waiting until it is polled and there is something
for it, unless the program drops it: then its tickets are let go of, or, where they were only lent to
it, the program has them again. -/
namespace WampClient.Client

variable {c d : Client} {m : Move} {ms : List Move} {number : Nat} {task : Task} {b : Box}

/-! ### Operations that are dropped -/

/-- What the operation has waited for that the program drops in a move, keeping its ticket. -/
def desists? (c : Client) : Move → Option Waiting
  | .act number (.desist other) =>
    if c.tasks.any (fun task => task.number == number) then none
    else (c.tasks.find? fun task => task.number == other).map Task.waiting
  | _ => none

/-- What all operations have waited for that the program drops in a run, keeping their tickets. -/
def desisted : Client → List Move → List Waiting
  | _, [] => []
  | c, m :: ms => (c.desists? m).toList ++ desisted (c.move m) ms

theorem desisted_append (c : Client) (before after : List Move) :
    c.desisted (before ++ after) = c.desisted before ++ (c.run before).desisted after := by
  induction before generalizing c with
  | nil => rfl
  | cons m rest ih =>
    rw [List.cons_append, desisted, ih, desisted, List.append_assoc]
    rfl

/-! ### Operations that go on -/

theorem tasks_subset_whenEstablished (number : Nat) (operation : Operation) (target : String)
    {go : Client → Client} (goes : c.tasks ⊆ (go c).tasks) :
    c.tasks ⊆ (c.whenEstablished number operation target go).tasks :=
  whenEstablished_keeps (P := fun d => c.tasks ⊆ d.tasks) goes (List.Subset.refl _)

theorem tasks_subset_unlessInvalid {result : Except InvalidUri Client}
    (goes : ∀ d, result = .ok d → c.tasks ⊆ d.tasks) :
    c.tasks ⊆ (c.unlessInvalid result).1.tasks := by
  cases result with
  | ok d => exact goes d rfl
  | error e => exact List.Subset.refl _

theorem tasks_subset_onSession (c : Client) (number : Nat) (a : SessionAction) :
    c.tasks ⊆ (c.onSession number a).1.tasks := by
  have enrols : ∀ kind pattern options name,
      c.tasks ⊆ (c.enrol number kind pattern options name).tasks := fun _ _ _ _ =>
    tasks_subset_whenEstablished _ _ _ (List.subset_append_left _ _)
  cases a with
  | call uri payload options keep =>
    refine tasks_subset_unlessInvalid fun d made => ?_
    obtain ⟨procedure, -, same⟩ := ok_of_bind made
    obtain rfl := Except.ok.inj same
    exact tasks_subset_whenEstablished _ _ _ (List.subset_append_left _ _)
  | enrol kind uri options keep =>
    refine tasks_subset_unlessInvalid fun d made => ?_
    cases options with
    | none =>
      obtain ⟨pattern, -, same⟩ := ok_of_bind made
      obtain rfl := Except.ok.inj same
      exact enrols kind _ _ keep
    | some options =>
      obtain ⟨pattern, -, same⟩ := ok_of_bind made
      obtain rfl := Except.ok.inj same
      exact enrols kind _ _ keep
  | publish uri payload options =>
    refine tasks_subset_unlessInvalid fun d made => ?_
    obtain ⟨topic, -, same⟩ := ok_of_bind made
    obtain rfl := Except.ok.inj same
    refine tasks_subset_whenEstablished _ _ _ ?_
    dsimp only
    split
    · exact List.subset_append_left _ _
    · exact List.subset_append_left _ _
  | leave =>
    rw [onSession, leave]
    split
    · exact List.Subset.refl _
    · exact List.subset_append_left _ _
  | awaitEnd => exact List.subset_append_left _ _
  | inspect => exact List.Subset.refl _
  | drop =>
    rw [onSession]
    split <;> exact List.Subset.refl _

theorem tasks_subset_onTicket (c : Client) (number : Nat) (name : String) (t : Ticket)
    (a : TicketAction) : c.tasks ⊆ (c.onTicket number name t a).1.tasks := by
  have answers : ∀ t m final, c.tasks ⊆ (c.answer number name t m final).tasks := by
    intro t m final
    unfold answer
    split
    · exact List.Subset.refl _
    · split
      · exact List.Subset.refl _
      · exact List.subset_append_left _ _
  rw [onTicket.eq_def]
  split
  case h_1 => exact List.Subset.refl _
  case h_2 =>
    rw [dropTicket]
    split
    · exact List.Subset.refl _
    · rw [tasks_release]
      exact List.Subset.refl _
  case h_6 t mode =>
    dsimp only
    rw [cancel_eq]
    split
    · exact List.Subset.refl _
    · exact List.subset_append_left _ _
  case h_7 =>
    rw [stream, tasks_keep]
    exact List.Subset.refl _
  case h_8 t =>
    unfold depart
    split
    · exact List.Subset.refl _
    · dsimp only
      split
      · exact List.subset_append_left _ _
      · intro task there
        exact tasks_keep (c.takeOut name) name (.feed { t with closed := true }) ▸ there
  case h_9 =>
    split
    · exact List.subset_append_left _ _
    · exact List.Subset.refl _
  case h_10 =>
    split
    · exact List.subset_append_left _ _
    · exact List.Subset.refl _
  case h_11 => exact answers _ _ _
  case h_12 => exact answers _ _ _
  case h_13 =>
    refine tasks_subset_unlessInvalid fun d made => ?_
    obtain ⟨e, -, same⟩ := ok_of_bind made
    obtain rfl := Except.ok.inj same
    exact answers _ _ _
  case h_15 => exact List.Subset.refl _
  all_goals exact List.subset_append_left _ _

theorem gone_releases (ts : List Ticket) (c : Client)
    (gone : b ∈ c.session.gone ∨ ∃ t ∈ ts, t.owns b = true) :
    b ∈ (ts.foldl release c).session.gone := by
  induction ts generalizing c with
  | nil => exact gone.resolve_right (by simp)
  | cons t rest ih =>
    refine ih _ ?_
    rw [gone_release]
    rcases gone with before | ⟨u, there, own⟩
    · exact Or.inl (List.mem_append_right _ before)
    · rcases List.mem_cons.mp there with rfl | later
      · have box : u.box? = some b := by simpa [Ticket.owns] using own
        exact Or.inl (List.mem_append_left _ (by simp [box]))
      · exact Or.inr ⟨u, later, own⟩

/-- Nobody waits any more where an operation was dropped, but all others do. -/
theorem tasks_desists (desists : c.Desists number d) : d.tasks = (c.without number).tasks := by
  cases desists with
  | released found => rw [tasks_releases, forgetAll_eq]
  | kept found lent => rw [tasks_keep, forgetAll_eq]

/-- Who drops an operation with its tickets lets go of these. -/
theorem stays_abandon (orderly : c.Orderly) (there : task ∈ c.tasks)
    (abandoned : c.abandon number = some d) : task ∈ d.tasks ∨
      ∀ t ∈ task.waiting.tickets, t.owns b = true → b ∈ d.session.gone := by
  unfold abandon at abandoned
  split at abandoned
  · cases abandoned
  next other found =>
    obtain rfl := Option.some.inj abandoned
    rw [giveUp_eq]
    by_cases same : task.number = number
    · obtain rfl := orderly.eq_of_number found there same
      exact Or.inr fun t own mine => gone_releases _ _ (Or.inr ⟨t, own, mine⟩)
    · rw [tasks_releases, forgetAll_eq]
      exact Or.inl (List.mem_filter.mpr ⟨there, by simpa using same⟩)

theorem stays_poll (there : task ∈ c.tasks) (other : task.number ≠ number) :
    task ∈ (c.poll number).tasks := by
  rw [poll]
  split
  · exact there
  · split
    · exact there
    next d waiting moved =>
      have old : task ∈ d.tasks := tasks_advance moved ▸ there
      exact List.mem_map.mpr ⟨task, old, if_neg other⟩
    next d outcome moved =>
      have old : task ∈ d.tasks := tasks_advance moved ▸ there
      exact List.mem_filter.mpr ⟨old, by simpa using other⟩

/-- Whoever waits goes on waiting until it is his turn, or the operation is dropped: with its tickets,
or without. -/
theorem stays_move (orderly : c.Orderly) (there : task ∈ c.tasks) (other : m ≠ .poll task.number) :
    task ∈ (c.move m).tasks ∨
      (∀ t ∈ task.waiting.tickets, t.owns b = true → b ∈ (c.move m).session.gone) ∨
        c.desists? m = some task.waiting := by
  cases m with
  | arrive a => exact Or.inl there
  | elapse time => exact Or.inl there
  | serve =>
    rw [move, serve]
    split
    · exact Or.inl there
    · exact Or.inl there
  | poll number => exact Or.inl (stays_poll there fun same => other (same ▸ rfl))
  | act number a =>
    rw [move]
    split
    · exact Or.inl there
    next free =>
      cases a with
      | onSession a =>
        rw [act]
        split
        · exact Or.inl (tasks_subset_onSession c number a there)
        · exact Or.inl there
      | onTicket name a =>
        rw [act]
        split
        · exact Or.inl (tasks_subset_onTicket c number name _ a there)
        · exact Or.inl there
      | abandon number =>
        rw [act]
        split
        next abandoned => exact (stays_abandon orderly there abandoned).imp_right Or.inl
        next => exact Or.inl there
      | desist dropped =>
        rw [act]
        split
        next d desisted =>
          by_cases same : task.number = dropped
          · refine Or.inr (Or.inr ?_)
            rw [desists?, if_neg free, ← same, orderly.find_task there]
            rfl
          · refine Or.inl ?_
            rw [tasks_desists (desists_of_desist desisted)]
            exact List.mem_filter.mpr ⟨there, by simpa using same⟩
        next => exact Or.inl there

end WampClient.Client
