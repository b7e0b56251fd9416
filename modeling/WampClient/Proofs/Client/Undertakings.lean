import WampClient.Proofs.Client.Lineage
import WampClient.Proofs.Failure.Taxonomy
import WampClient.Proofs.Session.Sendings
import WampClient.Proofs.Uri.Components

/-! What a program undertakes by an action: an operation that is for what the action attempts. What
is reported at once is a success, or a failure that names what was attempted. -/
namespace WampClient

/-- A failure that does not say yet what was attempted, and finds no fault with a reply. -/
structure Failure.Unplaced (f : Failure) : Prop where
  bare : f.context = []
  expected : f.isUnexpected = false

theorem Failure.Ends.unplaced {f : Failure} (ends : f.Ends) : f.Unplaced :=
  ⟨ends.bare, ends.expected⟩

/-- If it is a failure, it has come up while this was attempted. -/
def Outcome.During (attempt : Option (Operation × String)) (o : Outcome) : Prop :=
  ∀ f, o = .failed f → ∃ (g : Failure) (operation : Operation) (target : String), g.Unplaced ∧
    attempt = some (operation, target) ∧ f = g.during operation target

theorem during_failed {f : Failure} {operation : Operation} {target : String}
    (unplaced : f.Unplaced) :
    (Outcome.failed (f.during operation target)).During (some (operation, target)) :=
  fun _ same => ⟨f, operation, target, unplaced, rfl, (Outcome.failed.inj same).symm⟩

/-! ### What operations are for -/

/-- What is attempted by an operation that may fail, and on what. -/
def Waiting.attempt? : Waiting → Option (Operation × String)
  | .call _ procedure _ _ _ => some (.call, procedure.text)
  | .lastOutcome t => some (.call, t.procedure.text)
  | .nextOutcome _ t _ => some (.call, t.procedure.text)
  | .enrolment kind _ pattern _ _ _ => some (kind.entering, pattern.text)
  | .publication topic _ _ => some (.publish, topic.text)
  | .sent _ operation target _ _ => some (operation, target)
  | .departure _ t _ _ => some (t.kind.leaving, t.pattern.text)
  | _ => none

/-- What comes of a message that is out is no failure. -/
def Waiting.Hopeful : Waiting → Prop
  | .sent _ _ _ _ outcome => ∀ f, outcome ≠ .failed f
  | _ => True

/-- What is attempted by something that is done with a ticket. -/
def Ticket.attempt? : Ticket → TicketAction → Option (Operation × String)
  | .call t, .nextOutcome => some (.call, t.procedure.text)
  | .results t, .nextOutcome => some (.call, t.procedure.text)
  | .call t, .lastOutcome => some (.call, t.procedure.text)
  | .call t, .cancel _ => some (.cancel, t.procedure.text)
  | .feed t, .depart => some (t.kind.leaving, t.pattern.text)
  | .invocation t, .result _ => some (.yield, t.target)
  | .invocation t, .progress _ => some (.yield, t.target)
  | .invocation t, .error _ _ _ _ => some (.yield, t.target)
  | _, _ => none

namespace Client

/-- What a program attempts by an action that may fail. -/
def attempt? (c : Client) : Action → Option (Operation × String)
  | .onSession (.call uri _ _ _) => some (.call, uri)
  | .onSession (.enrol kind uri _ _) => some (kind.entering, uri)
  | .onSession (.publish uri _ _) => some (.publish, uri)
  | .onTicket name a => (c.ticket? name).bind fun t => t.attempt? a
  | _ => none

variable {c d : Client} {number : Nat} {attempt : Option (Operation × String)}

/-! ### Operations that begin -/

/-- By an action under this number an operation begins that is for this attempt, or is reported at
once; or nothing begins. -/
structure Undertakes (c : Client) (number : Nat) (attempt : Option (Operation × String))
    (d : Client) : Prop where
  tasks : ∀ task ∈ d.tasks, task ∈ c.tasks ∨
    task.number = number ∧ task.waiting.attempt? = attempt ∧ task.waiting.Hopeful
  finished : d.finished = c.finished ∨
    ∃ o : Outcome, d.finished = c.finished ++ [(number, o)] ∧ o.During attempt

theorem undertakes_quiet (tasks : ∀ task ∈ d.tasks, task ∈ c.tasks)
    (finished : d.finished = c.finished) : c.Undertakes number attempt d :=
  ⟨fun task there => Or.inl (tasks task there), Or.inl finished⟩

theorem undertakes_refl (c : Client) : c.Undertakes number attempt c :=
  undertakes_quiet (fun _ there => there) rfl

theorem undertakes_conclude {o : Outcome} (tasks : d.tasks = c.tasks)
    (finished : d.finished = c.finished) (told : o.During attempt) :
    c.Undertakes number attempt (d.conclude number o) :=
  ⟨fun _ there => Or.inl (tasks ▸ there), Or.inr ⟨o, by rw [conclude, finished], told⟩⟩

theorem undertakes_task {task : Task} (tasks : d.tasks = c.tasks ++ [task])
    (finished : d.finished = c.finished) (mine : task.number = number)
    (same : task.waiting.attempt? = attempt) (hopeful : task.waiting.Hopeful) :
    c.Undertakes number attempt d := by
  refine ⟨?_, Or.inl finished⟩
  rw [tasks]
  exact mem_append_task (fun _ => Or.inl) (Or.inr ⟨mine, same, hopeful⟩)

theorem undertakes_whenEstablished {operation : Operation} {target : String} {go : Client → Client}
    (goes : c.Undertakes number (some (operation, target)) (go c)) :
    c.Undertakes number (some (operation, target))
      (c.whenEstablished number operation target go) :=
  whenEstablished_keeps (P := c.Undertakes number (some (operation, target))) goes 
    (undertakes_conclude rfl rfl (during_failed ⟨rfl, rfl⟩))

theorem undertakes_call (c : Client) (number : Nat) (procedure : Uri) (payload : Payload)
    (options : CallOptions) (keep : Option String) :
    c.Undertakes number (some (.call, procedure.text))
      (c.call number procedure payload options keep) :=
  undertakes_whenEstablished (undertakes_task rfl rfl rfl rfl trivial)

theorem undertakes_enrol (c : Client) (number : Nat) (kind : FeedKind) (pattern : UriPattern)
    (options : EnrolOptions) (name : String) :
    c.Undertakes number (some (kind.entering, pattern.text))
      (c.enrol number kind pattern options name) :=
  undertakes_whenEstablished (undertakes_task rfl rfl rfl rfl trivial)

theorem undertakes_publish (c : Client) (number : Nat) (topic : Uri) (payload : Payload)
    (options : PublishOptions) :
    c.Undertakes number (some (.publish, topic.text)) (c.publish number topic payload options) := by
  refine undertakes_whenEstablished ?_
  dsimp only
  split
  · exact undertakes_task rfl rfl rfl rfl trivial
  · exact undertakes_task rfl rfl rfl rfl fun _ same => nomatch same

theorem undertakes_unlessInvalid {result : Except InvalidUri Client}
    (undertakes : ∀ d, result = .ok d → c.Undertakes number attempt d) :
    c.Undertakes number attempt (c.unlessInvalid result).1 := by
  cases result with
  | ok d => exact undertakes d rfl
  | error e => exact undertakes_refl c

theorem undertakes_onSession (c : Client) (number : Nat) (a : SessionAction) :
    c.Undertakes number (c.attempt? (.onSession a)) (c.onSession number a).1 := by
  cases a with
  | call uri payload options keep =>
    refine undertakes_unlessInvalid fun d made => ?_
    obtain ⟨procedure, valid, same⟩ := ok_of_bind made
    obtain ⟨-, rfl⟩ := Uri.ofString_ok uri valid
    exact Except.ok.inj same ▸ undertakes_call c number _ payload options keep
  | enrol kind uri options keep =>
    refine undertakes_unlessInvalid fun d made => ?_
    cases options with
    | none =>
      obtain ⟨pattern, valid, same⟩ := ok_of_bind made
      obtain ⟨-, rfl⟩ := Uri.ofString_ok uri valid
      exact Except.ok.inj same ▸ undertakes_enrol c number kind _ _ keep
    | some options =>
      obtain ⟨pattern, valid, same⟩ := ok_of_bind made
      obtain ⟨-, rfl⟩ := UriPattern.ofString_ok uri valid
      exact Except.ok.inj same ▸ undertakes_enrol c number kind _ _ keep
  | publish uri payload options =>
    refine undertakes_unlessInvalid fun d made => ?_
    obtain ⟨topic, valid, same⟩ := ok_of_bind made
    obtain ⟨-, rfl⟩ := Uri.ofString_ok uri valid
    exact Except.ok.inj same ▸ undertakes_publish c number _ payload options
  | leave =>
    show c.Undertakes number none (c.leave number)
    unfold leave
    split
    · exact undertakes_conclude rfl rfl fun _ same => nomatch same
    · exact undertakes_task rfl rfl rfl rfl trivial
  | awaitEnd => exact undertakes_task rfl rfl rfl rfl trivial
  | inspect => exact undertakes_refl c
  | drop =>
    rw [onSession]
    split
    · exact undertakes_refl c
    · exact undertakes_quiet (fun _ there => there) rfl

theorem undertakes_cancel (c : Client) (number : Nat) (name : String) (t : CallTicket)
    (mode : CancelMode) :
    c.Undertakes number (some (.cancel, t.procedure.text)) (c.cancel number name t mode) := by
  unfold cancel
  split
  · exact undertakes_conclude rfl rfl fun _ same => nomatch same
  · exact undertakes_task rfl rfl rfl rfl fun _ same => nomatch same

theorem undertakes_depart (c : Client) (number : Nat) (name : String) (t : FeedTicket) :
    c.Undertakes number (some (t.kind.leaving, t.pattern.text)) (c.depart number name t) := by
  unfold depart
  split
  · exact undertakes_conclude rfl rfl fun _ same => nomatch same
  · dsimp only
    split
    · exact undertakes_task rfl rfl rfl rfl trivial
    · exact undertakes_conclude (tasks_keep _ _ _) (finished_keep _ _ _) fun _ same => nomatch same

theorem undertakes_answer (c : Client) (number : Nat) (name : String) (t : InvocationTicket)
    (m : Message) (final : Bool) :
    c.Undertakes number (some (.yield, t.target)) (c.answer number name t m final) := by
  unfold answer
  split
  · exact undertakes_conclude rfl rfl (during_failed ⟨rfl, rfl⟩)
  · split
    · exact undertakes_conclude rfl rfl (during_failed ⟨rfl, rfl⟩)
    · exact undertakes_task rfl rfl rfl rfl fun _ same => nomatch same

theorem undertakes_onTicket (c : Client) (number : Nat) (name : String) (t : Ticket)
    (a : TicketAction) : c.Undertakes number (t.attempt? a) (c.onTicket number name t a).1 := by
  rw [onTicket.eq_def]
  split
  case h_2 =>
    rw [dropTicket]
    split
    · exact undertakes_refl c
    · refine undertakes_quiet (fun task there => ?_) (finished_release _ _)
      rwa [tasks_release] at there
  case h_6 => exact undertakes_cancel c number name _ _
  case h_7 =>
    refine undertakes_quiet (fun task there => ?_) (finished_keep _ _ _)
    rwa [stream, tasks_keep] at there
  case h_8 => exact undertakes_depart c number name _
  case h_9 | h_10 =>
    split
    · exact undertakes_task rfl rfl rfl rfl trivial
    · exact undertakes_refl c
  case h_11 | h_12 => exact undertakes_answer c number name _ _ _
  case h_13 =>
    refine undertakes_unlessInvalid fun d made => ?_
    obtain ⟨e, -, same⟩ := ok_of_bind made
    exact Except.ok.inj same ▸ undertakes_answer c number name _ _ _
  case h_3 | h_4 | h_5 | h_14 => exact undertakes_task rfl rfl rfl rfl trivial
  all_goals exact undertakes_refl c

theorem undertakes_desists {other : Nat} (desists : c.Desists other d) :
    c.Undertakes number attempt d := by
  cases desists with
  | released found =>
    refine undertakes_quiet (fun task there => ?_) ?_
    · rw [tasks_releases, forgetAll_eq] at there
      exact List.mem_of_mem_filter there
    · rw [finished_releases, forgetAll_eq]
      rfl
  | kept found lent =>
    refine undertakes_quiet (fun task there => ?_) ?_
    · rw [tasks_keep, forgetAll_eq] at there
      exact List.mem_of_mem_filter there
    · rw [finished_keep, forgetAll_eq]
      rfl

/-- An operation that an action begins is for what the action attempts. -/
theorem undertakes_act (c : Client) (number : Nat) (a : Action) :
    c.Undertakes number (c.attempt? a) (c.act number a).1 := by
  cases a with
  | onSession a =>
    rw [act]
    split
    · exact undertakes_onSession c number a
    · exact undertakes_refl c
  | onTicket name a =>
    rw [act, attempt?]
    split
    next t found =>
      rw [found]
      exact undertakes_onTicket c number name t a
    next => exact undertakes_refl c
  | abandon other =>
    rw [act]
    split
    next abandoned => exact undertakes_desists (desists_of_abandon abandoned)
    next => exact undertakes_refl c
  | desist other =>
    rw [act]
    split
    next desisted => exact undertakes_desists (desists_of_desist desisted)
    next => exact undertakes_refl c

end Client

end WampClient
