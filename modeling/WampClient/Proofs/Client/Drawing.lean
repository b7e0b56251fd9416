import WampClient.Proofs.Client.Recurrence
import WampClient.Proofs.Client.Requests
import WampClient.Proofs.Session.Lifecycle

/-! Which ids a client draws. Each one goes into a command of its own, and the commands carry the
ids in the order in which the source gives them out; so no two of them carry the same id before the
source has gone all the way round. -/
namespace WampClient

/-- The id that was drawn for a command, if it needs one. -/
def Command.drawn? : Command → Option Id
  | .request m .. => m.requestId?
  | .send (.publish id ..) _ => some id
  | _ => none

namespace Client

variable {c d e : Client} {w w' : Work} {ms : List Move} {past cmds : List Command}
  {ids : IdSource}

/-- The client draws ids, if it does, one for each new command that needs one. None of the commands
has a GOODBYE sent in so many words. -/
def Draws (c d : Client) : Prop :=
  ∃ new, d.commands = c.commands ++ new ∧ (∀ command ∈ new, command.saysGoodbye = false) ∧
    ∃ n, d.ids = c.ids.after n ∧ new.filterMap Command.drawn? = c.ids.firsts n

theorem Draws.trans (one : c.Draws d) (two : d.Draws e) : c.Draws e := by
  obtain ⟨new, commands, polite, m, ids, drawn⟩ := one
  obtain ⟨new', commands', polite', n, ids', drawn'⟩ := two
  rw [ids] at ids' drawn'
  refine ⟨new ++ new', by rw [commands', commands, List.append_assoc], fun command there => ?_,
    m + n, ?_, ?_⟩
  · exact (List.mem_append.mp there).elim (polite command) (polite' command)
  · rw [ids', IdSource.after_add]
  · rw [List.filterMap_append, drawn, drawn', IdSource.firsts_add]

theorem draws_quiet (commands : d.commands = c.commands) (ids : d.ids = c.ids) : c.Draws d :=
  ⟨[], by rw [commands, List.append_nil], by simp, 0, ids, rfl⟩

theorem Draws.refl (c : Client) : c.Draws c := draws_quiet rfl rfl

/-- A command is issued that needs no id. -/
theorem draws_plain {command : Command} (commands : d.commands = c.commands ++ [command])
    (ids : d.ids = c.ids) (plain : command.drawn? = none) (polite : command.saysGoodbye = false) :
    c.Draws d :=
  ⟨[command], commands, by simpa using polite, 0, ids, by rw [List.filterMap_cons_none plain]; rfl⟩

/-- A command is issued with the next id. -/
theorem draws_request {command : Command} (commands : d.commands = c.commands ++ [command])
    (ids : d.ids = c.ids.draw.2) (own : command.drawn? = some c.ids.upcoming)
    (polite : command.saysGoodbye = false) : c.Draws d :=
  ⟨[command], commands, by simpa using polite, 1, ids, by
    rw [List.filterMap_cons_some own]; rfl⟩

/-! ### Parts of a move -/

theorem draws_whenEstablished (c : Client) (number : Nat) (operation : Operation) (target : String)
    {go : Client → Client} (goes : c.Draws (go c)) :
    c.Draws (c.whenEstablished number operation target go) :=
  whenEstablished_keeps (P := c.Draws) goes (draws_quiet rfl rfl)

theorem draws_publish (c : Client) (number : Nat) (topic : Uri) (payload : Payload)
    (options : PublishOptions) : c.Draws (c.publish number topic payload options) := by
  refine draws_whenEstablished c number _ _ ?_
  dsimp only
  split
  · exact draws_request rfl rfl rfl rfl
  · exact draws_request rfl rfl rfl rfl

theorem draws_leave (c : Client) (number : Nat) : c.Draws (c.leave number) := by
  unfold leave
  split
  · exact draws_quiet rfl rfl
  · exact draws_plain rfl rfl rfl rfl

theorem draws_release (c : Client) (t : Ticket) : c.Draws (c.release t) := by
  have call : ∀ t : CallTicket, c.Draws (c.release (.call t)) := by
    intro t
    rw [release_call]
    split
    · exact draws_quiet rfl rfl
    · exact draws_plain rfl rfl rfl rfl
  cases t with
  | call t => exact call t
  | results t => exact call t
  | feed t =>
    rw [release_feed]
    split
    · exact draws_quiet rfl rfl
    · cases kind : t.kind <;> exact draws_request rfl rfl (by rw [kind]; rfl) (by rw [kind]; rfl)
  | invocation t =>
    rw [release_invocation]
    split
    · exact draws_quiet rfl rfl
    · exact draws_plain rfl rfl rfl rfl

theorem draws_forgetAll (c : Client) (boxes : List Box) : c.Draws (boxes.foldl forget c) := by
  induction boxes generalizing c with
  | nil => exact Draws.refl c
  | cons box rest ih => exact (draws_quiet rfl rfl : c.Draws (c.forget box)).trans (ih _)

theorem Part.draws (part : Part w w') : w.client.Draws w'.client := by
  cases part with
  | called fresh procedure payload options keep =>
    exact draws_whenEstablished _ _ _ _ (draws_request rfl rfl rfl rfl)
  | enrolled fresh kind pattern options name =>
    refine draws_whenEstablished _ _ _ _ ?_
    cases kind <;> exact draws_request rfl rfl rfl rfl
  | published fresh topic payload options => exact draws_publish _ _ topic payload options
  | left fresh => exact draws_leave _ _
  | dropped => exact draws_plain rfl rfl rfl rfl
  | released t => exact draws_release _ t
  | canceled fresh name more first mode => exact draws_plain rfl rfl rfl rfl
  | answered fresh name first answers => cases answers <;> exact draws_plain rfl rfl rfl rfl
  | @departed c ts number fresh name t first live =>
    cases kind : t.kind <;> exact draws_request rfl rfl (by rw [kind]; rfl) (by rw [kind]; rfl)
  | gaveUp there =>
    exact (draws_quiet rfl rfl : Draws _ (without _ _)).trans (draws_forgetAll _ _)
  | _ => exact draws_quiet rfl rfl

theorem Parts.draws (parts : Parts w w') : w.client.Draws w'.client := by
  induction parts with
  | refl => exact Draws.refl _
  | tail _ part ih => exact ih.trans part.draws

theorem Resumes.draws {tasks : List Task} {v : Waiting} {outcome : Outcome}
    (resumes : c.Resumes tasks v outcome w) : c.Draws w.client := by
  have quiet : c.Draws { c with tasks } := draws_quiet rfl rfl
  cases resumes with
  | resumed yields => exact quiet
  | refused bare own => exact quiet.trans (draws_quiet rfl rfl)
  | settled waits => exact quiet.trans (draws_release _ _)
  | ceased waits => exact quiet.trans (draws_plain rfl rfl rfl rfl)

theorem Polls.draws {number : Nat} (polls : c.Polls number d) : c.Draws d := by
  cases polls with
  | still none' => exact Draws.refl c
  | turned found moved waits was => exact draws_quiet rfl rfl
  | ended found moved resumes parts => exact resumes.draws.trans parts.draws

/-! ### Runs -/

/-- The ids that a client draws in a run, as the commands carry them. -/
def drawn (c : Client) (ms : List Move) : List Id :=
  (c.served ms ++ (c.run ms).commands).filterMap Command.drawn?

/-- All commands together, taken up or not, carry the first ids of the source. -/
def Drawn (ids : IdSource) (past : List Command) (c : Client) : Prop :=
  ∃ n, c.ids = ids.after n ∧ (past ++ c.commands).filterMap Command.drawn? = ids.firsts n

theorem Drawn.draws (drawn : c.Drawn ids past) (draws : c.Draws d) : d.Drawn ids past := by
  obtain ⟨m, after, firsts⟩ := drawn
  obtain ⟨new, commands, -, n, after', firsts'⟩ := draws
  rw [after] at after' firsts'
  refine ⟨m + n, by rw [after', IdSource.after_add], ?_⟩
  rw [commands, ← List.append_assoc, List.filterMap_append, firsts, firsts', IdSource.firsts_add]

theorem Drawn.moves (drawn : c.Drawn ids past) (moves : c.Moves cmds d) :
    d.Drawn ids (past ++ cmds) := by
  cases moves with
  | takes input outer heeds =>
    rw [List.append_nil]
    exact drawn
  | @serves command rest next =>
    obtain ⟨n, after, firsts⟩ := drawn
    exact ⟨n, after, by rw [List.append_assoc, List.singleton_append, ← next, firsts]⟩
  | acts parts =>
    rw [List.append_nil]
    exact drawn.draws (Parts.draws parts)
  | polls polls =>
    rw [List.append_nil]
    exact drawn.draws polls.draws

theorem Drawn.run (drawn : c.Drawn ids past) (ms : List Move) :
    (c.run ms).Drawn ids (past ++ c.served ms) :=
  run_of_moves (P := fun past c => c.Drawn ids past) drawn
    (fun drawn m => drawn.moves (Client.moves _ m)) ms

/-- The ids of a run are the first ones of the source, and the next one is the one after them. -/
theorem drawn_eq (idle : c.commands = []) (ms : List Move) :
    c.drawn ms = c.ids.firsts (c.drawn ms).length ∧
      (c.run ms).ids = c.ids.after (c.drawn ms).length := by
  have start : c.Drawn c.ids [] := ⟨0, rfl, by rw [idle]; rfl⟩
  obtain ⟨n, after, firsts⟩ := start.run ms
  have drawn : c.drawn ms = c.ids.firsts n := firsts
  rw [drawn, IdSource.length_firsts]
  exact ⟨rfl, after⟩

end Client

end WampClient
