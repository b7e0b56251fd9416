import WampClient.Proofs.Client.Outcomes
import WampClient.Proofs.Session.Tidings

/-! How a program leaves its realm. An operation that is to leave has a box of its own, in which
the session tells of its close and nothing else is ever told. So it waits just as long as the
session goes on, and then it is done, whatever the session has ended with. -/
namespace WampClient.Client

variable {c d : Client} {past cmds : List Command} {b : Box} {w w' : Work} {ms : List Move}

/-! ### What is asked for -/

/-- An operation that is to leave has asked for that. -/
def Leaves (past : List Command) (c : Client) : Prop :=
  ∀ task ∈ c.tasks, ∀ b, task.waiting = .leave b → .close (some b) ∈ past ++ c.commands

/-- Of the operations that begin, only one that is to leave waits for the close. -/
theorem Part.leaves (part : Part w w') : ∀ task ∈ w'.client.tasks, task ∈ w.client.tasks ∨
    ∀ b, task.waiting = .leave b → .close (some b) ∈ w'.client.commands := by
  refine fun task there => (part.begins task there).imp_right fun begins b same => ?_
  rw [same] at begins
  cases begins with
  | leave asked => exact asked
  | plain plain => exact nomatch plain

theorem Leaves.parts (leaves : w.client.Leaves past) (parts : Parts w w') :
    w'.client.Leaves past := by
  induction parts with
  | refl => exact leaves
  | tail _ part ih =>
    intro task there b same
    rcases part.leaves task there with old | new
    · exact part.grows.mem_commands (ih task old b same)
    · exact List.mem_append_right _ (new b same)

theorem Leaves.polls (leaves : c.Leaves past) {number : Nat} (polls : c.Polls number d) :
    d.Leaves past := by
  cases polls with
  | still none' => exact leaves
  | turned found moved waits was =>
    intro task there b same
    rcases mem_turned there with old | turned
    · exact leaves task old b same
    · exact nomatch turned.symm.trans same
  | ended found moved resumes parts =>
    refine Leaves.parts (fun task there b same => ?_) parts
    rw [resumes.numbers] at there
    exact resumes.grows.mem_commands (leaves task (List.mem_of_mem_filter there) b same)

theorem Leaves.moves (leaves : c.Leaves past) (moves : c.Moves cmds d) :
    d.Leaves (past ++ cmds) := by
  cases moves with
  | takes input outer heeds =>
    rw [List.append_nil]
    exact leaves
  | @serves command rest next =>
    intro task there b same
    rw [List.append_assoc, List.singleton_append, ← next]
    exact leaves task there b same
  | acts parts =>
    rw [List.append_nil]
    exact leaves.parts parts
  | polls polls =>
    rw [List.append_nil]
    exact leaves.polls polls

/-! ### What the session does about it -/

/-- The session has been asked to tell of its close in these boxes, and nothing else is told
there. -/
structure Parted (past : List Command) (c : Client) : Prop where
  fit : c.session.parting.Fit
  bare : ∀ b, .close (some b) ∈ past → b ∉ c.session.gone → c.session.Bare b
  besides : ∀ b, .close (some b) ∈ past → b ∉ c.session.gone → c.session.besides b = []
  waits : ∀ b, .close (some b) ∈ past → c.session.phase ≠ .closed → b ∈ c.session.closeWaiters

theorem parted_joined (wire : Wire) (now closeTimeout : Nat) (ids : IdSource) (id : Id)
    (realm : Uri) (details : Dictionary) :
    Parted [] (joined (Session.established wire now closeTimeout) ids id realm details) where
  fit := Session.fit_established wire now closeTimeout
  bare := fun _ asked => absurd asked List.not_mem_nil
  besides := fun _ asked => absurd asked List.not_mem_nil
  waits := fun _ asked => absurd asked List.not_mem_nil

theorem Parted.grows (parted : c.Parted past) (grows : c.Grows d) : d.Parted past := by
  obtain ⟨boxes, same⟩ := grows.session
  have heard : ∀ b, b ∉ d.session.gone → b ∉ c.session.gone := fun b here gone =>
    here (grows.gone gone)
  have parting : d.session.parting = c.session.parting := by rw [same]; rfl
  refine ⟨parting ▸ parted.fit, fun b asked here => ?_, fun b asked here => ?_, ?_⟩
  · rw [same]
    exact parted.bare b asked (heard b here)
  · rw [same]
    exact parted.besides b asked (heard b here)
  · rw [same]
    exact parted.waits

/-- The session takes something in, and maybe the first command with it. -/
theorem Parted.step (parted : c.Parted past) (books : Books past c) {input : Input}
    {commands : List Command} (queue : c.commands = cmds ++ commands)
    (comes : ∀ command ∈ cmds, input = .command command)
    (asks : ∀ b, input.feeds b = true → ∃ command ∈ cmds, command.feeds b = true) :
    Parted (past ++ cmds) { c with session := c.session.step input, commands } := by
  have sound := books.sound
  have among : ∀ command ∈ past ++ cmds, command ∈ past ++ c.commands := by
    rw [queue, ← List.append_assoc]
    exact fun command there => List.mem_append_left _ there
  have names : ∀ b, (Command.close (some b)).feeds b = true := by simp [Command.feeds]
  -- the box belongs to the one command, which is to leave
  have only : ∀ b, .close (some b) ∈ past ++ cmds → input.feeds b = true →
      input.closer? = some b := by
    intro b asked feeds
    obtain ⟨command, there, own⟩ := asks b feeds
    have same := books.unique (among _ asked) (among _ (List.mem_append_right _ there)) (names b)
      own
    rw [comes command there, ← same]
    rfl
  have before : ∀ b, .close (some b) ∈ past ++ cmds → b ∉ (c.session.step input).gone →
      c.session.Bare b ∧ c.session.besides b = [] := by
    intro b asked here
    have here' : b ∉ c.session.gone := fun gone =>
      here (Session.gone_of_mem_step sound input gone)
    by_cases old : .close (some b) ∈ past
    · exact ⟨parted.bare b old here', parted.besides b old here'⟩
    · obtain ⟨empty, blank⟩ := books.blank b (books.unfed (among _ asked) (names b) old)
      exact ⟨(blank here').routes, by rw [Session.besides, empty]; rfl⟩
  have spared : ∀ b, .close (some b) ∈ past ++ cmds →
      Session.Spared b c.session (c.session.step input) := fun b asked =>
    Session.spared_step sound (only b asked)
  refine ⟨Session.fit_step sound parted.fit input, fun b asked here => ?_,
    fun b asked here => ?_, fun b asked live => ?_⟩
  · exact (spared b asked (before b asked here).1).1
  · exact ((spared b asked (before b asked here).1).2).trans (before b asked here).2
  · refine Session.mem_closeWaiters_step sound parted.fit live ?_
    rcases List.mem_append.mp asked with old | new
    · refine Or.inl (parted.waits b old fun closed => live ?_)
      exact Session.closed_step closed input
    · rw [comes _ new]
      exact Or.inr rfl

theorem Parted.moves (parted : c.Parted past) (books : Books past c) (moves : c.Moves cmds d) :
    d.Parted (past ++ cmds) := by
  cases moves with
  | takes input outer heeds =>
    refine parted.step books (List.nil_append _).symm (by simp) fun b feeds => ?_
    cases input with
    | command command => exact absurd rfl (outer command)
    | _ => exact nomatch feeds
  | serves next =>
    exact parted.step books next (by simp) fun b feeds => ⟨_, List.mem_cons_self, feeds⟩
  | acts parts =>
    rw [List.append_nil]
    exact parted.grows (Parts.grows parts)
  | polls polls =>
    rw [List.append_nil]
    exact parted.grows polls.grows

theorem Parted.run (parted : c.Parted past) (books : Books past c) (ms : List Move) :
    (c.run ms).Parted (past ++ c.served ms) :=
  (run_of_moves (P := fun past c => c.Parted past ∧ Books past c) ⟨parted, books⟩
    (fun ⟨parted, books⟩ m => ⟨parted.moves books (Client.moves _ m),
      books.moves (Client.moves _ m)⟩) ms).1

theorem Leaves.run (leaves : c.Leaves past) (ms : List Move) :
    (c.run ms).Leaves (past ++ c.served ms) :=
  run_of_moves (P := fun past c => c.Leaves past) leaves
    (fun leaves m => leaves.moves (Client.moves _ m)) ms

/-! ### What comes of it -/

/-- Until the session has ended, the box of an operation that is to leave is empty. -/
theorem Parted.blank (parted : c.Parted past) (books : Books past c)
    (asked : .close (some b) ∈ past ++ c.commands) (here : b ∉ c.session.gone)
    (live : c.session.phase ≠ .closed) : c.session.postsTo b = [] ∧ c.feeds b = true := by
  have untold : c.session.told = [] := by
    by_contra told
    exact live (parted.fit.told told)
  by_cases old : .close (some b) ∈ past
  · refine ⟨?_, ?_⟩
    · rw [Session.postsTo_of_besides (parted.besides b old here), untold]
      rfl
    · have waits := Session.feeds_eq_true.mpr ⟨live, Or.inr (parted.waits b old live)⟩
      rw [feeds, waits, Bool.true_or]
  · have names : (Command.close (some b)).feeds b = true := by simp [Command.feeds]
    have queued := (List.mem_append.mp asked).resolve_left old
    have waits : (c.commands.any fun command => command.feeds b) = true :=
      List.any_eq_true.mpr ⟨_, queued, names⟩
    refine ⟨(books.blank b (books.unfed asked names old)).1, ?_⟩
    simp [feeds, waits, live]

theorem advance_leave (c : Client) (b : Box) :
    c.advance (.leave b) = (c.postAt b 0).map fun _ => (c, .inr .done) := rfl

theorem advance_leave_of_closed (closed : c.session.phase = .closed) (b : Box) :
    c.advance (.leave b) = some (c, .inr .done) := by
  have unfed : c.feeds b = false := by simp [feeds, Session.feeds, closed]
  rw [advance_leave, postAt]
  split
  · rfl
  · rw [unfed]
    rfl

theorem advance_leave_of_blank (empty : c.session.postsTo b = []) (fed : c.feeds b = true) :
    c.advance (.leave b) = none := by
  rw [advance_leave, postAt, empty, fed]
  rfl

/-- An operation that is to leave waits until the session has ended, and then it is done. -/
theorem poll_leave {task : Task} (orderly : c.Orderly) (there : task ∈ c.tasks)
    (leave : task.waiting = .leave b) (blank : c.session.phase ≠ .closed →
      c.session.postsTo b = [] ∧ c.feeds b = true) :
    c.poll task.number =
      if c.session.phase = .closed then (c.without task.number).conclude task.number .done
      else c := by
  rw [poll, orderly.find_task there]
  dsimp only
  rw [leave]
  by_cases closed : c.session.phase = .closed
  · rw [advance_leave_of_closed closed, if_pos closed]
    rfl
  · obtain ⟨empty, fed⟩ := blank closed
    rw [advance_leave_of_blank empty fed, if_neg closed]

/-- Closing cannot get stuck. A session that the program has left is closing, with a deadline that
does not move, and is closed when that is reached at the latest; who waits for the close is told of
it once, when the session has ended. For the program this means that it is done with leaving as
soon as the session is closed, and not before, and that nothing else can come of it. -/
theorem leaving_comes_through (wire : Wire) (now closeTimeout : Nat) :
    let s := Session.established wire now closeTimeout
    (∀ inputs : List Input, s.Closes inputs) ∧
    ∀ (ids : IdSource) (id : Id) (realm : Uri) (details : Dictionary) (moves : List Move),
      let c := (joined s ids id realm details).run moves
      (∀ task ∈ c.tasks, ∀ box, task.waiting = .leave box → c.poll task.number =
        if c.session.phase = .closed then (c.without task.number).conclude task.number .done
        else c) ∧
      ∀ number, c.session.phase = .closed → c.leave number = c.conclude number .done := by
  intro s
  have sound := Session.sound_established wire now closeTimeout
  have fit := Session.fit_established wire now closeTimeout
  refine ⟨Session.closes_run sound fit rfl rfl rfl, fun ids id realm details moves => ?_⟩
  have start := settled_joined wire now closeTimeout ids id realm details
  have settled := start.run moves
  have parted := parted_joined wire now closeTimeout ids id realm details
  have leaves : Leaves [] (joined s ids id realm details) := fun _ there =>
    absurd there List.not_mem_nil
  refine ⟨fun task there box leave => ?_, fun number closed => if_pos closed⟩
  have here := settled.orderly.heard there (b := box) (by simp [leave, Waiting.boxes])
  have asked := leaves.run moves task there box leave
  exact poll_leave settled.orderly there leave
    ((parted.run start.books moves).blank settled.books asked here)

/-- A GOODBYE that cannot be sent, whose sender is told of the close all the same; and one that is
not answered, whose sender waits until the deadline. -/
theorem leaving_comes_through_unanswered :
    let cut := Session.established (Wire.fresh fun n => if n = 0 then some "no route" else none) 0 9
    let t := cut.run [.command (.close (some 0))]
    let early := newcomer.run [.act 0 (.onSession .leave), .serve, .elapse 999]
    let late := newcomer.run [.act 0 (.onSession .leave), .serve, .elapse 999, .elapse 1]
    t.phase = .closed ∧ t.told.count 0 = 1 ∧
      early.session.phase = .closing ∧ early.poll 0 = early ∧
      late.session.phase = .closed ∧ late.poll 0 = (late.without 0).conclude 0 .done := by
  intro cut t early late
  have unsent := (leaving_comes_through
    (Wire.fresh fun n => if n = 0 then some "no route" else none) 0 9).1
      [.command (.close (some 0))]
  have waits := (leaving_comes_through (Wire.fresh fun _ => none) 0 1000).2 IdSource.initial Id.min
    ⟨"realm"⟩ []
  have closed : t.phase = .closed := by decide
  have open' : early.session.phase = .closing := by decide
  have closed' : late.session.phase = .closed := by decide
  refine ⟨closed, ?_, open', ?_, closed', ?_⟩
  · exact (unsent.tells closed 0 (by decide)).trans (by decide)
  · exact ((waits _).1 ⟨0, true, .leave 0⟩ List.mem_cons_self 0 rfl).trans
      (if_neg fun same => absurd (open'.symm.trans same) (by decide))
  · exact ((waits _).1 ⟨0, true, .leave 0⟩ List.mem_cons_self 0 rfl).trans (if_pos closed')

end WampClient.Client
