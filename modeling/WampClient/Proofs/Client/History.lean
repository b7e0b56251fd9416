import WampClient.Proofs.Client.Ownership
import WampClient.Proofs.Session.Provenance

/-! What has happened to a client so far. Every command has boxes of its own and is taken up once,
so that a box stays empty until the one command that names it is taken up; and what the session has
put into a box or holds as a route can be followed back to the move that brought it. -/
namespace WampClient.Client

variable {c d : Client} {m : Move} {ms : List Move} {past cmds : List Command} {b : Box}

/-! ### Moves as inputs -/

/-- What the session takes in because of a move. -/
def input? (c : Client) : Move → Option Input
  | .arrive a => some (.arrival a)
  | .elapse time => some (.elapse time)
  | .serve => c.commands.head?.map .command
  | _ => none

theorem session_move {input : Input} (takes : c.input? m = some input) :
    (c.move m).session = c.session.step input := by
  cases m with
  | arrive a =>
    obtain rfl := Option.some.inj takes
    rfl
  | elapse time =>
    obtain rfl := Option.some.inj takes
    rfl
  | serve =>
    rw [move, serve]
    cases next : c.commands with
    | nil => simp [input?, next] at takes
    | cons command rest =>
      obtain rfl : Input.command command = input := by simpa [input?, next] using takes
      rfl
  | _ => simp [input?] at takes

theorem queue_of_takes {input : Input} (takes : c.input? m = some input) :
    c.commands = c.taken m ++ (c.move m).commands := by
  cases m with
  | serve =>
    rw [taken, move, serve]
    cases next : c.commands with
    | nil => simp [input?, next] at takes
    | cons command rest => rfl
  | poll number => simp [input?] at takes
  | act number a => simp [input?] at takes
  | _ => rfl

theorem taken_of_quiet (quiet : c.input? m = none) : c.taken m = [] := by
  cases m with
  | serve =>
    rw [taken, List.head?_eq_none_iff.mpr]
    · rfl
    · cases next : c.commands with
      | nil => rfl
      | cons command rest => simp [input?, next] at quiet
  | _ => rfl

/-- Where the session takes nothing in, an operation is polled or the client does something on its
own. -/
theorem parts_move (own : c.input? m = none) :
    (∃ number, m = .poll number) ∨ Parts ⟨c, []⟩ ⟨c.move m, []⟩ := by
  cases m with
  | serve =>
    rw [move, serve]
    cases next : c.commands with
    | nil => exact Or.inr .refl
    | cons command rest => simp [input?, next] at own
  | poll number => exact Or.inl ⟨number, rfl⟩
  | act number a =>
    rw [move]
    split
    · exact Or.inr .refl
    next free =>
      have fresh : ∀ task ∈ c.tasks, task.number ≠ number := by simpa using free
      exact Or.inr (parts_act fresh a)
  | _ => simp [input?] at own

/-- Apart from what its session takes in, a client only grows. -/
theorem grows_move (own : c.input? m = none) : c.Grows (c.move m) := by
  rcases parts_move own with ⟨number, rfl⟩ | parts
  · exact (polls c number).grows
  · exact Parts.grows parts

theorem heeds_input {input : Input} (takes : c.input? m = some input) (box : Box) :
    input ≠ .forget box := by
  rintro rfl
  cases m with
  | serve => simp [input?] at takes
  | _ => simp [input?] at takes

/-- Nothing is asked of the session but what is in the queue. -/
theorem asked_input {input : Input} (takes : c.input? m = some input) :
    (∃ command ∈ c.commands, input = .command command) ∨
      ∀ command, input ≠ .command command := by
  cases m with
  | serve =>
    obtain ⟨command, head, rfl⟩ := Option.map_eq_some_iff.mp takes
    exact Or.inl ⟨command, List.mem_of_mem_head? head, rfl⟩
  | arrive a =>
    obtain rfl := Option.some.inj takes
    exact Or.inr fun _ same => nomatch same
  | elapse time =>
    obtain rfl := Option.some.inj takes
    exact Or.inr fun _ same => nomatch same
  | _ => simp [input?] at takes

theorem feeds_input {input : Input} (takes : c.input? m = some input)
    (asked : ∀ command ∈ c.commands, command.feeds b = false) : input.feeds b = false := by
  rcases asked_input takes with ⟨command, there, rfl⟩ | other
  · exact asked command there
  · cases input with
    | command command => exact absurd rfl (other command)
    | _ => rfl

theorem removes_input {input : Input} {h : Handle} (takes : c.input? m = some input)
    (spares : ∀ command ∈ c.commands, command.removes h = false) : input.removes h = false := by
  rcases asked_input takes with ⟨command, there, rfl⟩ | other
  · exact spares command there
  · cases input with
    | command command => exact absurd rfl (other command)
    | _ => rfl

/-! ### Splitting runs -/

theorem run_append (c : Client) (before after : List Move) :
    c.run (before ++ after) = (c.run before).run after := List.foldl_append

/-- What holds at the end of a run and did not at its start has come about in one of its moves. -/
theorem exists_first {P : Client → Prop} (final : P (c.run ms)) (start : ¬ P c) :
    ∃ before m after, ms = before ++ m :: after ∧ ¬ P (c.run before) ∧
      P ((c.run before).move m) := by
  induction ms generalizing c with
  | nil => exact absurd final start
  | cons m rest ih =>
    by_cases now : P (c.move m)
    · exact ⟨[], m, rest, rfl, start, now⟩
    · obtain ⟨before, m', after, rfl, not', comes⟩ := ih final now
      exact ⟨m :: before, m', after, rfl, not', comes⟩

/-- The commands that the session takes up in a run. -/
def served : Client → List Move → List Command
  | _, [] => []
  | c, m :: ms => c.taken m ++ served (c.move m) ms

/-- What every move keeps, with the commands that are taken up, a run keeps. -/
theorem run_of_moves {P : List Command → Client → Prop} (start : P past c)
    (keeps : ∀ {past : List Command} {c : Client}, P past c →
      ∀ m, P (past ++ c.taken m) (c.move m))
    (ms : List Move) : P (past ++ c.served ms) (c.run ms) := by
  induction ms generalizing c past with
  | nil => rwa [served, List.append_nil]
  | cons m rest ih =>
    rw [served, ← List.append_assoc]
    exact ih (keeps start m)

/-! ### The commands of a run -/

/-- What is known of a client when these commands have been taken up. -/
structure Books (past : List Command) (c : Client) : Prop where
  sound : c.session.Sound
  issued : Issued 0 c.nextBox (past ++ c.commands)
  blank : ∀ b, (∀ command ∈ past, command.feeds b = false) →
    c.session.postsTo b = [] ∧ (b ∉ c.session.gone → c.session.Blank b)
  removes : ∀ h, ∀ x ∈ c.session.router.routes, x.handler.removes h = true →
    ∃ command ∈ past, command.removes h = true
  telling : c.session.Telling

theorem books_joined (wire : Wire) (now closeTimeout : Nat) (ids : IdSource) (id : Id) (realm : Uri)
    (details : Dictionary) :
    Books [] (joined (Session.established wire now closeTimeout) ids id realm details) where
  sound := Session.sound_established wire now closeTimeout
  issued := issued_nil _ _
  blank b _ := ⟨rfl, fun _ => Session.blank_established wire now closeTimeout b⟩
  removes _ _ there := absurd there List.not_mem_nil
  telling := Session.telling_established wire now closeTimeout

theorem Books.grows (books : Books past c) (grows : c.Grows d) : Books past d := by
  obtain ⟨boxes, same⟩ := grows.session
  obtain ⟨new, commands, issued⟩ := grows.commands
  have sound := grows.sound books.sound
  have later : Issued 0 d.nextBox (past ++ d.commands) := by
    rw [commands, ← List.append_assoc]
    exact books.issued.append issued (Nat.zero_le _) grows.boxes
  obtain ⟨routes, posts⟩ : d.session.router = c.session.router ∧
      d.session.posts = c.session.posts := by
    rw [same]
    exact ⟨rfl, rfl⟩
  refine ⟨sound, later, fun b unasked => ?_, fun h x there => ?_, ?_⟩
  · obtain ⟨empty, blank⟩ := books.blank b unasked
    refine ⟨by rwa [same], fun heard => ?_⟩
    have still := blank fun gone => heard (grows.gone gone)
    rw [same]
    exact ⟨still.routes, still.waiters⟩
  · rw [routes] at there
    exact books.removes h x there
  · exact books.telling.congr (Nat.le_of_eq grows.lastHandle.symm) fun e there _ _ => posts ▸ there

/-- The session takes something in, and maybe the first command with it. -/
theorem Books.step (books : Books past c) {input : Input} {commands : List Command}
    (heeds : ∀ box, input ≠ .forget box)
    (asks : ∀ b, (∀ command ∈ cmds, command.feeds b = false) → input.feeds b = false)
    (removes : ∀ h, input.removes h = true → ∃ command ∈ cmds, command.removes h = true)
    (queue : c.commands = cmds ++ commands) :
    Books (past ++ cmds) { c with session := c.session.step input, commands } where
  sound := books.sound.step input
  issued := by
    rw [List.append_assoc, ← queue]
    exact books.issued
  blank b unasked := by
    obtain ⟨empty, blank⟩ := books.blank b
      fun command there => unasked command (List.mem_append_left _ there)
    by_cases gone : b ∈ c.session.gone
    · refine ⟨List.eq_nil_iff_forall_not_mem.mpr fun p told => ?_, fun heard =>
        absurd (Session.gone_of_mem_step books.sound input gone) heard⟩
      have old := (Session.heard_of_mem_step books.sound
        (Session.mem_postsTo.mp told)).resolve_right fun heard => heard gone
      rw [← Session.mem_postsTo, empty] at old
      exact absurd old List.not_mem_nil
    · have silent := asks b fun command there => unasked command (List.mem_append_right _ there)
      obtain ⟨blank', same⟩ := (blank gone).step books.sound gone silent heeds
      exact ⟨same.trans empty, fun _ => blank'⟩
  removes h x there own := by
    rcases Session.removes_origin_step books.sound there own with old | asked
    · obtain ⟨command, among, removes'⟩ := books.removes h x old own
      exact ⟨command, List.mem_append_left _ among, removes'⟩
    · obtain ⟨command, among, removes'⟩ := removes h asked
      exact ⟨command, List.mem_append_right _ among, removes'⟩
  telling := books.telling.step books.sound input

theorem Books.moves (books : Books past c) (moves : c.Moves cmds d) : Books (past ++ cmds) d := by
  cases moves with
  | takes input outer heeds =>
    refine books.step heeds (fun b _ => ?_) (fun h own => ?_) rfl
    · cases input with
      | command command => exact absurd rfl (outer command)
      | _ => rfl
    · cases input with
      | command command => exact absurd rfl (outer command)
      | _ => exact nomatch own
  | serves next =>
    exact books.step (by simp) (fun b silent => silent _ List.mem_cons_self)
      (fun h own => ⟨_, List.mem_cons_self, own⟩) next
  | acts parts =>
    rw [List.append_nil]
    exact books.grows (Parts.grows parts)
  | polls polls =>
    rw [List.append_nil]
    exact books.grows polls.grows

theorem Books.run (books : Books past c) (ms : List Move) :
    Books (past ++ c.served ms) (c.run ms) :=
  run_of_moves books (fun books m => books.moves (Client.moves _ m)) ms

theorem served_append (c : Client) (before after : List Move) :
    c.served (before ++ after) = c.served before ++ (c.run before).served after := by
  induction before generalizing c with
  | nil => rfl
  | cons m rest ih =>
    rw [List.cons_append, served, served, ih, List.append_assoc]
    rfl

/-- A command that was taken up in a run was the first in the queue then. -/
theorem exists_served {command : Command} (taken : command ∈ c.served ms) :
    ∃ before after rest, ms = before ++ .serve :: after ∧
      (c.run before).commands = command :: rest := by
  induction ms generalizing c with
  | nil => exact absurd taken List.not_mem_nil
  | cons m rest ih =>
    rcases List.mem_append.mp taken with first | later
    · cases m with
      | serve =>
        obtain ⟨tail, next⟩ := List.head?_eq_some_iff.mp (Option.mem_toList.mp first)
        exact ⟨[], rest, tail, rfl, next⟩
      | _ => exact absurd first List.not_mem_nil
    · obtain ⟨before, after, tail, rfl, next⟩ := ih later
      exact ⟨m :: before, after, tail, rfl, next⟩

/-- A box is named by one command only. -/
theorem Books.unique (books : Books past c) {command other : Command}
    (there : command ∈ past ++ c.commands) (there' : other ∈ past ++ c.commands)
    (feeds : command.feeds b = true) (feeds' : other.feeds b = true) : command = other :=
  eq_of_countP_le (books.issued.single b) there there' feeds feeds'

/-- No command that has been taken up feeds the box of one that has not. -/
theorem Books.unfed (books : Books past c) {command : Command}
    (asked : command ∈ past ++ c.commands) (feeds : command.feeds b = true) (new : command ∉ past) :
    ∀ other ∈ past, other.feeds b = false := by
  intro other there
  by_contra fed
  have same := books.unique (List.mem_append_left _ there) asked (by simpa using fed) feeds
  exact new (same ▸ there)

/-! ### Where an acceptance comes from -/

theorem posts_of_grows (grows : c.Grows d) : d.session.posts = c.session.posts := by
  obtain ⟨boxes, same⟩ := grows.session
  rw [same]

/-- A request was accepted when it was taken up. -/
theorem exists_serve (books : Books past c) {a : Box} {route : Handle}
    (there : (a, .accepted (.ok route)) ∈ (c.run ms).session.posts)
    (absent : (a, .accepted (.ok route)) ∉ c.session.posts) :
    ∃ before after message keys target rest, ms = before ++ .serve :: after ∧
      (c.run before).commands = .request message keys target (some a) :: rest ∧
      (c.run before).session.phase = .established ∧
      route = (c.run before).session.router.lastHandle + 1 ∧
      (a, .accepted (.ok route)) ∈ ((c.run before).move .serve).session.posts := by
  obtain ⟨before, m, after, rfl, not', comes⟩ :=
    exists_first (P := fun c => (a, .accepted (.ok route)) ∈ c.session.posts) there absent
  have sound := (books.run before).sound
  have told := comes
  generalize e : c.run before = d at *
  cases takes : d.input? m with
  | none =>
    rw [posts_of_grows (grows_move takes)] at comes
    exact absurd comes not'
  | some input =>
    rw [session_move takes] at comes
    rcases Session.accepted_of_mem_step sound comes with old |
      ⟨live, same, message, keys, target, rfl⟩
    · exact absurd old not'
    · cases m with
      | serve =>
        obtain ⟨command, head, same'⟩ := Option.map_eq_some_iff.mp takes
        obtain rfl := Input.command.inj same'
        obtain ⟨rest, next⟩ := List.head?_eq_some_iff.mp head
        exact ⟨before, after, message, keys, target, rest, rfl, by rw [e, next], by rw [e, live],
          by rw [e, same], by rwa [e]⟩
      | _ => simp [input?] at takes

end WampClient.Client
