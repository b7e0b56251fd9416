import WampClient.Proofs.Client.Loyalty
import WampClient.Proofs.Session.Known

/-! Requests in a run of a client. A box is waited on by one request at most, whose route nobody
but its waiter knows; so no operation hangs, and none is completed twice. -/
namespace WampClient.Client

variable {c d : Client} {cmds : List Command} {h : Handle} {b : Box} {input : Input}
  {x : Route Target}

/-- The commands that the session takes up in a move. -/
def taken (c : Client) : Move → List Command
  | .serve => c.commands.head?.toList
  | _ => []

/-- What a move does: something comes in, or the session takes up a command, or the client does
something on its own. -/
inductive Moves (c : Client) : List Command → Client → Prop where
  | takes (input : Input) (outer : ∀ command, input ≠ .command command)
      (heeds : ∀ box, input ≠ .forget box) : Moves c [] (c.take input)
  | serves {command : Command} {rest : List Command} (next : c.commands = command :: rest) :
      Moves c [command] { c with session := c.session.step (.command command), commands := rest }
  | acts {d : Client} (parts : Parts ⟨c, []⟩ ⟨d, []⟩) : Moves c [] d
  | polls {number : Nat} {d : Client} (polls : c.Polls number d) : Moves c [] d

theorem moves (c : Client) (m : Move) : c.Moves (c.taken m) (c.move m) := by
  cases m with
  | arrive a => exact .takes (.arrival a) (by simp) (by simp)
  | elapse time => exact .takes (.elapse time) (by simp) (by simp)
  | serve =>
    rw [move, serve, taken]
    split
    next none' =>
      rw [none']
      exact .acts .refl
    next command rest next =>
      rw [next]
      exact .serves next
  | poll number => exact .polls (polls c number)
  | act number a =>
    rw [move]
    split
    · exact .acts .refl
    next free =>
      have fresh : ∀ task ∈ c.tasks, task.number ≠ number := by simpa using free
      exact .acts (parts_act fresh a)

/-! ### The session of a client -/

theorem Grows.sound (grows : c.Grows d) (sound : c.session.Sound) : d.session.Sound := by
  obtain ⟨boxes, same⟩ := grows.session
  rw [same]
  exact sound.congr rfl rfl

theorem Grows.lastHandle (grows : c.Grows d) :
    d.session.router.lastHandle = c.session.router.lastHandle := by
  obtain ⟨boxes, same⟩ := grows.session
  rw [same]

theorem Grows.idle (grows : c.Grows d) (idle : Session.Work.Idle b ⟨c.session, []⟩) :
    Session.Work.Idle b ⟨d.session, []⟩ := by
  obtain ⟨boxes, same⟩ := grows.session
  rw [same]
  exact ⟨idle.routes, idle.errands, idle.posts⟩

theorem Grows.owes (grows : c.Grows d) (owes : Session.Work.Owes x b ⟨c.session, []⟩)
    (heard : b ∉ d.session.gone) : Session.Work.Owes x b ⟨d.session, []⟩ := by
  obtain ⟨boxes, same⟩ := grows.session
  rw [same] at heard ⊢
  exact { owes with
    heard := heard
    spares := ⟨owes.spares.routes, owes.spares.errands, owes.spares.interrupts⟩ }

theorem Moves.sound (moves : c.Moves cmds d) (sound : c.session.Sound) : d.session.Sound := by
  cases moves with
  | takes input outer heeds => exact sound.step input
  | serves next => exact sound.step (.command _)
  | acts parts => exact Grows.sound parts.grows sound
  | polls polls => exact polls.grows.sound sound

/-- What was queued up has been taken up, or is still there. -/
theorem Moves.queue (moves : c.Moves cmds d) : c.commands <+: cmds ++ d.commands := by
  cases moves with
  | takes input outer heeds => exact List.prefix_rfl
  | serves next => exact next ▸ List.prefix_rfl
  | acts parts =>
    obtain ⟨new, commands, -⟩ := (Parts.grows parts).commands
    exact ⟨new, commands.symm⟩
  | polls polls =>
    obtain ⟨new, commands, -⟩ := polls.grows.commands
    exact ⟨new, commands.symm⟩

theorem Moves.lastHandle_le (moves : c.Moves cmds d) (sound : c.session.Sound) :
    c.session.router.lastHandle ≤ d.session.router.lastHandle := by
  cases moves with
  | takes input outer heeds => exact Session.lastHandle_step sound input
  | serves next => exact Session.lastHandle_step sound _
  | acts parts => exact Nat.le_of_eq (Grows.lastHandle parts.grows).symm
  | polls polls => exact Nat.le_of_eq polls.grows.lastHandle.symm

theorem Moves.gone (moves : c.Moves cmds d) (sound : c.session.Sound) {box : Box}
    (there : box ∈ c.session.gone) : box ∈ d.session.gone := by
  cases moves with
  | takes input outer heeds => exact Session.gone_of_mem_step sound input there
  | serves next => exact Session.gone_of_mem_step sound _ there
  | acts parts => exact Grows.gone parts.grows there
  | polls polls => exact polls.grows.gone there

theorem sound_run (sound : c.session.Sound) (ms : List Move) : (c.run ms).session.Sound := by
  induction ms generalizing c with
  | nil => exact sound
  | cons m rest ih => exact ih ((moves c m).sound sound)

theorem lastHandle_run (sound : c.session.Sound) (ms : List Move) :
    c.session.router.lastHandle ≤ (c.run ms).session.router.lastHandle := by
  induction ms generalizing c with
  | nil => exact Nat.le_refl _
  | cons m rest ih =>
    exact Nat.le_trans ((moves c m).lastHandle_le sound) (ih ((moves c m).sound sound))

theorem gone_run (sound : c.session.Sound) (ms : List Move) {box : Box}
    (there : box ∈ c.session.gone) : box ∈ (c.run ms).session.gone := by
  induction ms generalizing c with
  | nil => exact there
  | cons m rest ih => exact ih ((moves c m).sound sound) ((moves c m).gone sound there)

/-! ### Loyalty -/

/-- A step of the session makes nobody disloyal: the routes that it makes known are all new. -/
theorem Loyal.step (loyal : c.Loyal h b) (sound : c.session.Sound) (asks : input.removes h = false)
    (settled : h ≤ c.session.router.lastHandle ∨ (c.session.step input).router.lastHandle < h)
    {commands : List Command} (left : ∀ command ∈ commands, command ∈ c.commands) :
    Client.Loyal h b { c with session := c.session.step input, commands } where
  session := loyal.session.step sound asks settled
  posts box p there known := by
    rcases Session.route_known_step sound there known with old | ⟨low, high⟩
    · exact loyal.posts box p old known
    · rcases settled with given | upcoming
      · exact absurd given (Nat.not_le_of_lt low)
      · exact absurd upcoming (Nat.not_lt_of_le high)
  commands command there := loyal.commands command (left command there)
  tickets := loyal.tickets
  tasks := loyal.tasks

theorem Loyal.moves (loyal : c.Loyal h b) (sound : c.session.Sound) (moves : c.Moves cmds d)
    (settled : h ≤ c.session.router.lastHandle ∨ d.session.router.lastHandle < h)
    (heard : b ∉ d.session.gone) : d.Loyal h b := by
  cases moves with
  | takes input outer heeds =>
    refine loyal.step sound ?_ settled fun _ there => there
    cases input with
    | command command => exact absurd rfl (outer command)
    | _ => rfl
  | @serves command rest next =>
    have spares := loyal.commands command (by rw [next]; exact List.mem_cons_self)
    have asks : (Input.command command).removes h = false := spares
    refine loyal.step sound asks settled fun other there => ?_
    rw [next]
    exact List.mem_cons_of_mem _ there
  | acts parts =>
    have start : Work.Loyal h b ⟨c, []⟩ := ⟨loyal, fun _ there => absurd there List.not_mem_nil⟩
    exact (start.parts parts heard).client
  | polls polls => exact loyal.polls polls heard

/-- The route is not given out before the end of the run, and the box not let go of. -/
theorem Loyal.run (loyal : c.Loyal h b) (sound : c.session.Sound) {ms : List Move}
    (upcoming : (c.run ms).session.router.lastHandle < h) (heard : b ∉ (c.run ms).session.gone) :
    (c.run ms).Loyal h b := by
  induction ms generalizing c with
  | nil => exact loyal
  | cons m rest ih =>
    have sound' := (Client.moves c m).sound sound
    have soon := Nat.lt_of_le_of_lt (lastHandle_run sound' rest) upcoming
    have still : b ∉ (c.move m).session.gone := fun gone => heard (gone_run sound' rest gone)
    exact ih (loyal.moves sound (Client.moves c m) (Or.inr soon) still) sound' upcoming heard

theorem loyal_joined (wire : Wire) (now closeTimeout : Nat) (ids : IdSource) (id : Id) (realm : Uri)
    (details : Dictionary) (h : Handle) (b : Box) :
    (joined (Session.established wire now closeTimeout) ids id realm details).Loyal h b where
  session := Session.spares_established wire now closeTimeout h
  posts _ _ there := absurd there List.not_mem_nil
  commands _ there := absurd there List.not_mem_nil
  tickets _ there := absurd there List.not_mem_nil
  tasks _ there := absurd there List.not_mem_nil

/-! ### Before the request -/

/-- At most one request is about to wait on the box, and until it does nothing else has. -/
structure Awaits (b : Box) (c : Client) : Prop where
  unborn : c.nextBox ≤ b → ∀ command ∈ c.commands, command.waiter? ≠ some b
  idle : c.nextBox ≤ b ∨ (∃ command ∈ c.commands, command.waiter? = some b) →
    Session.Work.Idle b ⟨c.session, []⟩
  follows : ∀ command ∈ c.commands, ∀ a, command.waiter? = some b → command.answer? = some a →
    b = a + 1
  single : asking c.commands b ≤ 1

theorem awaits_joined (wire : Wire) (now closeTimeout : Nat) (ids : IdSource) (id : Id)
    (realm : Uri) (details : Dictionary) (b : Box) :
    (joined (Session.established wire now closeTimeout) ids id realm details).Awaits b where
  unborn := fun _ _ there => absurd there List.not_mem_nil
  idle := fun _ => Session.idle_established wire now closeTimeout b
  follows := fun _ there => absurd there List.not_mem_nil
  single := Nat.zero_le _

theorem Awaits.grows (awaits : c.Awaits b) (grows : c.Grows d) : d.Awaits b := by
  obtain ⟨new, commands, issued⟩ := grows.commands
  have either : ∀ command ∈ d.commands, command ∈ c.commands ∨ command ∈ new := by
    rw [commands]
    exact fun command there => List.mem_append.mp there
  exact {
    unborn := by
      intro le command there waits
      rcases either command there with old | there
      · exact awaits.unborn (Nat.le_trans grows.boxes le) command old waits
      · exact absurd (issued.born there waits).2 (Nat.not_lt_of_le le)
    idle := by
      intro early
      refine grows.idle (awaits.idle ?_)
      rcases early with le | ⟨command, there, waits⟩
      · exact Or.inl (Nat.le_trans grows.boxes le)
      · rcases either command there with old | there
        · exact Or.inr ⟨command, old, waits⟩
        · exact Or.inl (issued.born there waits).1
    follows := fun command there a => (either command there).elim
      (fun old => awaits.follows command old a) fun there => issued.follows command there b a
    single := by
      rw [commands, asking_append]
      by_cases later : ∃ command ∈ new, command.waiter? = some b
      · obtain ⟨command, there, waits⟩ := later
        have none' : asking c.commands b = 0 := by
          rw [← Nat.le_zero]
          refine Nat.le_of_not_lt fun asked => ?_
          obtain ⟨other, old, waits'⟩ := asking_pos.mp asked
          exact awaits.unborn (issued.born there waits).1 other old waits'
        rw [none', Nat.zero_add]
        exact Nat.le_trans (asking_le_feeding new b) (issued.single b)
      · have none' : asking new b = 0 := Nat.le_zero.mp (Nat.le_of_not_lt fun asked =>
          later (asking_pos.mp asked))
        rw [none', Nat.add_zero]
        exact awaits.single }

theorem asking_cons (command : Command) (rest : List Command) (b : Box) :
    asking (command :: rest) b = asking rest b + (command.waiter? == some b).toNat := by
  rw [asking, asking, List.countP_cons]
  cases command.waiter? == some b <;> rfl

/-- What the session takes up is not asked for once more. -/
theorem Awaits.rest (awaits : c.Awaits b) {command : Command} {rest : List Command}
    (next : c.commands = command :: rest) (waits : command.waiter? = some b) :
    ∀ other ∈ rest, other.waiter? ≠ some b := by
  intro other there waits'
  have single := awaits.single
  have more : 0 < asking rest b := asking_pos.mpr ⟨other, there, waits'⟩
  rw [next, asking_cons, waits, beq_self_eq_true] at single
  exact absurd single (by simpa using Nat.pos_iff_ne_zero.mp more)

theorem Awaits.moves (awaits : c.Awaits b) (sound : c.session.Sound) (moves : c.Moves cmds d) :
    d.Awaits b := by
  cases moves with
  | takes input outer heeds =>
    refine { awaits with idle := fun early => (awaits.idle early).step sound ?_ }
    cases input with
    | command command => exact absurd rfl (outer command)
    | _ => simp [Input.waiter?]
  | @serves command rest next =>
    have mine : command ∈ c.commands := by
      rw [next]
      exact List.mem_cons_self
    have old : ∀ other ∈ rest, other ∈ c.commands := by
      rw [next]
      exact fun other there => List.mem_cons_of_mem _ there
    exact {
      unborn := fun le other there => awaits.unborn le other (old other there)
      idle := by
        intro early
        have before : Session.Work.Idle b ⟨c.session, []⟩ :=
          awaits.idle (early.imp_right fun ⟨other, there, waits⟩ => ⟨other, old other there, waits⟩)
        have other : (Input.command command).waiter? ≠ some b := by
          intro waits
          rcases early with le | ⟨other, there, waits'⟩
          · exact awaits.unborn le command mine waits
          · exact awaits.rest next waits other there waits'
        exact before.step sound other
      follows := fun other there => awaits.follows other (old other there)
      single := by
        have single := awaits.single
        rw [next, asking_cons] at single
        exact Nat.le_trans (Nat.le_add_right _ _) single }
  | acts parts => exact awaits.grows parts.grows
  | polls polls => exact awaits.grows polls.grows

theorem Awaits.run (awaits : c.Awaits b) (sound : c.session.Sound) (ms : List Move) :
    (c.run ms).Awaits b := by
  induction ms generalizing c with
  | nil => exact awaits
  | cons m rest ih =>
    exact ih (awaits.moves sound (Client.moves c m)) ((Client.moves c m).sound sound)

/-! ### The request and after -/

/-- The session owes an answer to the request, and the client leaves the two alone. -/
structure Keeps (x : Route Target) (b : Box) (c : Client) : Prop where
  owes : Session.Work.Owes x b ⟨c.session, []⟩
  loyal : c.Loyal x.handle b
  born : b < c.nextBox
  asked : ∀ command ∈ c.commands, command.waiter? ≠ some b

theorem keeps_serve (awaits : c.Awaits b) (sound : c.session.Sound)
    (live : c.session.phase = .established) {m : Message} {keys : List RouteKey} {target : Target}
    {answer : Option Box} {rest : List Command}
    (next : c.commands = .request m keys target answer :: rest)
    (waits : target.waiter? = some b) (loyal : c.Loyal (c.session.router.lastHandle + 1) b)
    (heard : b ∉ c.session.gone) :
    (c.move .serve).Keeps ⟨c.session.router.lastHandle + 1, keys, target⟩ b := by
  have mine : Command.request m keys target answer ∈ c.commands := by
    rw [next]
    exact List.mem_cons_self
  have served : c.move .serve =
      { c with
        session := c.session.step (.command (.request m keys target answer))
        commands := rest } := by
    rw [move, serve]
    split
    next none' => simp [next] at none'
    next same =>
      obtain ⟨rfl, rfl⟩ := List.cons.inj (next.symm.trans same)
      rfl
  have owes := Session.owes_step sound live (awaits.idle (Or.inr ⟨_, mine, waits⟩)) heard m keys
    answer waits loyal.session (loyal.commands _ mine)
  rw [served]
  exact {
    owes := owes
    loyal := {
      session := owes.spares
      posts := by
        intro box p there known
        rcases Session.route_known_request there known with old | ⟨-, asked, same⟩
        · exact loyal.posts box p old known
        · exact ⟨same, awaits.follows _ mine box waits asked⟩
      commands := by
        intro other there
        refine loyal.commands other ?_
        rw [next]
        exact List.mem_cons_of_mem _ there
      tickets := loyal.tickets
      tasks := loyal.tasks }
    born := Nat.lt_of_not_le fun le => awaits.unborn le _ mine waits
    asked := awaits.rest next waits }

theorem Keeps.grows (keeps : c.Keeps x b) (grows : c.Grows d) (loyal : d.Loyal x.handle b)
    (heard : b ∉ d.session.gone) : d.Keeps x b := by
  refine ⟨grows.owes keeps.owes heard, loyal, Nat.lt_of_lt_of_le keeps.born grows.boxes, ?_⟩
  intro command there waits
  obtain ⟨new, commands, issued⟩ := grows.commands
  rw [commands] at there
  rcases List.mem_append.mp there with old | there
  · exact keeps.asked command old waits
  · exact absurd keeps.born (Nat.not_lt_of_le (issued.born there waits).1)

theorem Keeps.moves (keeps : c.Keeps x b) (sound : c.session.Sound) (moves : c.Moves cmds d)
    (heard : b ∉ d.session.gone) : d.Keeps x b := by
  have loyal := keeps.loyal.moves sound moves (Or.inl keeps.owes.given) heard
  cases moves with
  | takes input outer heeds =>
    have spares : input.Spares x.handle b := by
      cases input with
      | command command => exact absurd rfl (outer command)
      | _ => exact ⟨by simp [Input.waiter?], rfl, heeds b⟩
    exact ⟨keeps.owes.step sound spares, loyal, keeps.born, keeps.asked⟩
  | @serves command rest next =>
    have mine : command ∈ c.commands := by
      rw [next]
      exact List.mem_cons_self
    have spares : (Input.command command).Spares x.handle b :=
      ⟨keeps.asked command mine, keeps.loyal.commands command mine, fun same => nomatch same⟩
    refine ⟨keeps.owes.step sound spares, loyal, keeps.born, fun other there => ?_⟩
    refine keeps.asked other ?_
    rw [next]
    exact List.mem_cons_of_mem _ there
  | acts parts => exact keeps.grows parts.grows loyal heard
  | polls polls => exact keeps.grows polls.grows loyal heard

theorem Keeps.run (keeps : c.Keeps x b) (sound : c.session.Sound) {ms : List Move}
    (heard : b ∉ (c.run ms).session.gone) : (c.run ms).Keeps x b := by
  induction ms generalizing c with
  | nil => exact keeps
  | cons m rest ih =>
    have sound' := (Client.moves c m).sound sound
    have still : b ∉ (c.move m).session.gone := fun gone => heard (gone_run sound' rest gone)
    exact ih (keeps.moves sound (Client.moves c m) still) sound' heard

/-- A request that the session takes up in a run, of a client that has asked for nothing yet. -/
theorem keeps_of_serve (sound : c.session.Sound) (awaits : c.Awaits b) (loyal : ∀ h, c.Loyal h b)
    {before : List Move} {m : Message} {keys : List RouteKey} {target : Target}
    {answer : Option Box} {rest : List Command}
    (next : (c.run before).commands = .request m keys target answer :: rest)
    (live : (c.run before).session.phase = .established) (waits : target.waiter? = some b)
    (heard : b ∉ (c.run before).session.gone) :
    ((c.run before).move .serve).Keeps
      ⟨(c.run before).session.router.lastHandle + 1, keys, target⟩ b :=
  keeps_serve (awaits.run sound before) (sound_run sound before) live next waits
    ((loyal _).run sound (Nat.lt_succ_self _) heard) heard

/-- In a run of a client nobody but the waiter of a request can get at its box or its route. -/
theorem run_accounts (wire : Wire) (now closeTimeout : Nat) (ids : IdSource) (id : Id) (realm : Uri)
    (details : Dictionary) {before after : List Move} {m : Message} {keys : List RouteKey}
    {target : Target} {answer : Option Box} {rest : List Command} {b : Box}
    (waits : target.waiter? = some b) :
    let c := (joined (Session.established wire now closeTimeout) ids id realm details).run before
    let d := (c.move .serve).run after
    c.commands = .request m keys target answer :: rest → c.session.phase = .established →
    b ∉ d.session.gone →
    d.session.Accounts ⟨c.session.router.lastHandle + 1, keys, target⟩ b := by
  intro c d next live heard
  have start := Session.sound_established wire now closeTimeout
  have sound : c.session.Sound := sound_run start before
  have sound' := (Client.moves c .serve).sound sound
  have still : b ∉ c.session.gone := fun gone =>
    heard (gone_run sound' after ((Client.moves c .serve).gone sound gone))
  have keeps := keeps_of_serve start (awaits_joined wire now closeTimeout ids id realm details b)
    (fun h => loyal_joined wire now closeTimeout ids id realm details h b) next live waits still
  exact (keeps.run sound' heard).owes.accounts

/-- No operation hangs, and none is completed twice. A request that was accepted is accounted for
at any time: in a run of a session where nobody else waits on the box of the request or takes out
its route, and in every run of a client, as long as its waiter is still there. -/
theorem requests_account (wire : Wire) (now closeTimeout : Nat) (m : Message)
    (keys : List RouteKey) {target : Target} (answer : Option Box) {b : Box}
    (waits : target.waiter? = some b) :
    (∀ before after : List Input,
      let s := (Session.established wire now closeTimeout).run before
      let x : Route Target := ⟨s.router.lastHandle + 1, keys, target⟩
      s.phase = .established → target.removes x.handle = false →
      (∀ input ∈ before ++ after, input.Spares x.handle b) →
      ((s.step (.command (.request m keys target answer))).run after).Accounts x b) ∧
    ∀ (ids : IdSource) (id : Id) (realm : Uri) (details : Dictionary) (before after : List Move)
      (rest : List Command),
      let c := (joined (Session.established wire now closeTimeout) ids id realm details).run before
      let d := (c.move .serve).run after
      c.commands = .request m keys target answer :: rest → c.session.phase = .established →
      b ∉ d.session.gone →
      d.session.Accounts ⟨c.session.router.lastHandle + 1, keys, target⟩ b :=
  ⟨fun _ _ => Session.request_accounts wire now closeTimeout m keys answer waits,
    fun ids id realm details _ _ _ => run_accounts wire now closeTimeout ids id realm details waits⟩

/-- A call that is answered, and one that the session's end leaves without an answer. -/
theorem requests_account_call :
    let request : Command :=
      .request (.call Id.min [] ⟨"a"⟩ Payload.empty) (callKeys Id.min) (.call 1) (some 0)
    let s := Session.established (Wire.fresh fun _ => none) 0 1000
    let c := (joined s IdSource.initial Id.min ⟨"realm"⟩ []).run
      [.act 0 (.onSession (.call "a" Payload.empty ⟨false, none⟩ (some "t")))]
    let d := (c.move .serve).run
      [.poll 0, .arrive (.item (.message (.result Id.min [] Payload.empty)))]
    ((s.step (.command request)).run [.orphaned, .arrival .ended]).Accounts
        ⟨1, callKeys Id.min, .call 1⟩ 1 ∧
      c.session.phase = .established ∧ 1 ∉ d.session.gone ∧ (d.session.lasts 1).length = 1 ∧
      d.session.Accounts ⟨1, callKeys Id.min, .call 1⟩ 1 := by
  intro request s c d
  have waits : (Target.call 1).waiter? = some 1 := rfl
  have both := requests_account (Wire.fresh fun _ => none) 0 1000
    (.call Id.min [] ⟨"a"⟩ Payload.empty) (callKeys Id.min) (some 0) waits
  have spares : ∀ input ∈ [Input.orphaned, .arrival .ended], input.Spares 1 1 := by
    intro input there
    rcases List.mem_pair.mp there with rfl | rfl
    · exact ⟨by simp [Input.waiter?], rfl, by simp⟩
    · exact ⟨by simp [Input.waiter?], rfl, by simp⟩
  have heard : 1 ∉ d.session.gone := by decide
  have ended := both.1 [] [.orphaned, .arrival .ended] rfl rfl spares
  have live : c.session.phase = .established := by decide
  have told : (d.session.lasts 1).length = 1 := by decide
  refine ⟨ended, live, heard, told, ?_⟩
  exact both.2 IdSource.initial Id.min ⟨"realm"⟩ [] _ _ [] rfl rfl heard

end WampClient.Client
