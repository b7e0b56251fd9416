import WampClient.Proofs.Client.Origins

/-! What comes into a box in the course of a run. From the time that its route is there until the
route is cut off, the box takes what the route gives it of the messages that are heard, in order;
the session's end adds what is due to the route, and once the route is gone nothing follows. -/
namespace WampClient

/-- What a route gives its box of a message. -/
def Route.gives (x : Route Target) (m : Message) : Option Item :=
  if x.takes (RouteKey.ofMessage m) then x.handler.item? m else none

namespace Client

/-- The message that the session handles in a move. A session that is over handles none. -/
def hears (c : Client) : Move → Option Message
  | .arrive (.item (.message m)) => if c.session.phase = .closed then none else some m
  | _ => none

/-- The messages that the session handles in a run. -/
def heard : Client → List Move → List Message
  | _, [] => []
  | c, m :: ms => (c.hears m).toList ++ heard (c.move m) ms

/-- Whether the move makes an end of the route while the session goes on: its last message comes, or
it is taken out. -/
def cuts (x : Route Target) (c : Client) (m : Move) : Bool :=
  (c.hears m).any (fun came => x.takes (RouteKey.ofMessage came) && !x.handler.keeps came) ||
    (c.session.phase != .closed && (c.input? m).any (c.session.withdraws x.handle))

/-- Whether the route is cut off in the run. -/
def isCut (x : Route Target) : Client → List Move → Bool
  | _, [] => false
  | c, m :: ms => c.cuts x m || isCut x (c.move m) ms

/-- The messages that the session handles up to the move that cuts the route off. -/
def window (x : Route Target) : Client → List Move → List Message
  | _, [] => []
  | c, m :: ms => (c.hears m).toList ++ if c.cuts x m then [] else window x (c.move m) ms

variable {c d : Client} {m : Move} {ms : List Move} {x : Route Target} {b : Box}

theorem heard_append (c : Client) (before after : List Move) :
    c.heard (before ++ after) = c.heard before ++ (c.run before).heard after := by
  induction before generalizing c with
  | nil => rfl
  | cons m rest ih =>
    rw [List.cons_append, Client.heard, Client.heard, ih, List.append_assoc]
    rfl

theorem heard_concat (live : (c.run ms).session.phase ≠ .closed) (came : Message) :
    c.heard (ms ++ [.arrive (.item (.message came))]) = c.heard ms ++ [came] := by
  rw [heard_append, Client.heard, Client.heard, hears, if_neg live]
  rfl

/-- A route that is cut off in a run is cut off in one of its moves. -/
theorem exists_cuts (cut : c.isCut x ms = true) :
    ∃ early m late, ms = early ++ m :: late ∧ (c.run early).cuts x m = true := by
  induction ms generalizing c with
  | nil => exact nomatch cut
  | cons m rest ih =>
    rcases Bool.or_eq_true_iff.mp cut with now | later
    · exact ⟨[], m, rest, rfl, now⟩
    · obtain ⟨early, m', late, rfl, cuts⟩ := ih later
      exact ⟨m :: early, m', late, rfl, cuts⟩

/-! ### Boxes that no command names -/

/-- The box was given out, and no command asks for anything to be put into it. -/
structure Aside (b : Box) (c : Client) : Prop where
  given : b < c.nextBox
  asked : ∀ command ∈ c.commands, command.feeds b = false

theorem Aside.grows (aside : c.Aside b) (grows : c.Grows d) : d.Aside b where
  given := Nat.lt_of_lt_of_le aside.given grows.boxes
  asked command there := by
    obtain ⟨new, commands, issued⟩ := grows.commands
    rw [commands] at there
    rcases List.mem_append.mp there with old | fresh
    · exact aside.asked command old
    · by_contra feeds
      have low := (issued.fresh command fresh b (by simpa using feeds)).1
      exact absurd aside.given (Nat.not_lt_of_le low)

theorem Aside.moves {cmds : List Command} (aside : c.Aside b) (moves : c.Moves cmds d) :
    d.Aside b := by
  cases moves with
  | takes input outer heeds => exact ⟨aside.given, aside.asked⟩
  | serves next =>
    refine ⟨aside.given, fun command there => aside.asked command ?_⟩
    rw [next]
    exact List.mem_cons_of_mem _ there
  | acts parts => exact aside.grows (Parts.grows parts)
  | polls polls => exact aside.grows polls.grows

theorem Aside.move (aside : c.Aside b) (m : Move) : (c.move m).Aside b :=
  aside.moves (Client.moves c m)

theorem sound_move (sound : c.session.Sound) (m : Move) : (c.move m).session.Sound :=
  (moves c m).sound sound

theorem posts_prefix_run (sound : c.session.Sound) (ms : List Move) :
    c.session.posts <+: (c.run ms).session.posts := by
  induction ms generalizing c with
  | nil => exact List.prefix_rfl
  | cons m rest ih =>
    refine List.IsPrefix.trans ?_ (ih (sound_move sound m))
    cases takes : c.input? m with
    | none => exact posts_of_grows (grows_move takes) ▸ List.prefix_rfl
    | some input => exact session_move takes ▸ Session.posts_prefix_step sound input

theorem not_gone_of_run (sound : c.session.Sound) (heard : b ∉ (c.run ms).session.gone) :
    b ∉ c.session.gone := fun gone => heard (gone_run sound ms gone)

/-- What was put into a box stays there. -/
theorem told_run (sound : c.session.Sound) (ms : List Move) {e : Box × Post}
    (there : e ∈ c.session.posts) : e ∈ (c.run ms).session.posts :=
  (posts_prefix_run sound ms).subset there

theorem outlook_grows (grows : c.Grows d) (b : Box) :
    d.session.outlook b = c.session.outlook b ∧ d.session.router = c.session.router ∧
      d.session.closeWaiters = c.session.closeWaiters := by
  obtain ⟨boxes, same⟩ := grows.session
  rw [same]
  exact ⟨rfl, rfl, rfl⟩

theorem sole_grows (grows : c.Grows d) (sole : c.session.Sole x b) (heard : b ∉ d.session.gone) :
    d.session.Sole x b := by
  obtain ⟨-, router, waiters⟩ := outlook_grows grows b
  exact ⟨grows.sound sole.sound, router ▸ sole.routes, waiters ▸ sole.waiters, heard⟩

theorem phase_grows (grows : c.Grows d) : d.session.phase = c.session.phase := by
  obtain ⟨boxes, same⟩ := grows.session
  rw [same]

/-- Nothing more comes into a box that is fed no more. -/
theorem frozen_move (aside : c.Aside b) (sound : c.session.Sound)
    (unfed : c.session.feeds b = false) (heard : b ∉ (c.move m).session.gone) :
    (c.move m).session.postsTo b = c.session.postsTo b ∧ (c.move m).session.feeds b = false := by
  cases takes : c.input? m with
  | none =>
    have same := (outlook_grows (grows_move takes) b).1
    exact ⟨congrArg Outlook.posts same, (congrArg Outlook.fed same).trans unfed⟩
  | some input =>
    rw [session_move takes] at heard ⊢
    by_cases live : c.session.phase = .closed
    · rw [Session.step_closed live (heeds_input takes)]
      exact ⟨rfl, unfed⟩
    · have here : b ∉ c.session.gone := fun gone =>
        heard (Session.gone_of_mem_step sound input gone)
      obtain ⟨blank, same⟩ := (Session.blank_of_not_feeds live unfed).step sound here
        (feeds_input takes aside.asked) (heeds_input takes)
      exact ⟨same, blank.not_feeds⟩

theorem frozen_run (aside : c.Aside b) (sound : c.session.Sound) (unfed : c.session.feeds b = false)
    (heard : b ∉ (c.run ms).session.gone) :
    (c.run ms).session.postsTo b = c.session.postsTo b ∧ (c.run ms).session.feeds b = false := by
  induction ms generalizing c with
  | nil => exact ⟨rfl, unfed⟩
  | cons m rest ih =>
    have sound' := sound_move sound m
    obtain ⟨same, unfed'⟩ := frozen_move aside sound unfed (not_gone_of_run sound' heard)
    obtain ⟨same', unfed''⟩ := ih (aside.move m) sound' unfed' heard
    exact ⟨same'.trans same, unfed''⟩

/-! ### The route is there -/

/-- One route alone feeds the box. -/
structure Tends (x : Route Target) (b : Box) (c : Client) : Prop where
  sole : c.session.Sole x b
  aside : c.Aside b

/-- Nobody takes the route out, or it would make no difference to what it is due. -/
def Free (x : Route Target) (b : Box) (c : Client) : Prop :=
  (∀ f, x.handler.lastPostsTo b f = []) ∨ c.Keeps x b

theorem Free.withdraws (free : Free x b c) {input : Input} (takes : c.input? m = some input) :
    (∀ f, x.handler.lastPostsTo b f = []) ∨ c.session.withdraws x.handle input = false := by
  refine free.imp_right fun keeps => ?_
  exact Session.not_withdraws keeps.loyal.session.routes (removes_input takes keeps.loyal.commands)

theorem Free.move (free : Free x b c) (sound : c.session.Sound)
    (heard : b ∉ (c.move m).session.gone) : Free x b (c.move m) :=
  free.imp_right fun keeps => keeps.moves sound (Client.moves c m) heard

theorem hears_of_takes {input : Input} {came : Message} (takes : c.input? m = some input)
    (live : c.session.phase ≠ .closed) :
    c.hears m = some came ↔ input = .arrival (.item (.message came)) := by
  cases m with
  | arrive a =>
    obtain rfl := Option.some.inj takes
    cases a with
    | item i => cases i <;> simp [hears, live]
    | _ => simp [hears]
  | elapse time =>
    obtain rfl := Option.some.inj takes
    simp [hears]
  | serve =>
    obtain ⟨command, -, rfl⟩ := Option.map_eq_some_iff.mp takes
    simp [hears]
  | _ => simp [input?] at takes

theorem hears_of_quiet (quiet : c.input? m = none) : c.hears m = none := by
  cases m with
  | arrive a => simp [input?] at quiet
  | _ => rfl

/-- A move puts into the box what the route gives it, and cuts the route off if it is to be. -/
theorem Tends.becomes (tends : c.Tends x b) (mouth : x.Mouth b) (free : Free x b c)
    (live : c.session.phase ≠ .closed) (there : x ∈ c.session.router.routes) {input : Input}
    (takes : c.input? m = some input) :
    ∃ new, new.map Post.item? = ((c.hears m).toList.filterMap x.gives).map some ∧
      Session.Becomes x b (((c.session.outlook b).given new).withdrawnIf (c.cuts x m)) c.session
        (c.session.step input) := by
  have free' := free.withdraws takes
  have withdrawn : c.cuts x m =
      ((c.hears m).any (fun came => x.takes (RouteKey.ofMessage came) && !x.handler.keeps came) ||
        c.session.withdraws x.handle input) := by
    have open' : (c.session.phase != .closed) = true := by simpa using live
    rw [cuts, takes, open', Bool.true_and, Option.any_some]
  rw [withdrawn]
  by_cases taken : ∃ came, c.hears m = some came ∧ x.takes (RouteKey.ofMessage came) = true
  · obtain ⟨came, hears, own⟩ := taken
    obtain rfl := (hears_of_takes takes live).mp hears
    obtain ⟨new, items, becomes⟩ := tends.sole.step_taken mouth live there own free'
    refine ⟨new, ?_, ?_⟩
    · have given : x.gives came = x.handler.item? came := if_pos own
      rw [items, hears, Option.toList_some, List.filterMap_cons, given]
      cases x.handler.item? came <;> rfl
    · rw [← Outlook.withdrawnIf_or] at becomes
      rw [hears]
      simpa [own] using becomes
  · have passes : ∀ came, input = .arrival (.item (.message came)) → x ∈ c.session.router.routes →
        x.takes (RouteKey.ofMessage came) = false := by
      rintro came rfl -
      by_contra own
      exact taken ⟨came, (hears_of_takes takes live).mpr rfl, by simpa using own⟩
    have becomes := tends.sole.step_passed mouth.feeds live (feeds_input takes tends.aside.asked)
      (heeds_input takes) passes free'
    have none' : ∀ came, c.hears m = some came → x.takes (RouteKey.ofMessage came) = false := by
      intro came hears
      by_contra own
      exact taken ⟨came, hears, by simpa using own⟩
    refine ⟨[], ?_, ?_⟩
    · cases hears : c.hears m with
      | none => rfl
      | some came => simp [Route.gives, none' came hears]
    · have plain : (c.hears m).any
          (fun came => x.takes (RouteKey.ofMessage came) && !x.handler.keeps came) = false := by
        cases hears : c.hears m with
        | none => rfl
        | some came => simp [none' came hears]
      rw [plain, Bool.false_or]
      simpa [Outlook.given] using becomes

/-! ### The session is over -/

theorem closed_move (late : c.session.phase = .closed) (m : Move) :
    (c.move m).session.phase = .closed := by
  cases takes : c.input? m with
  | none => rwa [phase_grows (grows_move takes)]
  | some input => rwa [session_move takes, Session.step_closed late (heeds_input takes)]

theorem closed_run (late : c.session.phase = .closed) (ms : List Move) :
    (c.run ms).session.phase = .closed := by
  induction ms generalizing c with
  | nil => exact late
  | cons m rest ih => exact ih (closed_move late m)

/-- A session that is over puts nothing into any box. -/
theorem posts_closed (late : c.session.phase = .closed) (ms : List Move) :
    (c.run ms).session.posts = c.session.posts := by
  induction ms generalizing c with
  | nil => rfl
  | cons m rest ih =>
    have same : (c.move m).session.posts = c.session.posts := by
      cases takes : c.input? m with
      | none => rw [posts_of_grows (grows_move takes)]
      | some input => rw [session_move takes, Session.step_closed late (heeds_input takes)]
    exact (ih (closed_move late m)).trans same

theorem hears_closed (late : c.session.phase = .closed) (m : Move) : c.hears m = none := by
  cases m with
  | arrive a =>
    cases a with
    | item i =>
      cases i with
      | message came => exact if_pos late
      | ping data => rfl
    | _ => rfl
  | _ => rfl

theorem cuts_closed (late : c.session.phase = .closed) (m : Move) : c.cuts x m = false := by
  simp [cuts, hears_closed late, late]

/-- A session that is over hears nothing, and cuts no route off. -/
theorem silent_run (late : c.session.phase = .closed) (ms : List Move) :
    c.heard ms = [] ∧ c.window x ms = [] ∧ c.isCut x ms = false := by
  induction ms generalizing c with
  | nil => exact ⟨rfl, rfl, rfl⟩
  | cons m rest ih =>
    obtain ⟨heard, window', uncut⟩ := ih (closed_move late m)
    rw [Client.heard, window, isCut, hears_closed late, cuts_closed late]
    exact ⟨heard, window', uncut⟩

/-- What becomes of a box in a move: these posts are put in, and then the route of the box is cut
off, or the session has ended, or both go on. -/
inductive Turns (x : Route Target) (b : Box) (c : Client) (m : Move) (new : List Post) : Prop where
  | cut (cuts : c.cuts x m = true) (unfed : (c.move m).session.feeds b = false)
      (posts : (c.move m).session.postsTo b = c.session.postsTo b ++ new)
  | ended (uncut : c.cuts x m = false) (late : (c.move m).session.phase = .closed) {f : Failure}
      (network : f.kind = .network) (posts : (c.move m).session.postsTo b =
        c.session.postsTo b ++ new ++ x.handler.lastPostsTo b f)
  | goes (uncut : c.cuts x m = false) (live : (c.move m).session.phase ≠ .closed)
      (there : x ∈ (c.move m).session.router.routes)
      (posts : (c.move m).session.postsTo b = c.session.postsTo b ++ new)

/-- A move puts into the box what the route gives it. -/
theorem Tends.turns (tends : c.Tends x b) (mouth : x.Mouth b) (free : Free x b c)
    (live : c.session.phase ≠ .closed) (there : x ∈ c.session.router.routes)
    (heard : b ∉ (c.move m).session.gone) :
    ∃ new, new.map Post.item? = ((c.hears m).toList.filterMap x.gives).map some ∧
      (c.move m).Tends x b ∧ Turns x b c m new := by
  have aside := tends.aside.move m
  have fed : c.session.feeds b = true :=
    (tends.sole.feeds_iff mouth.feeds).mpr ⟨live, there⟩
  cases takes : c.input? m with
  | none =>
    have grows := grows_move takes
    obtain ⟨look, router, -⟩ := outlook_grows grows b
    have quiet := hears_of_quiet takes
    refine ⟨[], by rw [quiet]; rfl, ⟨sole_grows grows tends.sole heard, aside⟩, .goes ?_ ?_ ?_ ?_⟩
    · simp [cuts, quiet, takes]
    · rwa [phase_grows grows]
    · exact router ▸ there
    · rw [List.append_nil]
      exact congrArg Outlook.posts look
  | some input =>
    obtain ⟨new, items, becomes⟩ := tends.becomes mouth free live there takes
    rw [← session_move takes] at becomes
    refine ⟨new, items, ⟨becomes.sole, aside⟩, ?_⟩
    cases cut : c.cuts x m with
    | true =>
      rw [cut] at becomes
      obtain ⟨posts, unfed⟩ := becomes.postsTo_of_unfed (by simp [Outlook.withdrawnIf])
      exact .cut cut unfed posts
    | false =>
      rw [cut, Outlook.withdrawnIf_false] at becomes
      by_cases late : (c.move m).session.phase = .closed
      · rcases becomes.look with same | ⟨f, network, ended⟩
        · have closed := congrArg Outlook.closed same
          simp [Session.outlook, Outlook.given, late, live] at closed
        · refine .ended cut late network ?_
          have posts := congrArg Outlook.posts ended
          simpa [Session.outlook, Outlook.given, Outlook.ended, live, fed] using posts
      · have look := becomes.look_of_live late
        have fed' := (congrArg Outlook.fed look).trans fed
        exact .goes cut late ((becomes.sole.feeds_iff mouth.feeds).mp fed').2
          (congrArg Outlook.posts look)

/-- How the box of a route stands, and what was put in at the last: the route is there, or the
session has ended before it was cut off, or it was cut off. -/
inductive Stands (x : Route Target) (b : Box) (s : Session) : Bool → List Post → Prop where
  | opened (live : s.phase ≠ .closed) (there : x ∈ s.router.routes) : Stands x b s false []
  | ended (late : s.phase = .closed) {f : Failure} (network : f.kind = .network) :
      Stands x b s false (x.handler.lastPostsTo b f)
  | cut (unfed : s.feeds b = false) : Stands x b s true []

/-- The box holds what the route has given it, in the order in which it came. -/
theorem Tends.run (tends : c.Tends x b) (mouth : x.Mouth b) (free : Free x b c)
    (live : c.session.phase ≠ .closed) (there : x ∈ c.session.router.routes)
    (heard : b ∉ (c.run ms).session.gone) :
    ∃ new last, (c.run ms).session.postsTo b = c.session.postsTo b ++ new ++ last ∧
      new.map Post.item? = ((c.window x ms).filterMap x.gives).map some ∧
      Stands x b (c.run ms).session (c.isCut x ms) last := by
  induction ms generalizing c with
  | nil => exact ⟨[], [], by simp [run], rfl, .opened live there⟩
  | cons m rest ih =>
    have sound := tends.sole.sound
    have heard : b ∉ ((c.move m).run rest).session.gone := heard
    have here := not_gone_of_run (sound_move sound m) heard
    obtain ⟨first, items, tends', turns⟩ := tends.turns mouth free live there here
    cases turns with
    | cut cuts unfed posts =>
      obtain ⟨same, unfed'⟩ := frozen_run tends'.aside (sound_move sound m) unfed heard
      refine ⟨first, [], ?_, ?_, ?_⟩
      · rw [List.append_nil]
        exact same.trans posts
      · rw [items, window, cuts]
        simp
      · rw [isCut, cuts, Bool.true_or]
        exact .cut unfed'
    | ended uncut late network posts =>
      have same : ((c.move m).run rest).session.postsTo b = (c.move m).session.postsTo b :=
        Session.postsTo_congr (posts_closed late rest)
      obtain ⟨-, silent, uncut'⟩ := silent_run (x := x) late rest
      refine ⟨first, _, same.trans posts, ?_, ?_⟩
      · rw [items, window, uncut, silent]
        simp
      · rw [isCut, uncut, Bool.false_or, uncut']
        exact .ended (closed_run late rest) network
    | goes uncut live' there' posts =>
      obtain ⟨new, last, posts', items', stands⟩ :=
        ih tends' (free.move sound here) live' there' heard
      refine ⟨first ++ new, last, ?_, ?_, ?_⟩
      · rw [posts] at posts'
        exact posts'.trans (by simp)
      · rw [List.map_append, items, items', window, uncut]
        simp
      · rw [isCut, uncut, Bool.false_or]
        exact stands

end Client

end WampClient
