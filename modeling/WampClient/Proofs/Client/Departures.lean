import WampClient.Proofs.Client.Leaving
import WampClient.Proofs.Client.Partings
import WampClient.Proofs.Client.Replies

/-! What closing a registration or subscription comes to. Whoever closes a ticket waits until the
router has replied, or until there will be no reply because the session is over. The router may
refuse, and that is told; the end of the session is as good as a reply. -/
namespace WampClient

/-- The type of the request that the router is asked with to end an entry of a kind. -/
def FeedKind.departing : FeedKind → MessageType
  | .registration => .unregister
  | .subscription => .unsubscribe

theorem FeedKind.type?_departure (kind : FeedKind) (request id : Id) :
    (kind.departure request id).type? = some kind.departing := by
  cases kind <;> rfl

theorem FeedKind.requestId?_departure (kind : FeedKind) (request id : Id) :
    (kind.departure request id).requestId? = some request := by
  cases kind <;> rfl

/-- The message is an ERROR that names the request to end a registration or subscription, and its
reason is not that the router has no such entry. -/
def FeedTicket.Refuses (t : FeedTicket) (request : Id) (m : Message) : Prop :=
  ∃ details reason payload, m = .error t.kind.departing.code request details reason payload ∧
    reason.text ≠ t.kind.goneReason

/-- A reply with which the router's entry is not gone is a refusal. -/
theorem FeedTicket.refuses_of_answers {t : FeedTicket} {request : Id} {m : Message}
    (answers : (t.kind.departure request t.id).Answers m) (stays : t.kind.departed m = false) :
    t.Refuses request m := by
  have refuses := (Client.cases_of_departure answers).resolve_right (by simp [stays])
  cases answers with
  | grants asks granted own is same =>
    rw [FeedKind.type?_departure] at asks
    obtain rfl := Option.some.inj asks
    rw [is] at refuses
    obtain rfl := Option.some.inj refuses
    cases kind : t.kind <;> simp [kind, FeedKind.departing, MessageType.grant?] at granted
  | @refuses type id asks own details reason payload is =>
    rw [FeedKind.type?_departure] at asks
    rw [FeedKind.requestId?_departure] at own
    obtain rfl := Option.some.inj asks
    obtain rfl := Option.some.inj own
    refine ⟨details, reason, payload, is, fun same => ?_⟩
    rw [is] at stays
    cases kind : t.kind <;> simp_all [FeedKind.departed]

namespace Session

variable {s : Session} {a : Box}

/-- A request that is taken up by an established session is accepted, unless the session ends. -/
theorem accepted_step (m : Message) (keys : List RouteKey) (target : Target)
    (opened : s.phase = .established) (heard : a ∉ s.gone)
    (live : (s.step (.command (.request m keys target (some a)))).phase ≠ .closed) :
    (a, .accepted (.ok (s.router.lastHandle + 1))) ∈
      (s.step (.command (.request m keys target (some a)))).posts := by
  have obeyed : s.step (.command (.request m keys target (some a))) =
      s.obey (.request m keys target (some a)) := if_neg (by simp [opened])
  rw [obeyed, obey_request opened] at live ⊢
  let t : Session := { s with router := (s.router.add keys target).1 }
  have cases := (sendOrTerminate_cases t m).2
  have gone := (emits_sendOrTerminate t m).gone
  rcases went : t.sendOrTerminate m with ⟨u, result⟩
  rw [went] at live cases gone
  cases result with
  | ok _ => exact mem_posts_answer.mpr (Or.inr ⟨rfl, rfl, gone ▸ heard⟩)
  | error f =>
    obtain ⟨g, -, -, closed⟩ := cases.resolve_left fun ⟨out, _⟩ => nomatch out
    exact absurd closed (by rwa [answer_phase] at live)

/-- A request that is taken up by a session that is closing is refused. -/
theorem postsTo_refused (m : Message) (keys : List RouteKey) (target : Target)
    (closing : s.phase = .closing) (heard : a ∉ s.gone) :
    (s.step (.command (.request m keys target (some a)))).postsTo a =
      s.postsTo a ++ [.accepted (.error Failure.sessionClosed)] := by
  have obeyed : s.step (.command (.request m keys target (some a))) =
      s.answer (some a) (.accepted (.error Failure.sessionClosed)) := by
    rw [step, if_neg (by simp [closing])]
    exact obey_request_late (by simp [closing]) m keys target (some a)
  rw [obeyed, answer]
  exact postsTo_post_self heard _

end Session

namespace Client

variable {c : Client} {ms : List Move} {y : Route Target} {a r : Box} {m : Message}
  {keys : List RouteKey} {target : Target} {change : Option RouteChange}

/-! ### Replies that are awaited -/

/-- Whoever awaits a reply with which no route is installed waits on, or the session is over
without it, or it has come in a move. -/
theorem Keeps.replied (keeps : c.Keeps y r) (aside : c.Aside r) (sound : c.session.Sound)
    (attends : c.session.Attends y r) (waits : y.handler = .reply (some r) change)
    (plain : ∀ feed, change ≠ some (.install feed)) (ided : ∀ key ∈ y.keys, key.id ≠ none)
    (heard : r ∉ (c.run ms).session.gone) :
    let s := (c.run ms).session
    s.Attends y r ∨ (s.phase = .closed ∧ ∀ came, .reply (.ok came) ∉ s.postsTo r) ∨
      ∃ early m late, ms = early ++ .arrive (.item (.message m)) :: late ∧
        (c.run early).session.phase ≠ .closed ∧ y.takes (RouteKey.ofMessage m) = true ∧
        s.postsTo r = [.reply (.ok (m, none))] := by
  induction ms generalizing c with
  | nil => exact Or.inl attends
  | cons m rest ih =>
    have sound' := sound_move sound m
    have here : r ∉ (c.move m).session.gone := not_gone_of_run sound' heard
    have step : (c.move m).session.Attends y r ∨ ((c.move m).session.phase = .closed ∧
        ∀ came, .reply (.ok came) ∉ (c.move m).session.postsTo r) ∨
        ∃ came, m = .arrive (.item (.message came)) ∧ y.takes (RouteKey.ofMessage came) = true ∧
          (c.move m).session.feeds r = false ∧
          (c.move m).session.postsTo r = [.reply (.ok (came, none))] := by
      cases takes : c.input? m with
      | none =>
        have grows := grows_move takes
        obtain ⟨look, router, -⟩ := outlook_grows grows r
        refine Or.inl ⟨sole_grows grows attends.sole here, ?_, router ▸ attends.there,
          (congrArg Outlook.posts look).trans attends.unreplied⟩
        rw [phase_grows grows]
        exact attends.live
      | some input =>
        have spared := keeps.loyal.session.routes
        have turns := attends.step waits plain ided spared (feeds_input takes aside.asked)
          (heeds_input takes) (Session.not_withdraws spared
            (removes_input takes keeps.loyal.commands))
        rw [← session_move takes] at turns
        refine turns.imp_right (Or.imp_right ?_)
        rintro ⟨came, rfl, takes', unfed, told⟩
        refine ⟨came, ?_, takes', unfed, told⟩
        cases m with
        | arrive a => rw [Input.arrival.inj (Option.some.inj takes)]
        | serve => simp [input?] at takes
        | _ => simp [input?] at takes
    rcases step with attends' | ⟨late, untold⟩ | ⟨came, rfl, takes, unfed, told⟩
    · have keeps' := keeps.moves sound (Client.moves c m) here
      refine (ih keeps' (aside.move m) sound' attends' heard).imp_right (Or.imp_right ?_)
      rintro ⟨early, came, late, rfl, rest⟩
      exact ⟨m :: early, came, late, rfl, rest⟩
    · refine Or.inr (Or.inl ⟨closed_run late rest, ?_⟩)
      rw [show (c.run (m :: rest)).session.postsTo r = (c.move m).session.postsTo r from
        Session.postsTo_congr (posts_closed late rest)]
      exact untold
    · refine Or.inr (Or.inr ⟨[], came, rest, rfl, attends.live, takes, ?_⟩)
      exact (frozen_run (aside.move _) sound' unfed heard).1.trans told

/-- The reply to a request that was accepted, where no route is installed with it: it is awaited, or
the session is over without it, or it has come. -/
theorem Fresh.reply_comes (fresh : Fresh c)
    (asked : .request m keys (.reply (some r) change) (some a) ∈ c.served ms ++ (c.run ms).commands)
    (plain : ∀ feed, change ≠ some (.install feed)) (ided : ∀ key ∈ keys, key.id ≠ none)
    {route : Handle} (told : (a, .accepted (.ok route)) ∈ (c.run ms).session.posts)
    (heard : r ∉ (c.run ms).session.gone) :
    let s := (c.run ms).session
    s.Attends ⟨route, keys, .reply (some r) change⟩ r ∨
      (s.phase = .closed ∧ ∀ came, .reply (.ok came) ∉ s.postsTo r) ∨
      ∃ early came late, ms = early ++ .arrive (.item (.message came)) :: late ∧
        .request m keys (.reply (some r) change) (some a) ∈ c.served early ∧
        (c.run early).session.phase ≠ .closed ∧ s.postsTo r = [.reply (.ok (came, none))] := by
  intro s
  obtain ⟨before, after, rest, rfl, next, live, rfl, -⟩ := fresh.exists_serve asked told
  have books := (fresh.settled.run before).books
  have follows : r = a + 1 := (fresh.settled.run _).books.issued.follows _ asked r a rfl rfl
  rw [run_append] at heard
  have here : r ∉ (c.run before).session.gone := not_gone_of_run books.sound heard
  have starts := books.starts next live (b := r) (by simp [Target.feeds])
    (Nat.ne_of_lt (follows ▸ Nat.lt_succ_self a)) here
  have keeps := keeps_of_serve fresh.settled.books.sound (fresh.awaits _) (fresh.loyal · _) next
    live rfl here
  have same : s = (((c.run before).move .serve).run after).session := by
    rw [show s = (c.run (before ++ .serve :: after)).session from rfl, run_append]
    rfl
  by_cases late : ((c.run before).move .serve).session.phase = .closed
  · obtain ⟨f, -, posts⟩ := starts.ended late
    refine Or.inr (Or.inl ⟨same ▸ closed_run late after, fun came there => ?_⟩)
    rw [same, Session.postsTo_congr (posts_closed late after), posts] at there
    simp [Target.lastPostsTo, Target.lastPosts] at there
  · have look := starts.opened late
    have feeds : (Target.reply (some r) change).feeds r = true := by simp [Target.feeds]
    have attends : ((c.run before).move .serve).session.Attends _ r := ⟨starts.tends.sole, late,
      ((starts.tends.sole.feeds_iff feeds).mp (congrArg Outlook.fed look)).2,
      congrArg Outlook.posts look⟩
    have comes := keeps.replied starts.tends.aside (sound_move books.sound _) attends rfl plain
      ided heard
    rw [← same] at comes
    refine comes.imp_right (Or.imp_right ?_)
    rintro ⟨early, came, late', rfl, live', -, posts⟩
    refine ⟨before ++ .serve :: early, came, late', by simp, mem_served_of_next early next, ?_,
      posts⟩
    rw [run_append]
    exact live'

/-- As long as the session is not over, nobody is told of a request but that it was accepted, or
that the session was closing when it was taken up. -/
theorem Fresh.accepted_of_live (fresh : Fresh c) (parted : c.Parted [])
    (asked : .request m keys target (some a) ∈ c.served ms ++ (c.run ms).commands)
    (heard : a ∉ (c.run ms).session.gone) (live : (c.run ms).session.phase ≠ .closed)
    {result : Except Failure Handle} (was : (c.run ms).wasAccepted a = some result) :
    (∃ route, result = .ok route ∧ (a, .accepted (.ok route)) ∈ (c.run ms).session.posts) ∨
      result = .error Failure.sessionClosed ∧ ∃ before after rest, ms = before ++ .serve :: after ∧
        (c.run before).commands = .request m keys target (some a) :: rest ∧
        (c.run before).session.phase = .closing := by
  have books : Books (c.served ms) (c.run ms) := fresh.settled.books.run ms
  have names : (Command.request m keys target (some a)).feeds a = true := by simp [Command.feeds]
  by_cases old : .request m keys target (some a) ∈ c.served ms
  · obtain ⟨before, after, rest, rfl, next⟩ := exists_served old
    have early : Books (c.served before) (c.run before) := fresh.settled.books.run before
    have empty := (early.blank a (early.not_feeds next names).1).1
    have moved : ((c.run before).move .serve).session =
        (c.run before).session.step (.command (.request m keys target (some a))) :=
      session_move (by simp [input?, next])
    have sound := sound_move early.sound .serve
    rw [run_append] at heard live was ⊢
    have live' : ((c.run before).move .serve).session.phase ≠ .closed := fun late =>
      live (closed_run late after)
    have here := not_gone_of_run early.sound heard
    rcases (parted.run fresh.settled.books before).fit.phase with opened | closing | ended
    · have put := Session.accepted_step m keys target opened here (moved ▸ live')
      have told := told_run sound after (moved ▸ put)
      have accepted := fresh.wasAccepted asked ((run_append c before (.serve :: after)).symm ▸ told)
      rw [run_append] at accepted
      exact Or.inl ⟨_, Option.some.inj (was.symm.trans accepted), told⟩
    · have put := Session.postsTo_refused m keys target closing here
      rw [empty, ← moved] at put
      have lies := postAt_of_prefix put (posts_prefix_run sound after)
      have refused : ((c.run before).run (.serve :: after)).wasAccepted a =
          some (.error Failure.sessionClosed) := by
        rw [Client.wasAccepted,
          show ((c.run before).run (.serve :: after)).postAt a 0 = _ from lies]
        rfl
      exact Or.inr ⟨Option.some.inj (was.symm.trans refused), before, after, rest, rfl, next,
        closing⟩
    · exact absurd (closed_run ended (.serve :: after)) live
  · have queued := (List.mem_append.mp asked).resolve_left old
    have empty := (books.blank a (books.unfed asked names old)).1
    have waits : ((c.run ms).commands.any fun command => command.feeds a) = true :=
      List.any_eq_true.mpr ⟨_, queued, names⟩
    have fed : (c.run ms).feeds a = true := by simp [feeds, waits, live]
    simp [Client.wasAccepted, postAt, empty, fed] at was

/-! ### Closing a ticket -/

section

variable {t : FeedTicket} {task : Task} {name : String} {accepted reply : Box} {number : Nat}

theorem poll_departure (orderly : c.Orderly) (there : task ∈ c.tasks)
    (waits : task.waiting = .departure name t accepted reply) :
    (c.poll task.number).finished = c.finished ++ ((c.replied accepted reply).map fun answer =>
      (task.number, c.judgeDeparture t answer)).toList := by
  have found := orderly.find_task there
  cases replied : c.replied accepted reply with
  | none =>
    have still : c.advance task.waiting = none := by rw [waits, advance, replied]; rfl
    have same : c.poll task.number = c := by simp only [poll, found, still]
    rw [same]
    exact (List.append_nil _).symm
  | some answer =>
    have moved : c.advance task.waiting = some (((c.issue (.removeRoute t.route)).keep name
        (.feed t)), .inr (c.judgeDeparture t answer)) := by
      rw [waits, advance, replied]
      rfl
    exact finished_poll (v := task.waiting) (by simp only [polled, found, moved])

theorem replied_of_closed (closed : c.session.phase = .closed) (accepted reply : Box) :
    ∃ answer, c.replied accepted reply = some answer := by
  have read : ∀ b, ∃ p, c.postAt b 0 = some p := by
    intro b
    have unfed : c.feeds b = false := by simp [feeds, Session.feeds, closed]
    rw [postAt, unfed]
    split
    · exact ⟨_, rfl⟩
    · exact ⟨_, rfl⟩
  obtain ⟨p, first⟩ := read accepted
  obtain ⟨p', second⟩ := read reply
  unfold replied wasAccepted
  rw [first, second]
  split
  next none' => cases none'
  next => exact ⟨_, rfl⟩
  next => exact ⟨_, rfl⟩

/-- A ticket that is closed already, or whose session is not established any more, has nothing to
ask for when it is closed. -/
theorem finished_depart (free : (c.tasks.any fun task => task.number == number) = false)
    (held : c.ticket? name = some (.feed t))
    (idle : t.closed = true ∨ c.session.phase ≠ .established) :
    let d := c.move (.act number (.onTicket name .depart))
    d.finished = c.finished ++ [(number, .done)] ∧ d.commands = c.commands := by
  have same : c.move (.act number (.onTicket name .depart)) = c.depart number name t := by
    simp [move, free, act, held, onTicket]
  rw [same]
  by_cases closed : t.closed = true
  · simp [depart, closed, conclude]
  · have late := idle.resolve_left closed
    have out : (c.takeOut name).ticket? name = none := Assoc.get?_erase_self _ _
    rw [depart, if_neg closed, if_neg late, keep_eq, out]
    exact ⟨rfl, rfl⟩

/-- A ticket that is open asks the router to end it when it is closed, and then waits. -/
theorem tasks_depart (free : (c.tasks.any fun task => task.number == number) = false)
    (held : c.ticket? name = some (.feed t)) (opened : t.closed = false)
    (live : c.session.phase = .established) :
    let d := c.move (.act number (.onTicket name .depart))
    d.tasks = c.tasks ++ [⟨number, false, .departure name { t with closed := true } c.nextBox
        (c.nextBox + 1)⟩] ∧
      d.commands =
        c.commands ++ [t.parting c.ids.draw.1 (some (c.nextBox + 1)) (some c.nextBox)] := by
  have same : c.move (.act number (.onTicket name .depart)) = c.depart number name t := by
    simp [move, free, act, held, onTicket]
  rw [same, depart, if_neg (by simp [opened]), if_pos live]
  exact ⟨rfl, rfl⟩

/-- How closing a ticket comes out with these moves, where it was asked for with this command. -/
inductive ComesTo (t : FeedTicket) (request : Id) (command : Command) (c : Client)
    (ms : List Move) : Outcome → Prop where
  | done : ComesTo t request command c ms .done
  /-- The router has refused, and the session was not closed yet when it handled that. -/
  | refused {early late : List Move} {m : Message}
      (moves : ms = early ++ .arrive (.item (.message m)) :: late)
      (asked : command ∈ c.served early) (live : (c.run early).session.phase ≠ .closed)
      (refuses : t.Refuses request m) :
      ComesTo t request command c ms (.failed (Failure.ofReply t.kind.leaving t.pattern.text m))
  /-- The session was closing when it took the command up, and it is not closed yet. -/
  | unheard {early late : List Move} {rest : List Command} (moves : ms = early ++ .serve :: late)
      (next : (c.run early).commands = command :: rest)
      (closing : (c.run early).session.phase = .closing)
      (live : (c.run ms).session.phase ≠ .closed) :
      ComesTo t request command c ms
        (.failed (Failure.sessionClosed.during t.kind.leaving t.pattern.text))

theorem id_of_departureKeys {kind : FeedKind} {request : Id} :
    ∀ key ∈ kind.departureKeys request, key.id ≠ none := by
  cases kind <;> simp [FeedKind.departureKeys, RouteKey.ofReply, RouteKey.ofRefusal]

theorem Fresh.comes_to (fresh : Fresh c) (parted : c.Parted [])
    (asking : (c.run ms).Asking (c.served ms)) (there : task ∈ (c.run ms).tasks)
    (waits : task.waiting = .departure name t accepted reply) :
    ∃ request, t.parting request (some reply) (some accepted) ∈
        c.served ms ++ (c.run ms).commands ∧
      ∀ answer, (c.run ms).replied accepted reply = some answer →
        ComesTo t request (t.parting request (some reply) (some accepted)) c ms
          ((c.run ms).judgeDeparture t answer) := by
  have orderly := (fresh.settled.run ms).orderly
  have heard : ∀ b ∈ [accepted, reply], b ∉ (c.run ms).session.gone := fun b own =>
    orderly.heard there (waits ▸ own)
  obtain ⟨request, asked⟩ : Waiting.Asks _ _ := waits ▸ asking task there
  refine ⟨request, asked, fun answer replied => ?_⟩
  have comes := fun {route : Handle}
      (told : (accepted, .accepted (.ok route)) ∈ (c.run ms).session.posts) =>
    fresh.reply_comes asked (by simp) id_of_departureKeys told (heard reply (by simp))
  rcases answer with f | ⟨m, route⟩
  · by_cases late : (c.run ms).session.phase = .closed
    · -- whatever the session has ended with, there is nothing left to end
      have network := (ends_replied (fresh.faultless ms) replied).network
      have done : (c.run ms).judgeDeparture t (.error f) = .done := if_pos ⟨network, late⟩
      rw [done]
      exact .done
    · unfold Client.replied at replied
      split at replied
      next none' => cases replied
      next g was =>
        obtain rfl := Except.error.inj (Option.some.inj replied)
        obtain ⟨route, same, -⟩ | ⟨same, early, later, rest, moves, next, closing⟩ :=
          fresh.accepted_of_live parted asked (heard accepted (by simp)) late was
        · cases same
        · obtain rfl := Except.error.inj same
          have failed : (c.run ms).judgeDeparture t (.error Failure.sessionClosed) =
              .failed (Failure.sessionClosed.during t.kind.leaving t.pattern.text) :=
            if_neg fun both => late both.2
          rw [failed]
          exact .unheard moves next closing late
      next route was =>
        obtain ⟨route', -, told⟩ | ⟨same, -⟩ :=
          fresh.accepted_of_live parted asked (heard accepted (by simp)) late was
        · rcases comes told with attends | ⟨ended, -⟩ | ⟨early, came, later, -, -, -, posts⟩
          · -- the reply may come yet
            have fed : (c.run ms).feeds reply = true := by
              rw [feeds, (attends.sole.feeds_iff (by simp [Target.feeds])).mpr
                ⟨late, attends.there⟩, Bool.true_or]
            simp [postAt, attends.unreplied, fed] at replied
          · exact absurd ended late
          · simp [postAt, posts] at replied
        · cases same
  · have lies := mem_posts_of_replied replied
    have put := Session.mem_postsTo.mpr lies
    obtain ⟨route', told⟩ :=
      fresh.accepted_of_told asked rfl lies rfl (heard accepted (by simp))
    have answers := (fresh.answers_own asked rfl lies rfl).2
    rcases comes told with attends | ⟨-, untold⟩ | ⟨early, came, later, moves, old, live, posts⟩
    · exact absurd (attends.unreplied ▸ put) List.not_mem_nil
    · exact absurd put (untold _)
    · obtain ⟨rfl, -⟩ : m = came ∧ route = none := by simpa [posts] using put
      rw [judgeDeparture]
      split
      · exact .done
      next stays =>
        exact .refused moves old live (t.refuses_of_answers answers (by simpa using stays))

/-- Closing a ticket does not fail because its session goes. Where the ticket has nothing to ask for
any more, it is closed at once. Otherwise the router is asked to end the registration or
subscription, and the close fails only if the router has refused that, with an ERROR that the
session has handled before it was closed, or if the session was closing already as it took the
request up. When the session is closed the wait is over. -/
theorem departing_fails_only_refused (wire : Wire) (now closeTimeout : Nat) (ids : IdSource)
    (id : Id) (realm : Uri) (details : Dictionary) (ms : List Move) :
    let c := joined (Session.established wire now closeTimeout) ids id realm details
    let d := c.run ms
    (∀ number name t, (d.tasks.any fun task => task.number == number) = false →
      d.ticket? name = some (.feed t) →
      let e := d.move (.act number (.onTicket name .depart))
      (t.closed = true ∨ d.session.phase ≠ .established →
        e.finished = d.finished ++ [(number, .done)] ∧ e.commands = d.commands) ∧
      (t.closed = false → d.session.phase = .established →
        e.tasks = d.tasks ++ [⟨number, false, .departure name { t with closed := true } d.nextBox
          (d.nextBox + 1)⟩] ∧
        e.commands =
          d.commands ++ [t.parting d.ids.draw.1 (some (d.nextBox + 1)) (some d.nextBox)])) ∧
    ∀ task ∈ d.tasks, ∀ name t accepted reply,
      task.waiting = .departure name t accepted reply →
      ∃ request, t.parting request (some reply) (some accepted) ∈ c.served ms ++ d.commands ∧
        (∀ outcome, (d.poll task.number).finished = d.finished ++ [(task.number, outcome)] →
          ComesTo t request (t.parting request (some reply) (some accepted)) c ms outcome) ∧
        (d.session.phase = .closed → ∃ outcome,
          (d.poll task.number).finished = d.finished ++ [(task.number, outcome)]) := by
  intro c d
  have fresh : Fresh c := fresh_joined wire now closeTimeout ids id realm details
  have parted : c.Parted [] := parted_joined wire now closeTimeout ids id realm details
  have asking : d.Asking (c.served ms) := (asking_of_idle (c := c) rfl).run ms
  refine ⟨fun number name t free held => ⟨finished_depart free held, tasks_depart free held⟩,
    fun task there name t accepted reply waits => ?_⟩
  have polled := poll_departure (fresh.settled.run ms).orderly there waits
  obtain ⟨request, asked, comes⟩ := fresh.comes_to parted asking there waits
  refine ⟨request, asked, fun outcome ended => ?_, fun closed => ?_⟩
  · have same := List.append_cancel_left (polled.symm.trans ended)
    obtain ⟨answer, replied, same⟩ : ∃ answer, d.replied accepted reply = some answer ∧
        (task.number, d.judgeDeparture t answer) = (task.number, outcome) := by
      simpa using same
    rw [← (Prod.mk.inj same).2]
    exact comes answer replied
  · obtain ⟨answer, replied⟩ := replied_of_closed closed accepted reply
    rw [replied] at polled
    exact ⟨_, polled⟩

end

/-- The program leaves the realm and then closes the ticket, before the session has taken anything
up: the request comes to a session that is closing. -/
example :
    let d := newcomer.run (subscribed ++ [.act 1 (.onSession .leave),
      .act 2 (.onTicket "t" .depart), .serve, .serve])
    (d.poll 2).finished =
      d.finished ++ [(2, .failed (Failure.sessionClosed.during .unsubscribe "a"))] := rfl

/-- A subscription that the router refuses to end, and one whose session ends instead. -/
theorem departing_fails_only_refused_subscription :
    let t : FeedTicket := ⟨.subscription, Id.min, ⟨"a"⟩, 2, 2, 0, true⟩
    let refusal : Message := .error MessageType.unsubscribe.code Id.min.next []
      ⟨"wamp.error.not_authorized"⟩ Payload.empty
    let asks : List Move := subscribed ++ [.act 1 (.onTicket "t" .depart), .serve]
    let refused := asks ++ [.arrive (.item (.message refusal))]
    let ended := asks ++ [.arrive .ended]
    let failed : Outcome := .failed (Failure.ofReply .unsubscribe "a" refusal)
    (((newcomer.run refused).poll 1).finished = (newcomer.run refused).finished ++ [(1, failed)] ∧
      ∃ request command, ComesTo t request command newcomer refused failed) ∧
    (newcomer.run ended).session.phase = .closed ∧ ∃ outcome,
      ((newcomer.run ended).poll 1).finished = (newcomer.run ended).finished ++ [(1, outcome)] := by
  intro t refusal asks refused ended failed
  have whole := departing_fails_only_refused (Wire.fresh fun _ => none) 0 1000 IdSource.initial
    Id.min ⟨"realm"⟩ []
  have tasks : (newcomer.run refused).tasks = [⟨1, false, .departure "t" t 3 4⟩] := rfl
  have tasks' : (newcomer.run ended).tasks = [⟨1, false, .departure "t" t 3 4⟩] := rfl
  have comes : ((newcomer.run refused).poll 1).finished =
      (newcomer.run refused).finished ++ [(1, failed)] := rfl
  have closed : (newcomer.run ended).session.phase = .closed := rfl
  obtain ⟨request, -, told, -⟩ := (whole refused).2 _ (tasks ▸ List.mem_singleton_self _) _ _ _ _
    rfl
  obtain ⟨-, -, -, gone'⟩ := (whole ended).2 _ (tasks' ▸ List.mem_singleton_self _) _ _ _ _ rfl
  exact ⟨⟨comes, request, _, told _ comes⟩, closed, gone' closed⟩

/-- The router refuses to end a subscription after the program has left the realm. The session is
closing, and still the close of the ticket fails. -/
theorem departing_fails_while_closing :
    let refusal : Message := .error MessageType.unsubscribe.code Id.min.next []
      ⟨"wamp.error.not_authorized"⟩ Payload.empty
    let d := newcomer.run (subscribed ++ [.act 1 (.onTicket "t" .depart), .serve,
      .act 2 (.onSession .leave), .serve])
    let e := d.move (.arrive (.item (.message refusal)))
    d.session.phase = .closing ∧ d.session.postsTo 4 = [] ∧
      (e.poll 1).finished =
        d.finished ++ [(1, .failed (Failure.ofReply .unsubscribe "a" refusal))] := by
  intro refusal d e
  exact ⟨rfl, rfl, rfl⟩

end Client

end WampClient
