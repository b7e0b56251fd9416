import WampClient.Proofs.Client.Outcomes

/-! Requests and their replies. A reply goes to the one who has asked for it, and what it grants is
had: whoever has registered or subscribed and is told so holds a ticket, with the route that the
session has installed for it. -/
namespace WampClient

namespace Session

variable {s : Session} {a : Box} {m : Message} {keys : List RouteKey} {target : Target}
  {route : Handle}

/-- A message that gets out has put nothing into any box. -/
theorem posts_of_sendOrTerminate (out : (s.sendOrTerminate m).2 = .ok ()) :
    (s.sendOrTerminate m).1.posts = s.posts := by
  have retired : (s.retiring m).posts = s.posts := (retiring_untold s m).1
  rw [sendOrTerminate_eq] at out ⊢
  rcases went : (s.retiring m).transmit (.message m) with ⟨t, trouble⟩
  obtain rfl : ((s.retiring m).transmit (.message m)).1 = t := by rw [went]
  rw [went] at out
  cases trouble with
  | none => exact retired
  | some description => cases out

/-- That a request is accepted is the first thing that its sender is told. -/
theorem postsTo_accepted (live : s.phase = .established) (empty : s.postsTo a = [])
    (told : (a, .accepted (.ok route)) ∈
      (s.step (.command (.request m keys target (some a)))).posts) :
    (s.step (.command (.request m keys target (some a)))).postsTo a =
      [.accepted (.ok route)] := by
  let t : Session := { s with router := (s.router.add keys target).1 }
  have unknown : (a, .accepted (.ok route)) ∉ t.posts := by
    rw [← mem_postsTo, show t.postsTo a = [] from empty]
    exact List.not_mem_nil
  have obeyed : s.step (.command (.request m keys target (some a))) =
      s.obey (.request m keys target (some a)) := if_neg (by simp [live])
  rw [obeyed, obey_request live] at told ⊢
  rcases went : t.sendOrTerminate m with ⟨u, result⟩
  rw [went] at told
  cases result with
  | ok _ =>
    have posts : u.posts = t.posts := by
      have same := posts_of_sendOrTerminate (s := t) (m := m) (by rw [went])
      rwa [went] at same
    dsimp only at told ⊢
    rcases mem_posts_answer.mp told with old | ⟨-, same, heard⟩
    · exact absurd (posts ▸ old) unknown
    · have put : (u.answer (some a) (.accepted (.ok (s.router.lastHandle + 1)))).posts =
          s.posts ++ [(a, .accepted (.ok route))] := by
        rw [same]
        simp only [answer, post]
        rw [if_neg (by simpa using heard)]
        exact congrArg (· ++ _) posts
      rw [postsTo, put, List.filterMap_append]
      rw [postsTo] at empty
      simp [empty]
  | error f =>
    have old := mem_posts_of_refused (s := u.eraseRoute _) told rfl
    exact absurd (mem_posts_of_sendOrTerminate went old rfl) unknown

end Session

namespace Client

variable {c d : Client} {past : List Command} {ms : List Move} {a b : Box} {w : Work}

/-- What came first into a box stays there. -/
theorem postAt_of_prefix {p : Post} {rest : List Post} (first : c.session.postsTo b = p :: rest)
    (more : c.session.posts <+: d.session.posts) : d.postAt b 0 = some (some p) := by
  obtain ⟨later, same⟩ := more.filterMap fun e => if e.1 = b then some e.2 else none
  have posts : d.session.postsTo b = p :: (rest ++ later) :=
    same.symm.trans (congrArg (· ++ later) first)
  simp [postAt, posts]

theorem Fresh.wasAccepted (fresh : Fresh c) {q : Message} {keys : List RouteKey} {target : Target}
    {route : Handle}
    (asked : .request q keys target (some a) ∈ c.served ms ++ (c.run ms).commands)
    (told : (a, .accepted (.ok route)) ∈ (c.run ms).session.posts) :
    (c.run ms).wasAccepted a = some (.ok route) := by
  obtain ⟨before, after, rest, rfl, next, live, -, put⟩ := fresh.exists_serve asked told
  have books : Books (c.served before) (c.run before) := fresh.settled.books.run before
  have early := (books.not_feeds (b := a) next (by simp [Command.feeds])).1
  have takes : (c.run before).input? .serve =
      some (.command (.request q keys target (some a))) := by
    simp [input?, next]
  have moved := session_move takes
  rw [moved] at put
  have first := Session.postsTo_accepted live (books.blank a early).1 put
  rw [← moved] at first
  have more := posts_prefix_run (sound_move books.sound .serve) after
  have lies := postAt_of_prefix (d := (c.run before).run (.serve :: after)) first more
  rw [run_append, wasAccepted, lies]
  rfl

/-- Who has registered or subscribed and is told so holds a ticket once it goes on. -/
theorem Fresh.enrols (fresh : Fresh c) (asking : (c.run ms).Asking (c.served ms)) {task : Task}
    (there : task ∈ (c.run ms).tasks) {kind : FeedKind} {name : String} {pattern : UriPattern}
    {accepted reply box : Box}
    (waits : task.waiting = .enrolment kind name pattern accepted reply box) {m : Message}
    {route : Option Handle} (told : (reply, .reply (.ok (m, route))) ∈ (c.run ms).session.posts)
    (confirms : m.type? = some .registered ∨ m.type? = some .subscribed) :
    ∃ id h, kind.enrolled? m = some id ∧ route = some h ∧
      let t := Ticket.feed (FeedTicket.opened kind id pattern h box)
      let d := (c.run ms).poll task.number
      d.finished = (c.run ms).finished ++ [(task.number, .ticket t none)] ∧
        d.ticket? name = some t := by
  have orderly := (fresh.settled.run ms).orderly
  have books : Books (c.served ms) (c.run ms) := fresh.settled.books.run ms
  obtain ⟨request, options, pattern', asked⟩ : Waiting.Asks _ _ := waits ▸ asking task there
  obtain ⟨first, second, -⟩ : Waiting.Begun _ _ :=
    waits ▸ (fresh.settled.run ms).sourced.tasks task there
  have heard : ∀ b ∈ [accepted, reply, box], b ∉ (c.run ms).session.gone := fun b own =>
    orderly.heard there (waits ▸ own)
  -- the reply confirms what was asked for, and comes with the route
  obtain ⟨equips, answers⟩ := fresh.answers_own asked (b := reply) rfl told rfl
  obtain ⟨⟨id, enrolled⟩, key⟩ := (cases_of_enrolment answers).resolve_left
    fun refuses => by simp [refuses] at confirms
  obtain ⟨h, rfl⟩ : ∃ h, route = some h :=
    Option.ne_none_iff_exists'.mp fun none' => key (equips _ _ m rfl (none' ▸ rfl))
  -- both boxes have been filled with what their owner waits for
  obtain ⟨route', put⟩ := fresh.accepted_of_told asked rfl told rfl (heard _ (by simp))
  have was := fresh.wasAccepted asked put
  let t := FeedTicket.opened kind id pattern h box
  have arises : t.Arises (c.served ms ++ (c.run ms).commands) (c.run ms).session.posts :=
    ⟨_, request, accepted, reply, route', m, ⟨first, second⟩, asked, put, told, enrolled⟩
  have replied : (c.run ms).replied accepted reply = some (.ok (m, some h)) := by
    obtain ⟨before, after, m', key', rfl, enrolled', -, q, request', box', answer, asked', -, -,
      done⟩ := fresh.feed_confirmed arises (heard _ (by simp [t, FeedTicket.opened]))
    have among : Command.request q (kind.enrolmentKeys request')
        (.reply (some box') (some (.install (kind.feed box)))) answer ∈
          c.served (before ++ .arrive (.item (.message m')) :: after) ++
            (c.run (before ++ .arrive (.item (.message m')) :: after)).commands :=
      List.mem_append_left _ (by rw [served_append]; exact List.mem_append_left _ asked')
    have same := books.unique (b := box) among asked (by simp [Command.feeds, Target.feeds])
      (by simp [Command.feeds, Target.feeds])
    obtain ⟨-, -, target, -⟩ := Command.request.inj same
    obtain rfl : box' = reply := Option.some.inj (Target.reply.inj target).1
    have more := posts_prefix_run (sound_move (sound_run fresh.settled.books.sound before)
      (.arrive (.item (.message m')))) after
    have posted := postAt_of_prefix (d := c.run (before ++ .arrive (.item (.message m')) :: after))
      done.told (by rw [run_append]; exact more)
    have lies := books.telling.once _ told _ (mem_posts_of_postAt posted) h rfl rfl
    obtain ⟨rfl, -⟩ : m = m' ∧ h = t.route := by simpa using lies
    rw [Client.replied, was]
    dsimp only
    rw [posted]
    rfl
  have found := orderly.find_task there
  have moved : (c.run ms).advance task.waiting =
      some ((c.run ms).keep name (.feed t), .inr (.ticket (.feed t) none)) := by
    rw [waits, advance, replied]
    simp [judgeEnrolment, enrolled, t]
  refine ⟨id, h, enrolled, rfl, finished_poll (v := task.waiting) ?_, ?_⟩
  · simp only [polled, found, moved]
    rfl
  · simp only [poll, found, moved]
    exact ticket?_keep (c.run ms) name (.feed t)

/-- A reply is matched with the request that it answers and with no other. The route of a request
takes the message that grants it and the ERRORs that name it, whatever messages there may be; so
whoever waits for a reply or a result is handed nothing else, no operation fails for a reply that it
did not ask for, and whoever is told of a registration or subscription gets its ticket. -/
theorem replies_correlate (wire : Wire) (now closeTimeout : Nat) (ids : IdSource) (id : Id)
    (realm : Uri) (details : Dictionary) (ms : List Move) :
    let c := joined (Session.established wire now closeTimeout) ids id realm details
    let d := c.run ms
    (∀ q keys target answer, .request q keys target answer ∈ c.served ms ++ d.commands →
      (∀ m, (∃ key ∈ keys, key.covers (RouteKey.ofMessage m) = true) ↔ q.Answers m) ∧
        ∀ b p m, target.waiter? = some b → (b, p) ∈ d.session.posts → p.came? = some m →
          q.Answers m) ∧
    (∀ number f, (number, .failed f) ∈ d.finished → f.isUnexpected = false) ∧
    ∀ task ∈ d.tasks, ∀ kind name pattern accepted reply box,
      task.waiting = .enrolment kind name pattern accepted reply box →
      ∀ m route, (reply, .reply (.ok (m, route))) ∈ d.session.posts →
        (m.type? = some .registered ∨ m.type? = some .subscribed) →
        ∃ id h, kind.enrolled? m = some id ∧ route = some h ∧
          let t := Ticket.feed (FeedTicket.opened kind id pattern h box)
          (d.poll task.number).finished = d.finished ++ [(task.number, .ticket t none)] ∧
            (d.poll task.number).ticket? name = some t := by
  intro c d
  have fresh : Fresh c := fresh_joined wire now closeTimeout ids id realm details
  have asking : (c.run ms).Asking (c.served ms) := (asking_of_idle (c := c) rfl).run ms
  refine ⟨fun q keys target answer asked => ⟨fun m => ?_, fun b p m waits told came => ?_⟩,
    fun number f there => ?_, fun task there kind name pattern accepted reply box waits m route
      told confirms => fresh.enrols asking there waits told confirms⟩
  · exact (fresh.formed_all asked).covers_iff
  · exact (fresh.answers_own asked waits told came).2
  · rcases fresh.reports_run rfl ms _ there with old | expected
    · exact absurd old List.not_mem_nil
    · exact expected f rfl

/-- A registration that is confirmed while its operation waits. -/
theorem replies_correlate_registration :
    let ms : List Move := [.act 0 (.onSession (.enrol .registration "a" none "t")), .serve,
      .arrive (.item (.message (.registered Id.min Id.min)))]
    let d := newcomer.run ms
    let t := Ticket.feed (FeedTicket.opened .registration Id.min ⟨"a"⟩ 2 2)
    (∃ task ∈ d.tasks, task.waiting = .enrolment .registration "t" ⟨"a"⟩ 0 1 2) ∧
      (1, .reply (.ok (.registered Id.min Id.min, some 2))) ∈ d.session.posts ∧
        (d.poll 0).finished = [(0, .ticket t none)] ∧ (d.poll 0).ticket? "t" = some t := by
  intro ms d t
  have waits : (⟨0, true, .enrolment .registration "t" ⟨"a"⟩ 0 1 2⟩ : Task) ∈ d.tasks :=
    List.mem_singleton_self _
  have told : (1, .reply (.ok (.registered Id.min Id.min, some 2))) ∈ d.session.posts :=
    List.mem_cons_of_mem _ (List.mem_singleton_self _)
  obtain ⟨id, h, enrolled, same, done⟩ := (replies_correlate (Wire.fresh fun _ => none) 0 1000
    IdSource.initial Id.min ⟨"realm"⟩ [] ms).2.2 _ waits _ _ _ _ _ _ rfl _ _ told (Or.inl rfl)
  obtain rfl := Option.some.inj enrolled
  obtain rfl := Option.some.inj same
  exact ⟨⟨_, waits, rfl⟩, told, done⟩

end Client

end WampClient
