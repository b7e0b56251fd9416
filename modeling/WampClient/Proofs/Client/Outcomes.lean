import WampClient.Proofs.Client.Correlation
import WampClient.Proofs.Client.Undertakings

/-! What operations come to. No failure that a session or a client tells of finds fault with a
reply: whoever waits for one is handed what was asked for or an ERROR that says why not. -/
namespace WampClient

/-! ### Failures -/

@[simp] theorem isUnexpected_during (f : Failure) (operation : Operation) (target : String) :
    (f.during operation target).isUnexpected = f.isUnexpected := by
  rw [Failure.isUnexpected, Failure.cause_during, Failure.isUnexpected]

/-- An ERROR says why a request was refused. -/
theorem expected_ofReply (operation : Operation) (target : String) {m : Message}
    (refuses : m.type? = some .error) :
    (Failure.ofReply operation target m).isUnexpected = false := by
  cases m with
  | error type id details reason payload => exact isUnexpected_during _ _ _
  | _ => simp [Message.type?] at refuses

theorem Message.Answers.cases {q m : Message} (answers : q.Answers m) :
    m.type? = some .error ∨ ∃ type, q.type? = some type ∧ m.type? = type.grant? := by
  cases answers with
  | grants asks granted own is same => exact Or.inr ⟨_, asks, is.trans granted.symm⟩
  | refuses asks own is => exact Or.inl (by rw [is]; rfl)

/-- The outcome does not find fault with a reply. -/
def Outcome.Expected (o : Outcome) : Prop := ∀ f, o = .failed f → f.isUnexpected = false

/-- What comes up while something is attempted does not find fault with a reply. -/
theorem Outcome.During.expected {attempt : Option (Operation × String)} {o : Outcome}
    (during : o.During attempt) : o.Expected := by
  intro f failed
  obtain ⟨g, operation, target, unplaced, -, rfl⟩ := during f failed
  exact (isUnexpected_during g operation target).trans unplaced.expected

/-! ### Failures that a session tells of -/

namespace Session

variable {s : Session} {input : Input}

/-- Every failure that was told of is that of the end of a session, and finds no fault with a
reply. -/
def Faultless (s : Session) : Prop := ∀ e ∈ s.posts, ∀ f, e.2.failure? = some f → f.Ends

theorem Faultless.step (faultless : s.Faultless) (sound : s.Sound)
    (heeds : ∀ box, input ≠ .forget box) : (s.step input).Faultless := by
  rintro ⟨box, p⟩ there f told
  rcases post_course sound heeds there with old | plain | ⟨m, -, y, -, -, cell, put⟩
  · exact faultless _ old f told
  · exact plain.expected f told
  · -- a message that is handed around is no failure
    rcases handler : y.handler with ⟨own, change⟩ | own | ⟨own | own⟩ | own <;>
      rw [handler] at put <;> cases m <;>
        simp only [Target.posts, List.not_mem_nil] at put <;> split at put <;>
          simp_all [Post.failure?]

end Session

namespace Client

variable {c d : Client} {past cmds : List Command} {ms : List Move} {w w' : Work}

theorem Moves.faultless (moves : c.Moves cmds d) (sound : c.session.Sound)
    (faultless : c.session.Faultless) : d.session.Faultless := by
  have kept : ∀ {e : Client}, c.Grows e → e.session.Faultless := by
    intro e grows
    rw [Session.Faultless, posts_of_grows grows]
    exact faultless
  cases moves with
  | takes input outer heeds => exact faultless.step sound heeds
  | serves next => exact faultless.step sound (by simp)
  | acts parts => exact kept (Parts.grows parts)
  | polls polls => exact kept polls.grows

theorem faultless_run (faultless : c.session.Faultless) (sound : c.session.Sound)
    (ms : List Move) : (c.run ms).session.Faultless := by
  induction ms generalizing c with
  | nil => exact faultless
  | cons m rest ih => exact ih ((Client.moves c m).faultless sound faultless) (sound_move sound m)

theorem Fresh.faultless (fresh : Fresh c) (ms : List Move) : (c.run ms).session.Faultless := by
  refine faultless_run (fun e there => ?_) fresh.settled.books.sound ms
  rw [fresh.untold] at there
  exact absurd there List.not_mem_nil

/-! ### What is read out of boxes -/

section

variable {b : Box} {place : Nat} {f : Failure}

theorem ends_of_postAt (faultless : c.session.Faultless) {p : Post}
    (read : c.postAt b place = some (some p)) (told : p.failure? = some f) :
    f.Ends :=
  faultless _ (mem_posts_of_postAt read) f told

theorem ends_wasAccepted (faultless : c.session.Faultless)
    (was : c.wasAccepted b = some (.error f)) : f.Ends := by
  obtain ⟨p, read, same⟩ := Option.map_eq_some_iff.mp was
  split at same
  next result => exact ends_of_postAt faultless read (by rw [same]; rfl)
  next => exact Except.error.inj same ▸ ⟨rfl, rfl, rfl⟩

theorem ends_wasSent (faultless : c.session.Faultless)
    (was : c.wasSent b = some (.error f)) : f.Ends := by
  obtain ⟨p, read, same⟩ := Option.map_eq_some_iff.mp was
  split at same
  next result => exact ends_of_postAt faultless read (by rw [same]; rfl)
  next => exact Except.error.inj same ▸ ⟨rfl, rfl, rfl⟩

theorem ends_replied (faultless : c.session.Faultless) {accepted reply : Box}
    (replied : c.replied accepted reply = some (.error f)) : f.Ends := by
  unfold Client.replied at replied
  split at replied
  · exact nomatch replied
  next g was =>
    obtain rfl := Except.error.inj (Option.some.inj replied)
    exact ends_wasAccepted faultless was
  · obtain ⟨p, read, same⟩ := Option.map_eq_some_iff.mp replied
    split at same
    next result => exact ends_of_postAt faultless read (by rw [same]; rfl)
    next => exact Except.error.inj same ▸ ⟨rfl, rfl, rfl⟩

theorem unplaced_sessionClosed : Failure.sessionClosed.Unplaced := ⟨rfl, rfl⟩

theorem mem_posts_of_cameBack {t : CallTicket} {came : Except Failure Message}
    (next : c.cameBack t = some came) :
    (t.box, .outcome came) ∈ c.session.posts ∨ came = .error Failure.sessionClosed := by
  obtain ⟨p, read, same⟩ := Option.map_eq_some_iff.mp next
  split at same
  next result =>
    obtain rfl := same
    exact Or.inl (mem_posts_of_postAt read)
  next => exact Or.inr same.symm

theorem exists_of_lastAmong {t : CallTicket} {ps : List Post} {result : Except Failure CallResult}
    (last : t.lastAmong ps = some result) : ∃ came, .outcome came ∈ ps ∧ result = t.judge came := by
  induction ps with
  | nil => exact nomatch last
  | cons p rest ih =>
    have later : t.lastAmong rest = some result → ∃ came, .outcome came ∈ p :: rest ∧
        result = t.judge came := fun last =>
      (ih last).imp fun came ⟨there, same⟩ => ⟨List.mem_cons_of_mem _ there, same⟩
    cases p with
    | outcome came =>
      simp only [CallTicket.lastAmong] at last
      split at last
      · exact ⟨came, List.mem_cons_self, (Option.some.inj last).symm⟩
      · exact later last
    | _ => exact later last

end

/-! ### How operations fail -/

/-- The message has been handed to the operation as a reply, and does not grant what the operation
is for. -/
inductive Denies (c : Client) : Waiting → Message → Prop
  | last {t : CallTicket} {m : Message} (told : (t.box, .outcome (.ok m)) ∈ c.session.posts)
      (other : m.type? ≠ some .result) : Denies c (.lastOutcome t) m
  | next {name : String} {t : CallTicket} {stream : Bool} {m : Message}
      (told : (t.box, .outcome (.ok m)) ∈ c.session.posts) (other : m.type? ≠ some .result) :
      Denies c (.nextOutcome name t stream) m
  | enrolment {kind : FeedKind} {name : String} {pattern : UriPattern} {accepted reply box : Box}
      {m : Message} {route : Option Handle}
      (replied : c.replied accepted reply = some (.ok (m, route)))
      (other : route = none ∨ kind.enrolled? m = none) :
      Denies c (.enrolment kind name pattern accepted reply box) m
  | publication {topic : Uri} {accepted reply : Box} {m : Message} {route : Option Handle}
      (replied : c.replied accepted reply = some (.ok (m, route)))
      (other : m.type? ≠ some .published) : Denies c (.publication topic accepted reply) m
  | departure {name : String} {t : FeedTicket} {accepted reply : Box} {m : Message}
      {route : Option Handle} (replied : c.replied accepted reply = some (.ok (m, route)))
      (other : ¬t.kind.departed m) : Denies c (.departure name t accepted reply) m

/-- How an operation fails: it hears of the end of the session or reads on where nothing is left, or
a reply denies what it is for, or it is to fail once its message is out. -/
inductive Fails (c : Client) (w : Waiting) : Failure → Prop
  | told {f : Failure} {operation : Operation} {target : String} (unplaced : f.Unplaced)
      (aim : w.attempt? = some (operation, target)) : Fails c w (f.during operation target)
  | denied {m : Message} {operation : Operation} {target : String} (denies : c.Denies w m)
      (aim : w.attempt? = some (operation, target)) :
      Fails c w (Failure.ofReply operation target m)
  | meant {box : Box} {operation : Operation} {target : String} {back : Option (String × Ticket)}
      {f : Failure} (waits : w = .sent box operation target back (.failed f)) : Fails c w f

theorem failed_ofResult {result : Except Failure CallResult} {f : Failure}
    (failed : ofResult result = .failed f) : result = .error f := by
  cases result with
  | ok r => exact nomatch failed
  | error g => exact congrArg _ (Outcome.failed.inj failed)

theorem fails_judge {v : Waiting} {t : CallTicket} {came : Except Failure Message} {f : Failure}
    (aim : v.attempt? = some (.call, t.procedure.text))
    (told : ∀ f, came = .error f → f.Unplaced)
    (denied : ∀ m, came = .ok m → m.type? ≠ some .result → c.Denies v m)
    (failed : ofResult (t.judge came) = .failed f) : c.Fails v f := by
  have judged := failed_ofResult failed
  rcases came with g | m
  · obtain rfl := Except.error.inj judged
    exact .told (told g rfl) aim
  · cases m with
    | result id details payload => exact nomatch judged
    | _ =>
      obtain rfl := Except.error.inj judged
      exact .denied (denied _ rfl (by simp [Message.type?])) aim

theorem fails_lastOutcome (faultless : c.session.Faultless) {t : CallTicket} {f : Failure}
    (moved : c.advance (.lastOutcome t) = some (d, .inr (.failed f))) :
    c.Fails (.lastOutcome t) f := by
  rw [advance] at moved
  dsimp only at moved
  split at moved
  · obtain ⟨-, failed⟩ : _ ∧ _ = Outcome.failed f := by simpa [settleCall] using moved
    obtain rfl := Except.error.inj (failed_ofResult failed)
    exact .told ⟨rfl, rfl⟩ rfl
  · split at moved
    next result last =>
      obtain ⟨-, failed⟩ : _ ∧ _ = Outcome.failed f := by simpa [settleCall] using moved
      obtain ⟨came, lies, rfl⟩ := exists_of_lastAmong last
      have put := Session.mem_postsTo.mp (List.mem_of_mem_drop lies)
      refine fails_judge rfl (fun g same => ?_) (fun m same other => ?_) failed
      · exact (faultless _ put g (by rw [same]; rfl)).unplaced
      · exact .last (same ▸ put) other
    next =>
      split at moved
      · cases moved
      · obtain ⟨-, failed⟩ : _ ∧ _ = Outcome.failed f := by simpa [settleCall] using moved
        obtain rfl := Except.error.inj (failed_ofResult failed)
        exact .told unplaced_sessionClosed rfl

theorem fails_nextOutcome (faultless : c.session.Faultless) {name : String} {t : CallTicket}
    {stream : Bool} {f : Failure}
    (moved : c.advance (.nextOutcome name t stream) = some (d, .inr (.failed f))) :
    c.Fails (.nextOutcome name t stream) f := by
  rw [advance] at moved
  split at moved
  · simp at moved
  · obtain ⟨came, next, same⟩ := Option.map_eq_some_iff.mp moved
    obtain ⟨-, failed⟩ : _ ∧ _ = Outcome.failed f := by simpa [CallTicket.take] using same
    rcases mem_posts_of_cameBack next with put | rfl
    · refine fails_judge rfl (fun g same => ?_) (fun m same other => ?_) failed
      · exact (faultless _ put g (by rw [same]; rfl)).unplaced
      · exact .next (same ▸ put) other
    · obtain rfl := Except.error.inj (failed_ofResult failed)
      exact .told unplaced_sessionClosed rfl

theorem fails_enrolment (faultless : c.session.Faultless) {kind : FeedKind} {name : String}
    {pattern : UriPattern} {accepted reply box : Box} {f : Failure}
    {answer : Except Failure (Message × Option Handle)}
    (replied : c.replied accepted reply = some answer)
    (judged : judgeEnrolment kind pattern box answer = .error f) :
    c.Fails (.enrolment kind name pattern accepted reply box) f := by
  rcases answer with g | ⟨m, _ | route⟩
  · obtain rfl := Except.error.inj judged
    exact .told (ends_replied faultless replied).unplaced rfl
  · obtain rfl := Except.error.inj judged
    exact .denied (.enrolment replied (Or.inl rfl)) rfl
  · simp only [judgeEnrolment] at judged
    split at judged
    · cases judged
    next none' =>
      obtain rfl := Except.error.inj judged
      exact .denied (.enrolment replied (Or.inr none')) rfl

theorem fails_publication (faultless : c.session.Faultless) {topic : Uri} {accepted reply : Box}
    {f : Failure} {answer : Except Failure (Message × Option Handle)}
    (replied : c.replied accepted reply = some answer)
    (failed : judgePublication topic answer = .failed f) :
    c.Fails (.publication topic accepted reply) f := by
  rcases answer with g | ⟨m, route⟩
  · obtain rfl := Outcome.failed.inj failed
    exact .told (ends_replied faultless replied).unplaced rfl
  · cases m with
    | published request publication => cases failed
    | _ =>
      obtain rfl := Outcome.failed.inj failed
      exact .denied (.publication replied (by simp [Message.type?])) rfl

theorem fails_departure (faultless : c.session.Faultless) {name : String} {t : FeedTicket}
    {accepted reply : Box} {f : Failure} {answer : Except Failure (Message × Option Handle)}
    (replied : c.replied accepted reply = some answer)
    (failed : c.judgeDeparture t answer = .failed f) :
    c.Fails (.departure name t accepted reply) f := by
  rcases answer with g | ⟨m, route⟩ <;> simp only [judgeDeparture] at failed <;>
    split at failed
  · cases failed
  · obtain rfl := Outcome.failed.inj failed
    exact .told (ends_replied faultless replied).unplaced rfl
  · cases failed
  next other =>
    obtain rfl := Outcome.failed.inj failed
    exact .denied (.departure replied other) rfl

theorem fails_advance (faultless : c.session.Faultless) {v : Waiting} {f : Failure}
    (moved : c.advance v = some (d, .inr (.failed f))) : c.Fails v f := by
  cases v with
  | call request procedure accepted box keep =>
    obtain ⟨answer, was, same⟩ := Option.map_eq_some_iff.mp moved
    rcases answer with g | route
    · obtain ⟨-, rfl⟩ : _ ∧ _ = f := by simpa using same
      exact .told (ends_wasAccepted faultless was).unplaced rfl
    · rcases keep with _ | name <;> simp at same
  | lastOutcome t => exact fails_lastOutcome faultless moved
  | nextOutcome name t stream => exact fails_nextOutcome faultless moved
  | enrolment kind name pattern accepted reply box =>
    obtain ⟨answer, replied, same⟩ := Option.map_eq_some_iff.mp moved
    split at same
    · simp at same
    next g judged =>
      obtain ⟨-, rfl⟩ : _ ∧ _ = f := by simpa using same
      exact fails_enrolment faultless replied judged
  | publication topic accepted reply =>
    obtain ⟨answer, replied, same⟩ := Option.map_eq_some_iff.mp moved
    obtain ⟨-, failed⟩ : _ ∧ _ = Outcome.failed f := by simpa using same
    exact fails_publication faultless replied failed
  | sent box operation target back outcome =>
    obtain ⟨result, was, same⟩ := Option.map_eq_some_iff.mp moved
    obtain ⟨-, failed⟩ : _ ∧ _ = Outcome.failed f := by simpa using same
    rcases result with g | _
    · obtain rfl := Outcome.failed.inj failed
      exact .told (ends_wasSent faultless was).unplaced rfl
    · obtain rfl : outcome = _ := failed
      exact .meant rfl
  | departure name t accepted reply =>
    obtain ⟨answer, replied, same⟩ := Option.map_eq_some_iff.mp moved
    obtain ⟨-, failed⟩ : _ ∧ _ = Outcome.failed f := by simpa using same
    exact fails_departure faultless replied failed
  | nextItem name t keep =>
    obtain ⟨p, -, same⟩ := Option.map_eq_some_iff.mp moved
    rcases p with _ | p
    · simp [takeItem] at same
    · cases p <;> simp [takeItem] at same
  | leave box => simp [advance] at moved
  | ending => simp [advance] at moved
  | cancellation name t =>
    rw [advance] at moved
    split at moved
    · simp at moved
    · split at moved <;> simp at moved

end Client

/-! ### What operations have asked for -/

/-- The request whose reply an operation waits for has been issued with its boxes, and what an
operation comes to once its message is out does not find fault with a reply. -/
def Waiting.Asks (commands : List Command) : Waiting → Prop
  | .enrolment kind _ _ accepted reply box => ∃ request options pattern,
    .request (kind.enrolment request options pattern) (kind.enrolmentKeys request)
      (.reply (some reply) (some (.install (kind.feed box)))) (some accepted) ∈ commands
  | .publication _ accepted reply => ∃ request options topic payload,
    .request (.publish request options topic payload) (Client.publishKeys request)
      (.reply (some reply) none) (some accepted) ∈ commands
  | .departure _ t accepted reply => ∃ request,
    .request (t.kind.departure request t.id) (t.kind.departureKeys request)
      (.reply (some reply) (some (.remove t.route))) (some accepted) ∈ commands
  | .sent _ _ _ _ outcome => outcome.Expected
  | _ => True

theorem Waiting.asks_of_plain {w : Waiting} (plain : w.boxes = []) (commands : List Command) :
    w.Asks commands := by
  cases w with
  | enrolment kind name pattern accepted reply box => simp [boxes] at plain
  | publication topic accepted reply => simp [boxes] at plain
  | sent box operation target back outcome => simp [boxes] at plain
  | departure name t accepted reply => simp [boxes] at plain
  | _ => trivial

theorem Waiting.Asks.mono {commands more : List Command} {w : Waiting} (asks : w.Asks commands)
    (old : ∀ command ∈ commands, command ∈ more) : w.Asks more := by
  cases w with
  | enrolment kind name pattern accepted reply box =>
    obtain ⟨request, options, pattern', there⟩ := asks
    exact ⟨request, options, pattern', old _ there⟩
  | publication topic accepted reply =>
    obtain ⟨request, options, topic', payload, there⟩ := asks
    exact ⟨request, options, topic', payload, old _ there⟩
  | departure name t accepted reply =>
    obtain ⟨request, there⟩ := asks
    exact ⟨request, old _ there⟩
  | sent box operation target back outcome => exact asks
  | _ => trivial

theorem Waiting.Begins.asks {first : Box} {commands : List Command} {w : Waiting}
    (begins : w.Begins first commands) : w.Asks commands := by
  cases begins with
  | enrolment asked => exact ⟨_, _, _, asked⟩
  | publication asked => exact ⟨_, _, _, _, asked⟩
  | sent hopeful => exact fun f same => absurd same (hopeful f)
  | departure closed asked => exact ⟨_, asked⟩
  | plain plain => exact Waiting.asks_of_plain plain _
  | _ => trivial

namespace Client

variable {c d : Client} {past cmds : List Command} {ms : List Move} {w w' : Work}

/-- Every operation that goes on has asked for what it waits for. -/
def Asking (past : List Command) (c : Client) : Prop :=
  ∀ task ∈ c.tasks, task.waiting.Asks (past ++ c.commands)

theorem Asking.parts (asking : w.client.Asking past) (parts : Parts w w') :
    w'.client.Asking past := by
  induction parts with
  | refl => exact asking
  | tail _ part ih =>
    intro task there
    rcases part.begins task there with old | begins
    · exact (ih task old).mono fun _ => part.grows.mem_commands
    · exact begins.asks.mono fun _ => List.mem_append_right _

theorem Asking.polls {number : Nat} (asking : c.Asking past) (polls : c.Polls number d) :
    d.Asking past := by
  cases polls with
  | still none' => exact asking
  | turned found moved waits was =>
    intro task there
    rcases mem_turned there with old | turned
    · exact asking task old
    · rw [turned]
      trivial
  | ended found moved resumes parts =>
    refine Asking.parts (fun task there => ?_) parts
    rw [resumes.numbers] at there
    exact (asking task (List.mem_of_mem_filter there)).mono fun _ => resumes.grows.mem_commands

theorem Asking.moves (asking : c.Asking past) (moves : c.Moves cmds d) :
    d.Asking (past ++ cmds) := by
  cases moves with
  | takes input outer heeds =>
    rw [List.append_nil]
    exact asking
  | @serves command rest next =>
    intro task there
    rw [List.append_assoc, List.singleton_append, ← next]
    exact asking task there
  | acts parts =>
    rw [List.append_nil]
    exact asking.parts parts
  | polls polls =>
    rw [List.append_nil]
    exact asking.polls polls

theorem asking_of_idle (idle : c.tasks = []) : c.Asking [] := by
  rw [Asking, idle]
  exact fun task there => absurd there List.not_mem_nil

theorem Asking.run (asking : c.Asking past) (ms : List Move) :
    (c.run ms).Asking (past ++ c.served ms) :=
  run_of_moves (P := fun past c => c.Asking past) asking
    (fun asking m => asking.moves (Client.moves _ m)) ms

/-! ### Replies -/

section

variable {operation : Operation} {target : String} {q m : Message}

/-- A reply to a request for a registration or subscription is the confirmation or an ERROR. -/
theorem cases_of_enrolment {kind : FeedKind} {request : Id} {options : Dictionary}
    {pattern : UriPattern} (answers : (kind.enrolment request options pattern).Answers m) :
    m.type? = some .error ∨ (∃ id, kind.enrolled? m = some id) ∧ m.enrolledKey? ≠ none := by
  refine answers.cases.imp_right fun ⟨type, asks, is⟩ => ?_
  cases kind with
  | registration =>
    obtain rfl := Option.some.inj asks
    cases m with
    | registered request id => exact ⟨⟨id, rfl⟩, by simp [Message.enrolledKey?]⟩
    | _ => simp [Message.type?, MessageType.grant?] at is
  | subscription =>
    obtain rfl := Option.some.inj asks
    cases m with
    | subscribed request id => exact ⟨⟨id, rfl⟩, by simp [Message.enrolledKey?]⟩
    | _ => simp [Message.type?, MessageType.grant?] at is

theorem cases_of_departure {kind : FeedKind} {request id : Id}
    (answers : (kind.departure request id).Answers m) :
    m.type? = some .error ∨ kind.departed m = true := by
  refine answers.cases.imp_right fun ⟨type, asks, is⟩ => ?_
  cases kind with
  | registration =>
    obtain rfl := Option.some.inj asks
    cases m with
    | unregistered request => rfl
    | _ => simp [Message.type?, MessageType.grant?] at is
  | subscription =>
    obtain rfl := Option.some.inj asks
    cases m with
    | unsubscribed request => rfl
    | _ => simp [Message.type?, MessageType.grant?] at is

end

/-! ### What operations come to -/

theorem Fresh.formed_all (fresh : Fresh c) {command : Command}
    (asked : command ∈ c.served ms ++ (c.run ms).commands) :
    command.Formed (Names (c.run ms).session.posts) :=
  (fresh.settled.run ms).sourced.formed command asked

/-- What comes back for a call is its result or an ERROR. -/
theorem Fresh.cases_of_outcome (fresh : Fresh c) {t : CallTicket} {m : Message}
    (arises : t.Arises (c.served ms ++ (c.run ms).commands) (c.run ms).session.posts)
    (told : (t.box, .outcome (.ok m)) ∈ (c.run ms).session.posts) :
    m.type? = some .error ∨ m.type? = some .result := by
  obtain ⟨q, accepted, asked, -⟩ := arises
  have answers := (fresh.answers_own asked (b := t.box) rfl told (m := m) rfl).2
  obtain ⟨request, options, procedure, payload, rfl, -⟩ :=
    (fresh.formed_all asked).call_of_target
  refine answers.cases.imp_right fun ⟨type, asks, is⟩ => ?_
  obtain rfl := Option.some.inj asks
  exact is

theorem Fresh.arises_waiting (fresh : Fresh c) {task : Task} (there : task ∈ (c.run ms).tasks)
    {t : Ticket} (own : t ∈ task.waiting.tickets) :
    t.Arises (c.served ms ++ (c.run ms).commands) (c.run ms).session.posts :=
  fresh.arises (mem_heldTickets.mpr (Or.inr ⟨task, there, own⟩))

/-- A reply that does not grant what an operation waits for is an ERROR. -/
theorem Fresh.refuses (fresh : Fresh c) (asking : (c.run ms).Asking (c.served ms)) {task : Task}
    (there : task ∈ (c.run ms).tasks) {m : Message}
    (denies : (c.run ms).Denies task.waiting m) : m.type? = some .error := by
  have asks := asking task there
  have arises : ∀ t ∈ task.waiting.tickets, t.Arises _ _ := fun t => fresh.arises_waiting there
  generalize task.waiting = w at *
  cases denies with
  | @last t m told other =>
    exact (fresh.cases_of_outcome (arises (.call t) List.mem_cons_self) told).resolve_right other
  | @next name t stream m told other =>
    have mine := arises (t.kept stream) List.mem_cons_self
    rw [CallTicket.arises_kept] at mine
    exact (fresh.cases_of_outcome mine told).resolve_right other
  | @enrolment kind name pattern accepted reply box m route replied other =>
    obtain ⟨request, options, pattern', asked⟩ := asks
    obtain ⟨equips, answers⟩ := fresh.answers_own asked (b := reply) rfl
      (mem_posts_of_replied replied) rfl
    rcases cases_of_enrolment answers with refuses | ⟨⟨id, confirms⟩, key⟩
    · exact refuses
    · -- a confirmation is handed on together with the route that it has opened
      rcases other with rfl | none'
      · exact absurd (equips _ _ m rfl rfl) key
      · exact nomatch confirms.symm.trans none'
  | @publication topic accepted reply m route replied other =>
    obtain ⟨request, options, topic', payload, asked⟩ := asks
    have answers := (fresh.answers_own asked (b := reply) rfl
      (mem_posts_of_replied replied) rfl).2
    refine answers.cases.resolve_right fun ⟨type, asks, is⟩ => ?_
    obtain rfl := Option.some.inj asks
    exact other is
  | @departure name t accepted reply m route replied other =>
    obtain ⟨request, asked⟩ := asks
    have answers := (fresh.answers_own asked (b := reply) rfl
      (mem_posts_of_replied replied) rfl).2
    exact (cases_of_departure answers).resolve_right other

/-- No operation comes to an end because of a reply that it has not asked for. -/
theorem Fresh.expected_advance (fresh : Fresh c) (asking : (c.run ms).Asking (c.served ms))
    {task : Task} (there : task ∈ (c.run ms).tasks) {d : Client} {outcome : Outcome}
    (moved : (c.run ms).advance task.waiting = some (d, .inr outcome)) : outcome.Expected := by
  rintro f rfl
  cases fails_advance (fresh.faultless ms) moved with
  | told unplaced aim => exact (isUnexpected_during _ _ _).trans unplaced.expected
  | denied denies aim => exact expected_ofReply _ _ (fresh.refuses asking there denies)
  | meant waits =>
    have asks := asking task there
    rw [waits] at asks
    exact asks f rfl

/-! ### What is reported -/

/-- What is reported anew does not find fault with a reply. -/
def Reports (c d : Client) : Prop := ∀ e ∈ d.finished, e ∈ c.finished ∨ e.2.Expected

theorem reports_of_eq (same : d.finished = c.finished) : c.Reports d := by
  intro e there
  rw [same] at there
  exact Or.inl there

theorem reports_act (c : Client) (number : Nat) (a : Action) : c.Reports (c.act number a).1 := by
  rcases (undertakes_act c number a).finished with same | ⟨o, same, during⟩
  · exact reports_of_eq same
  · intro e there
    rw [same] at there
    rcases List.mem_append.mp there with old | last
    · exact Or.inl old
    · rw [List.mem_singleton.mp last]
      exact Or.inr during.expected

theorem finished_poll_of_none {number : Nat} (ends : c.polled number = none) :
    (c.poll number).finished = c.finished := by
  have polls := polls c number
  generalize c.poll number = d at polls
  cases polls with
  | still none' => rfl
  | turned found moved waits was => rfl
  | ended found moved resumes parts => simp [polled, found, moved] at ends

theorem Fresh.reports_poll (fresh : Fresh c) (asking : (c.run ms).Asking (c.served ms))
    (number : Nat) : (c.run ms).Reports ((c.run ms).poll number) := by
  cases ends : (c.run ms).polled number with
  | some e =>
    obtain ⟨w, outcome⟩ := e
    intro e there
    rw [finished_poll ends] at there
    rcases List.mem_append.mp there with old | last
    · exact Or.inl old
    · rw [List.mem_singleton.mp last]
      refine Or.inr ?_
      cases found : (c.run ms).tasks.find? fun t => t.number == number with
      | none => simp [polled, found] at ends
      | some task =>
        simp only [polled, found] at ends
        split at ends
        next d result moved =>
          obtain ⟨-, rfl⟩ := Prod.mk.inj (Option.some.inj ends)
          exact fresh.expected_advance asking (List.mem_of_find?_eq_some found) moved
        next => cases ends
  | none => exact reports_of_eq (finished_poll_of_none ends)

theorem Fresh.reports_move (fresh : Fresh c) (asking : (c.run ms).Asking (c.served ms))
    (m : Move) : (c.run ms).Reports ((c.run ms).move m) := by
  cases m with
  | poll number => exact fresh.reports_poll asking number
  | act number a =>
    rw [move]
    split
    · exact reports_of_eq rfl
    · exact reports_act _ number a
  | serve =>
    refine reports_of_eq ?_
    rw [move, serve]
    split <;> rfl
  | _ => exact reports_of_eq rfl

/-- Nothing that a client reports in a run finds fault with a reply. -/
theorem Fresh.reports_run (fresh : Fresh c) (idle : c.tasks = []) (ms : List Move) :
    c.Reports (c.run ms) := by
  induction ms using List.reverseRecOn with
  | nil => exact reports_of_eq rfl
  | append_singleton before m ih =>
    have asking : (c.run before).Asking (c.served before) :=
      (asking_of_idle idle).run before
    rw [run_append]
    intro e there
    exact (fresh.reports_move asking m e there).elim (ih e) Or.inr

end Client

end WampClient
