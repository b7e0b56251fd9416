import WampClient.Proofs.Client.Origins

/-! What tickets are about. The procedure of a call's ticket is the one that its CALL names, and the
pattern of a registration or subscription the one that it was asked for with; an invocation has come
out of the box of a registration and has its pattern. -/
namespace WampClient

namespace Client

/-- A CALL was issued that names the procedure and has its results brought into the box. -/
def Called (commands : List Command) (request : Id) (procedure : Uri) (box : Box) : Prop :=
  ∃ options payload accepted, .request (.call request options procedure payload) (callKeys request)
    (.call box) (some accepted) ∈ commands

/-- A registration or subscription was asked for that names the pattern and has what comes by it
brought into the box. -/
def Enrolled (commands : List Command) (kind : FeedKind) (pattern : UriPattern) (box : Box) :
    Prop :=
  ∃ request options accepted reply,
    .request (kind.enrolment request options pattern) (kind.enrolmentKeys request)
      (.reply (some reply) (some (.install (kind.feed box)))) (some accepted) ∈ commands

end Client

open Client

variable {commands more : List Command} {posts posts' : List (Box × Post)}

def Ticket.About (commands : List Command) (posts : List (Box × Post)) : Ticket → Prop
  | .call t => Called commands t.id t.procedure t.box
  | .results t => Called commands t.id t.procedure t.box
  | .feed t => Enrolled commands t.kind t.pattern t.box
  | .invocation t => ∃ kind box, Enrolled commands kind t.registered box ∧
    (box, .invocation t.invocation t.cell) ∈ posts

/-- What the ticket will be about that the operation is still to get. -/
def Waiting.About (commands : List Command) : Waiting → Prop
  | .call request procedure _ box _ => Called commands request procedure box
  | .enrolment kind _ pattern _ _ box => Enrolled commands kind pattern box
  | _ => True

theorem Client.Called.mono {request : Id} {procedure : Uri} {box : Box}
    (called : Called commands request procedure box)
    (old : ∀ command ∈ commands, command ∈ more) : Called more request procedure box := by
  obtain ⟨options, payload, accepted, there⟩ := called
  exact ⟨options, payload, accepted, old _ there⟩

theorem Client.Enrolled.mono {kind : FeedKind} {pattern : UriPattern} {box : Box}
    (enrolled : Enrolled commands kind pattern box)
    (old : ∀ command ∈ commands, command ∈ more) : Enrolled more kind pattern box := by
  obtain ⟨request, options, accepted, reply, there⟩ := enrolled
  exact ⟨request, options, accepted, reply, old _ there⟩

theorem Ticket.About.mono {t : Ticket} (about : t.About commands posts)
    (old : ∀ command ∈ commands, command ∈ more) (told : ∀ e ∈ posts, e ∈ posts') :
    t.About more posts' := by
  cases t with
  | call t => exact Called.mono about old
  | results t => exact Called.mono about old
  | feed t => exact Enrolled.mono about old
  | invocation t =>
    obtain ⟨kind, box, enrolled, put⟩ := about
    exact ⟨kind, box, enrolled.mono old, told _ put⟩

theorem Waiting.About.mono {w : Waiting} (about : w.About commands)
    (old : ∀ command ∈ commands, command ∈ more) : w.About more := by
  cases w with
  | call request procedure accepted box keep => exact Called.mono about old
  | enrolment kind name pattern accepted reply box => exact Enrolled.mono about old
  | _ => trivial

theorem Waiting.about_of_plain {w : Waiting} (plain : w.boxes = []) (commands : List Command) :
    w.About commands := by
  cases w with
  | call request procedure accepted box keep => simp [boxes] at plain
  | enrolment kind name pattern accepted reply box => simp [boxes] at plain
  | _ => trivial

theorem Ticket.about_kept {t : CallTicket} (stream : Bool) :
    (t.kept stream).About commands posts ↔ Called commands t.id t.procedure t.box := by
  cases stream <;> exact Iff.rfl

theorem Ticket.Becomes.about {t u : Ticket} (becomes : t.Becomes u)
    (about : t.About commands posts) : u.About commands posts := by
  cases becomes <;> exact about

theorem Waiting.Begins.about {first : Box} {v : Waiting} (begins : v.Begins first commands) :
    v.About commands := by
  cases begins with
  | call asked => exact ⟨_, _, _, asked⟩
  | enrolment asked => exact ⟨_, _, _, _, asked⟩
  | plain plain => exact Waiting.about_of_plain plain _
  | _ => trivial

namespace Client

variable {c d : Client} {past cmds : List Command} {ms : List Move} {w w' : Work}

/-- Every ticket is about what was asked for, and so will be those that operations are to get. -/
structure Work.About (past : List Command) (w : Work) : Prop where
  tickets : ∀ t ∈ w.tickets, t.About (past ++ w.client.commands) w.client.session.posts
  tasks : ∀ task ∈ w.client.tasks, task.waiting.About (past ++ w.client.commands)

theorem Work.About.part (about : w.About past) (part : Part w w') : w'.About past := by
  have old : ∀ command ∈ past ++ w.client.commands, command ∈ past ++ w'.client.commands :=
    fun command there => part.grows.mem_commands there
  have told : ∀ e ∈ w.client.session.posts, e ∈ w'.client.session.posts :=
    fun e there => posts_of_grows part.grows ▸ there
  refine ⟨fun u there => ?_, fun task there => ?_⟩
  · obtain ⟨t, among, becomes⟩ := part.becomes u there
    exact becomes.about ((about.tickets t among).mono old told)
  · rcases part.begins task there with before | begins
    · exact (about.tasks task before).mono old
    · exact begins.about.mono fun command there => List.mem_append_right _ there

theorem Work.About.parts (about : w.About past) (parts : Parts w w') : w'.About past := by
  induction parts with
  | refl => exact about
  | tail _ part ih => exact ih.part part

/-! ### Operations that go on -/

theorem Yields.about {v : Waiting} {us : List Ticket} {outcome : Outcome}
    (yields : c.Yields v us outcome)
    (tickets : ∀ t ∈ v.tickets, t.About (past ++ c.commands) c.session.posts)
    (own : v.About (past ++ c.commands)) :
    ∀ u ∈ us, u.About (past ++ c.commands) c.session.posts := by
  cases yields with
  | same plain idle outcome => exact tickets
  | accepted was outcome => exact List.forall_mem_singleton.mpr own
  | enrolled replied confirms outcome => exact List.forall_mem_singleton.mpr own
  | settled stream last => exact tickets
  | @result name t came stream more next =>
    have held := (Ticket.about_kept stream).mp (tickets (t.kept stream) List.mem_cons_self)
    exact List.forall_mem_singleton.mpr ((Ticket.about_kept stream).mpr held)
  | @event name t keep e next =>
    exact List.forall_mem_singleton.mpr (tickets (.feed t) List.mem_cons_self)
  | @invocation name t keep i cell next canceled =>
    have held : Enrolled _ t.kind t.pattern t.box := tickets (.feed t) List.mem_cons_self
    have put : (t.box, .invocation i cell) ∈ c.session.posts := mem_posts_of_postAt next
    refine List.forall_mem_cons.mpr ⟨held, List.forall_mem_singleton.mpr ?_⟩
    exact ⟨t.kind, t.box, held, put⟩
  | drained next other other' => exact tickets

/-- A client without one of its operations, with tickets of it in the hands. -/
theorem Work.About.handed {number : Nat} (about : Work.About past ⟨c, []⟩) {us : List Ticket}
    (own : ∀ u ∈ us, u.About (past ++ c.commands) c.session.posts) :
    Work.About past ⟨c.without number, us⟩ where
  tickets u out := by
    rcases mem_tickets.mp out with handed | held
    · exact own u handed
    · exact about.tickets u (mem_tickets.mpr (Or.inr (mem_heldTickets_without held)))
  tasks other among := about.tasks other (List.mem_of_mem_filter among)

theorem Work.About.resumes {task : Task} {outcome : Outcome} (about : Work.About past ⟨c, []⟩)
    (there : task ∈ c.tasks)
    (resumes : c.Resumes (c.without task.number).tasks task.waiting outcome w) :
    w.About past := by
  have held : ∀ t ∈ task.waiting.tickets, t.About (past ++ c.commands) c.session.posts :=
    fun t own => about.tickets t (mem_tickets_of_waiting there own)
  have bare : Work.About past ⟨c.without task.number, []⟩ :=
    about.handed fun _ out => absurd out List.not_mem_nil
  cases resumes with
  | resumed yields => exact about.handed (yields.about held (about.tasks task there))
  | refused _ own => exact ⟨bare.tickets, bare.tasks⟩
  | @settled t waits =>
    have mine : Ticket.About _ _ (.call t) := held (.call t) (waits ▸ List.mem_cons_self)
    have kept : Work.About past ⟨c.without task.number, [.call { t with settled := true }]⟩ :=
      about.handed (List.forall_mem_singleton.mpr mine)
    exact kept.part (.released _)
  | @ceased name t accepted reply waits =>
    have mine : Ticket.About _ _ (.feed t) := held (.feed t) (waits ▸ List.mem_cons_self)
    have kept : Work.About past ⟨c.without task.number, [.feed t]⟩ :=
      about.handed (List.forall_mem_singleton.mpr mine)
    have old : ∀ command ∈ past ++ c.commands,
        command ∈ past ++ (c.commands ++ [.removeRoute t.route]) := fun command among => by
      rw [← List.append_assoc]
      exact List.mem_append_left _ among
    exact ⟨fun u out => (kept.tickets u out).mono old fun _ put => put,
      fun other among => (kept.tasks other among).mono old⟩

theorem Work.About.polls {number : Nat} (about : Work.About past ⟨c, []⟩)
    (polls : c.Polls number d) : Work.About past ⟨d, []⟩ := by
  cases polls with
  | still none' => exact about
  | @turned task request procedure accepted box route found moved waits was =>
    have own := about.tasks task (List.mem_of_find?_eq_some found)
    rw [waits] at own
    refine ⟨fun u out => ?_, fun other among => ?_⟩
    · rcases mem_heldTickets_turned ((mem_tickets.mp out).resolve_left List.not_mem_nil)
        with old | rfl
      · exact about.tickets u (mem_tickets.mpr (Or.inr old))
      · exact own
    · rcases mem_turned among with old | waits'
      · exact about.tasks other old
      · rw [waits']
        trivial
  | @ended task d e outcome v found moved resumes parts =>
    have mine : task.number = number := by simpa using List.find?_some found
    subst mine
    exact (about.resumes (List.mem_of_find?_eq_some found) resumes).parts parts

/-! ### Moves -/

theorem Work.About.step (about : Work.About past ⟨c, []⟩) (sound : c.session.Sound)
    (input : Input) {commands : List Command} (queue : c.commands = cmds ++ commands) :
    Work.About (past ++ cmds) ⟨{ c with session := c.session.step input, commands }, []⟩ := by
  have same : past ++ cmds ++ commands = past ++ c.commands := by rw [queue, List.append_assoc]
  have told : ∀ e ∈ c.session.posts, e ∈ (c.session.step input).posts :=
    fun e there => Session.posts_of_mem_step sound input there
  refine ⟨fun t there => ?_, fun task there => ?_⟩
  · exact same ▸ (about.tickets t there).mono (fun _ put => put) told
  · exact same ▸ about.tasks task there

theorem Work.About.moves (about : Work.About past ⟨c, []⟩) (sound : c.session.Sound)
    (moves : c.Moves cmds d) : Work.About (past ++ cmds) ⟨d, []⟩ := by
  cases moves with
  | takes input outer heeds => exact about.step sound input rfl
  | serves next => exact about.step sound _ next
  | acts parts =>
    rw [List.append_nil]
    exact about.parts parts
  | polls polls =>
    rw [List.append_nil]
    exact about.polls polls

theorem Work.About.run (about : Work.About past ⟨c, []⟩) (sound : c.session.Sound)
    (ms : List Move) : Work.About (past ++ c.served ms) ⟨c.run ms, []⟩ := by
  have both := run_of_moves (P := fun past c => Work.About past ⟨c, []⟩ ∧ c.session.Sound)
    ⟨about, sound⟩ (fun known m =>
      ⟨known.1.moves known.2 (Client.moves _ m), (Client.moves _ m).sound known.2⟩) ms
  exact both.1

end Client

end WampClient
