import WampClient.Proofs.Client.Growth

/-! The client knows the route of a request only together with the box that waits for it, and has
it removed only when it lets go of the box as well. -/
namespace WampClient

/-- A call that has the route has the box too; nothing else has it. -/
def Ticket.Loyal (h : Handle) (b : Box) : Ticket → Prop
  | .call t => t.route = h → t.box = b
  | .results t => t.route = h → t.box = b
  | .feed t => t.route ≠ h
  | .invocation _ => True

/-- The box of a call comes right after the one of its acceptance. -/
structure Waiting.Loyal (h : Handle) (b : Box) (w : Waiting) : Prop where
  tickets : ∀ t ∈ w.tickets, t.Loyal h b
  follows : ∀ request procedure accepted box keep,
    w = .call request procedure accepted box keep → box = accepted + 1

theorem Waiting.loyal_of_plain {h : Handle} {b : Box} {w : Waiting}
    (tickets : ∀ t ∈ w.tickets, t.Loyal h b) (plain : w.boxes = []) : w.Loyal h b where
  tickets := tickets
  follows request procedure accepted box keep same := by simp [same, boxes] at plain

namespace Client

structure Loyal (h : Handle) (b : Box) (c : Client) : Prop where
  session : Session.Work.Spares h ⟨c.session, []⟩
  posts : ∀ box p, (box, p) ∈ c.session.posts → p.route? = some h →
    p = .accepted (.ok h) ∧ b = box + 1
  commands : ∀ command ∈ c.commands, command.removes h = false
  tickets : ∀ e ∈ c.tickets, e.2.Loyal h b
  tasks : ∀ task ∈ c.tasks, task.waiting.Loyal h b

structure Work.Loyal (h : Handle) (b : Box) (w : Work) : Prop where
  client : w.client.Loyal h b
  hand : ∀ t ∈ w.hand, t.Loyal h b

variable {h : Handle} {b : Box} {c d : Client}

theorem Grows.gone (grows : c.Grows d) {box : Box} (there : box ∈ c.session.gone) :
    box ∈ d.session.gone := by
  obtain ⟨boxes, same⟩ := grows.session
  rw [same]
  exact List.mem_append_right _ there

/-! ### What comes out of boxes -/

theorem mem_posts_of_postAt {box : Box} {place : Nat} {p : Post}
    (read : c.postAt box place = some (some p)) : (box, p) ∈ c.session.posts := by
  unfold postAt at read
  split at read
  next q found =>
    obtain rfl := Option.some.inj (Option.some.inj read)
    obtain ⟨e, he, same⟩ := List.mem_filterMap.mp (List.mem_of_getElem? found)
    split at same
    next mine =>
      obtain rfl := Option.some.inj same
      exact mine ▸ he
    next => simp at same
  next =>
    split at read <;> simp at read

theorem mem_posts_of_wasAccepted {box : Box} {route : Handle}
    (accepted : c.wasAccepted box = some (.ok route)) :
    (box, .accepted (.ok route)) ∈ c.session.posts := by
  obtain ⟨p, read, same⟩ := Option.map_eq_some_iff.mp accepted
  split at same
  next result =>
    obtain rfl := same
    exact mem_posts_of_postAt read
  next => simp at same

theorem mem_posts_of_replied {accepted reply : Box} {m : Message} {route : Option Handle}
    (replied : c.replied accepted reply = some (.ok (m, route))) :
    (reply, .reply (.ok (m, route))) ∈ c.session.posts := by
  unfold Client.replied at replied
  split at replied
  · simp at replied
  · simp at replied
  · obtain ⟨p, read, same⟩ := Option.map_eq_some_iff.mp replied
    split at same
    next result =>
      obtain rfl := same
      exact mem_posts_of_postAt read
    next => simp at same

theorem accepted_of_replied {accepted reply : Box} {answer : Message × Option Handle}
    (replied : c.replied accepted reply = some (.ok answer)) :
    ∃ route, c.wasAccepted accepted = some (.ok route) := by
  unfold Client.replied at replied
  split at replied
  · simp at replied
  · simp at replied
  next route was => exact ⟨route, was⟩

theorem Loyal.yields (loyal : c.Loyal h b) {w : Waiting} (own : w.Loyal h b) {us : List Ticket}
    {outcome : Outcome} (yields : c.Yields w us outcome) : ∀ t ∈ us, t.Loyal h b := by
  cases yields with
  | same plain idle outcome => exact own.tickets
  | accepted was outcome =>
    intro t there
    obtain rfl := List.mem_singleton.mp there
    intro same
    have put := loyal.posts _ _ (mem_posts_of_wasAccepted was) (congrArg some same)
    exact (own.follows _ _ _ _ _ rfl).trans put.2.symm
  | enrolled replied confirms outcome =>
    intro t there
    obtain rfl := List.mem_singleton.mp there
    intro same
    exact nomatch (loyal.posts _ _ (mem_posts_of_replied replied) (congrArg some same)).1
  | settled stream last => exact own.tickets
  | @result name t came stream more next =>
    have held : (t.kept stream).Loyal h b := own.tickets _ List.mem_cons_self
    intro u there
    rw [List.mem_singleton.mp there]
    cases stream <;> exact held
  | event next => simpa [Waiting.tickets, Ticket.Loyal] using own.tickets
  | invocation next canceled => simpa [Waiting.tickets, Ticket.Loyal] using own.tickets
  | drained next other other' => exact own.tickets

/-! ### Elementary changes -/

theorem Loyal.quiet (loyal : c.Loyal h b) (session : d.session = c.session)
    (commands : d.commands = c.commands) (tickets : ∀ e ∈ d.tickets, e ∈ c.tickets)
    (tasks : ∀ task ∈ d.tasks, task ∈ c.tasks) : d.Loyal h b where
  session := by rw [session]; exact loyal.session
  posts := by rw [session]; exact loyal.posts
  commands := by rw [commands]; exact loyal.commands
  tickets e he := loyal.tickets e (tickets e he)
  tasks task there := loyal.tasks task (tasks task there)

theorem Loyal.issue (loyal : c.Loyal h b) {command : Command} (spares : command.removes h = false) :
    (c.issue command).Loyal h b := by
  refine { loyal with commands := fun other there => ?_ }
  rcases List.mem_append.mp there with there | there
  · exact loyal.commands other there
  · rwa [List.mem_singleton.mp there]

theorem Loyal.forget (loyal : c.Loyal h b) (box : Box) : (c.forget box).Loyal h b :=
  { loyal with session := ⟨loyal.session.routes, by simp, loyal.session.interrupts⟩ }

theorem Loyal.await (loyal : c.Loyal h b) (number : Nat) (onSession : Bool) {w : Waiting}
    (own : w.Loyal h b) : (c.await number onSession w).Loyal h b := by
  refine { loyal with tasks := fun task there => ?_ }
  rcases List.mem_append.mp there with there | there
  · exact loyal.tasks task there
  · rwa [List.mem_singleton.mp there]

theorem Loyal.drawId (loyal : c.Loyal h b) : c.drawId.2.Loyal h b :=
  loyal.quiet rfl rfl (fun _ he => he) fun _ there => there

theorem Loyal.newBox (loyal : c.Loyal h b) : c.newBox.2.Loyal h b :=
  loyal.quiet rfl rfl (fun _ he => he) fun _ there => there

theorem Loyal.conclude (loyal : c.Loyal h b) (number : Nat) (outcome : Outcome) :
    (c.conclude number outcome).Loyal h b :=
  loyal.quiet rfl rfl (fun _ he => he) fun _ there => there

theorem Loyal.takeOut (loyal : c.Loyal h b) (name : String) : (c.takeOut name).Loyal h b :=
  loyal.quiet rfl rfl (fun _ he => List.mem_of_mem_filter he) fun _ there => there

theorem Loyal.putting (loyal : c.Loyal h b) (name : String) {t : Ticket} (own : t.Loyal h b) :
    (c.putting name t).Loyal h b := by
  refine { loyal with tickets := fun e he => ?_ }
  rcases Assoc.mem_alter he with there | ⟨-, same⟩
  · exact loyal.tickets e there
  · rwa [← Option.some.inj same]

theorem Loyal.ticket? (loyal : c.Loyal h b) {name : String} {t : Ticket}
    (found : c.ticket? name = some t) : t.Loyal h b :=
  loyal.tickets _ (Assoc.mem_of_get? found)

/-! ### Parts of a move -/

theorem Loyal.whenEstablished (loyal : c.Loyal h b) (number : Nat) (operation : Operation)
    (target : String) {go : Client → Client} (goes : (go c).Loyal h b) :
    (c.whenEstablished number operation target go).Loyal h b :=
  whenEstablished_keeps (P := fun d => d.Loyal h b) goes (loyal.conclude number _)

theorem Loyal.call (loyal : c.Loyal h b) (number : Nat) (procedure : Uri) (payload : Payload)
    (options : CallOptions) (keep : Option String) :
    (c.call number procedure payload options keep).Loyal h b := by
  refine loyal.whenEstablished number _ _ ?_
  refine (loyal.drawId.newBox.newBox.issue rfl).await number true ⟨by simp [Waiting.tickets], ?_⟩
  intro request procedure' accepted box keep' same
  obtain ⟨-, -, rfl, rfl, -⟩ := Waiting.call.inj same
  rfl

theorem Loyal.enrol (loyal : c.Loyal h b) (number : Nat) (kind : FeedKind) (pattern : UriPattern)
    (options : EnrolOptions) (name : String) :
    (c.enrol number kind pattern options name).Loyal h b := by
  refine loyal.whenEstablished number _ _ ?_
  exact (loyal.drawId.newBox.newBox.newBox.issue rfl).await number true
    ⟨by simp [Waiting.tickets], by simp⟩

theorem Loyal.sendFor (loyal : c.Loyal h b) (number : Nat) (onSession : Bool) (m : Message)
    (operation : Operation) (target : String) {back : Option (String × Ticket)}
    (own : ∀ e, back = some e → e.2.Loyal h b) (outcome : Outcome) :
    (c.sendFor number onSession m operation target back outcome).Loyal h b := by
  refine (loyal.newBox.issue rfl).await number onSession ⟨fun t there => ?_, by simp⟩
  obtain ⟨e, he, rfl⟩ := Option.map_eq_some_iff.mp (Option.mem_toList.mp there)
  exact own e he

theorem Loyal.publish (loyal : c.Loyal h b) (number : Nat) (topic : Uri) (payload : Payload)
    (options : PublishOptions) : (c.publish number topic payload options).Loyal h b := by
  refine loyal.whenEstablished number _ _ ?_
  dsimp only
  split
  · exact (loyal.drawId.newBox.newBox.issue rfl).await number true
      ⟨by simp [Waiting.tickets], by simp⟩
  · exact loyal.drawId.sendFor number true _ _ _ (by simp) _

theorem Loyal.leave (loyal : c.Loyal h b) (number : Nat) : (c.leave number).Loyal h b := by
  unfold Client.leave
  split
  · exact loyal.conclude number _
  · exact (loyal.newBox.issue rfl).await number true
      ⟨by simp [Waiting.tickets], by simp⟩

theorem Loyal.departing (loyal : c.Loyal h b) (number : Nat) (name : String) {t : FeedTicket}
    (other : t.route ≠ h) : (c.departing number name t).Loyal h b := by
  refine (loyal.drawId.newBox.newBox.issue ?_).await number false
    ⟨fun u there => ?_, by simp⟩
  · simpa [Command.removes, Target.removes] using other
  · rw [List.mem_singleton.mp there]
    exact other

/-- The route of a call goes only together with the box. -/
theorem Loyal.release (loyal : c.Loyal h b) {t : Ticket} (own : t.Loyal h b)
    (heard : b ∉ (c.release t).session.gone) : (c.release t).Loyal h b := by
  have call : ∀ t : CallTicket, (t.route = h → t.box = b) →
      b ∉ (c.release (.call t)).session.gone → (c.release (.call t)).Loyal h b := by
    intro t own heard
    have other : t.route ≠ h := by
      intro same
      rw [release_call, own same] at heard
      exact heard List.mem_cons_self
    rw [release_call]
    refine Loyal.forget ?_ t.box
    split
    · exact loyal
    · exact loyal.issue (by simpa [Command.removes] using other)
  cases t with
  | call t => exact call t own heard
  | results t => exact call t own heard
  | feed t =>
    have other : t.route ≠ h := own
    rw [release_feed]
    refine Loyal.forget ?_ t.box
    split
    · exact loyal
    · exact loyal.drawId.issue (by simpa [Command.removes, Target.removes] using other)
  | invocation t =>
    rw [release_invocation]
    split
    · exact loyal
    · exact loyal.issue rfl

variable {w w' : Work}

theorem Loyal.forgetAll (loyal : c.Loyal h b) (boxes : List Box) :
    (boxes.foldl Client.forget c).Loyal h b := by
  induction boxes generalizing c with
  | nil => exact loyal
  | cons box rest ih => exact ih (loyal.forget box)

theorem Work.Loyal.part (loyal : w.Loyal h b) (part : Part w w')
    (heard : b ∉ w'.client.session.gone) : w'.Loyal h b := by
  obtain ⟨client, hand⟩ := loyal
  cases part with
  | concluded number outcome => exact ⟨client.conclude number outcome, hand⟩
  | called fresh procedure payload options keep =>
    exact ⟨client.call _ procedure payload options keep, hand⟩
  | enrolled fresh kind pattern options name =>
    exact ⟨client.enrol _ kind pattern options name, hand⟩
  | published fresh topic payload options => exact ⟨client.publish _ topic payload options, hand⟩
  | left fresh => exact ⟨client.leave _, hand⟩
  | dropped =>
    have closed := Loyal.issue client (show (Command.close none).removes h = false from rfl)
    exact ⟨closed.quiet rfl rfl (fun _ he => he) fun _ there => there, hand⟩
  | took found =>
    refine ⟨client.takeOut _, fun t there => ?_⟩
    rcases List.mem_cons.mp there with rfl | there
    · exact client.ticket? found
    · exact hand t there
  | put name t =>
    refine ⟨client.putting name (hand t List.mem_cons_self), fun u there => ?_⟩
    rcases List.mem_append.mp there with old | there
    · exact client.ticket? (Option.mem_toList.mp old)
    · exact hand u (List.mem_cons_of_mem _ there)
  | released t =>
    exact ⟨client.release (hand t List.mem_cons_self) heard,
      fun u there => hand u (List.mem_cons_of_mem _ there)⟩
  | waits fresh onSession plain =>
    refine ⟨client.await _ onSession (Waiting.loyal_of_plain (fun t there => ?_) plain),
      fun u there => hand u (List.mem_append_right _ there)⟩
    exact hand t (List.mem_append_left _ there)
  | @canceled c ts number fresh name t more first mode =>
    have own : Ticket.Loyal h b (.call t) := hand _ List.mem_cons_self
    refine ⟨client.sendFor number false _ _ _ (fun e same => ?_) _,
      fun u there => hand u (List.mem_cons_of_mem _ there)⟩
    rw [← Option.some.inj same]
    exact own
  | answered fresh name first answers =>
    refine ⟨client.sendFor _ false _ _ _ (fun e same => ?_) _,
      fun u there => hand u (List.mem_cons_of_mem _ there)⟩
    rw [← Option.some.inj same]
    trivial
  | departed fresh name first live =>
    exact ⟨client.departing _ name (hand _ List.mem_cons_self),
      fun u there => hand u (List.mem_cons_of_mem _ there)⟩
  | shut t late =>
    refine ⟨client, fun u there => ?_⟩
    rcases List.mem_cons.mp there with rfl | there
    · exact hand (.feed t) List.mem_cons_self
    · exact hand u (List.mem_cons_of_mem _ there)
  | streamed t =>
    refine ⟨client, fun u there => ?_⟩
    rcases List.mem_cons.mp there with rfl | there
    · exact hand (.call t) List.mem_cons_self
    · exact hand u (List.mem_cons_of_mem _ there)
  | @gaveUp c ts task there =>
    have left : (c.without task.number).Loyal h b :=
      client.quiet rfl rfl (fun _ he => he) fun _ there => List.mem_of_mem_filter there
    refine ⟨left.forgetAll _, fun u out => ?_⟩
    rcases List.mem_append.mp out with own | old
    · exact (client.tasks task there).tickets u own
    · exact hand u old

theorem Work.Loyal.parts (loyal : w.Loyal h b) (parts : Parts w w')
    (heard : b ∉ w'.client.session.gone) : w'.Loyal h b := by
  induction parts with
  | refl => exact loyal
  | tail _ part ih => exact (ih fun gone => heard (part.grows.gone gone)).part part heard

theorem Loyal.resumes (loyal : c.Loyal h b) {tasks : List Task} {v : Waiting} {outcome : Outcome}
    (left : ∀ task ∈ tasks, task ∈ c.tasks) (own : v.Loyal h b)
    (resumes : c.Resumes tasks v outcome w) (heard : b ∉ w.client.session.gone) :
    w.Loyal h b := by
  have rest : ({ c with tasks } : Client).Loyal h b := loyal.quiet rfl rfl (fun _ he => he) left
  cases resumes with
  | resumed yields => exact ⟨rest, loyal.yields own yields⟩
  | refused bare own => exact ⟨rest.forget _, fun _ there => absurd there List.not_mem_nil⟩
  | @settled t waits =>
    subst waits
    have held : Ticket.Loyal h b (.call { t with settled := true }) :=
      own.tickets (.call t) List.mem_cons_self
    exact ⟨rest.release held heard, fun _ there => absurd there List.not_mem_nil⟩
  | @ceased name t accepted reply waits =>
    subst waits
    have other : t.route ≠ h := own.tickets (.feed t) List.mem_cons_self
    refine ⟨rest.issue (by simpa [Command.removes] using other), fun u there => ?_⟩
    rwa [List.mem_singleton.mp there]

theorem Loyal.polls (loyal : c.Loyal h b) {number : Nat} (polls : c.Polls number d)
    (heard : b ∉ d.session.gone) : d.Loyal h b := by
  cases polls with
  | still none' => exact loyal
  | @turned task request procedure accepted box route found moved waits was =>
    refine { loyal with tasks := fun other among => ?_ }
    obtain ⟨old, before, rfl⟩ := List.mem_map.mp among
    split
    · have own := loyal.tasks task (List.mem_of_find?_eq_some found)
      rw [waits] at own
      exact Waiting.loyal_of_plain (loyal.yields own (.accepted was .done)) rfl
    · exact loyal.tasks old before
  | ended found moved resumes parts =>
    have resumed := loyal.resumes (fun _ there => List.mem_of_mem_filter there)
      (loyal.tasks _ (List.mem_of_find?_eq_some found)) resumes
      fun gone => heard (Parts.grows parts |>.gone gone)
    exact (resumed.parts parts heard).client

end Client

end WampClient
