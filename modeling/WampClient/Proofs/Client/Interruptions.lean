import WampClient.Proofs.Client.Purposes
import WampClient.Proofs.Session.Watches

/-! Interrupts of invocations, in runs of a session whose commands take out no routes that nobody
was told of. The commands of a client are of this kind. -/
namespace WampClient

theorem Comes.told {commands : List Command} {s : Session} {h : Handle} {b : Box}
    (comes : Comes commands s.posts h b) : s.Told h := by
  cases comes with
  | call asked put => exact ⟨_, put, rfl⟩
  | feed asked put => exact ⟨_, put, rfl⟩

/-- No request of a client waits for INTERRUPT. -/
theorem Command.Formed.waits {known : FeedKind → Id → Handle → Prop} {c : Command}
    (formed : c.Formed known) {m : Message} {keys : List RouteKey} {target : Target}
    {answer : Option Box} (same : c = .request m keys target answer) :
    (∀ cell, target ≠ .interrupt cell) ∧
      ∀ key ∈ keys, key.kind ≠ .message MessageType.interrupt.code := by
  cases formed with
  | send m answer => exact nomatch same
  | close answer => exact nomatch same
  | removeRoute route => exact nomatch same
  | call request options procedure payload box answer =>
    obtain ⟨-, rfl, rfl, -⟩ := Command.request.inj same
    exact ⟨by simp, by simp [Client.callKeys, RouteKey.ofReply, RouteKey.ofRefusal,
      MessageType.code]⟩
  | publish request options topic payload reply answer =>
    obtain ⟨-, rfl, rfl, -⟩ := Command.request.inj same
    exact ⟨by simp, by simp [Client.publishKeys, RouteKey.ofReply, RouteKey.ofRefusal,
      MessageType.code]⟩
  | enrol kind request options pattern reply box answer =>
    obtain ⟨-, rfl, rfl, -⟩ := Command.request.inj same
    exact ⟨by simp, by cases kind <;> simp [FeedKind.enrolmentKeys, RouteKey.ofReply,
      RouteKey.ofRefusal, MessageType.code]⟩
  | @depart kind id route own request reply answer =>
    obtain ⟨-, rfl, rfl, -⟩ := Command.request.inj same
    exact ⟨by simp, by cases kind <;> simp [FeedKind.departureKeys, RouteKey.ofReply,
      RouteKey.ofRefusal, MessageType.code]⟩

namespace Client

variable {c : Client} {past : List Command} {ms : List Move}

/-- A client has no route taken out that nobody was told of. -/
theorem Settled.modest (settled : Settled past c) {command : Command}
    (there : command ∈ c.commands) : command.Modest c.session.Told where
  removes h removes := by
    obtain ⟨b, comes, -⟩ :=
      settled.sourced.removed h command (List.mem_append_right _ there) removes
    exact comes.told
  waits m keys target answer same :=
    (settled.sourced.formed command (List.mem_append_right _ there)).waits same

theorem run_forgets (s : Session) (boxes : List Box) :
    s.run (boxes.map .forget) = { s with gone := boxes.reverse ++ s.gone } ∧
      s.Modest (boxes.map .forget) := by
  induction boxes generalizing s with
  | nil => exact ⟨rfl, trivial⟩
  | cons box rest ih =>
    obtain ⟨same, modest⟩ := ih (s.step (.forget box))
    refine ⟨?_, trivial, modest⟩
    rw [List.map_cons, Session.run, List.foldl_cons]
    refine same.trans ?_
    simp [Session.step]

/-- What a session takes in, in the run of a client. -/
theorem Settled.exists_inputs (settled : Settled past c) (ms : List Move) :
    ∃ inputs, (c.run ms).session = c.session.run inputs ∧ c.session.Modest inputs := by
  induction ms generalizing c past with
  | nil => exact ⟨[], rfl, trivial⟩
  | cons m rest ih =>
    obtain ⟨later, same, modest⟩ := ih (settled.move m)
    have first : ∃ inputs, (c.move m).session = c.session.run inputs ∧ c.session.Modest inputs := by
      cases takes : c.input? m with
      | some input =>
        refine ⟨[input], session_move takes, ?_, trivial⟩
        rcases asked_input takes with ⟨command, there, rfl⟩ | outer
        · exact settled.modest there
        · cases input with
          | command command => exact absurd rfl (outer command)
          | _ => trivial
      | none =>
        obtain ⟨boxes, forgot⟩ := (grows_move takes).session
        obtain ⟨run, modest⟩ := run_forgets c.session boxes.reverse
        exact ⟨_, forgot.trans (by rw [run, List.reverse_reverse]), modest⟩
    obtain ⟨inputs, moved, modest'⟩ := first
    refine ⟨inputs ++ later, ?_, ?_⟩
    · rw [Session.run_append, ← moved]
      exact same
    · refine Session.modest_append modest' ?_
      rwa [← moved]

/-- INTERRUPT is for the invocation that was queued last under its request id. The table of
interrupts and the routes that take INTERRUPT describe each other; an INTERRUPT is shown to that one
invocation or to nobody, and it is shown from the time that the invocation is queued until a message
goes out that settles the request, which a progressive result does not. The step that queues it is
not to settle the request as well: it does if one registration turns the invocation away before
another watches it. -/
theorem interrupts_reach_latest (wire : Wire) (now closeTimeout : Nat) :
    let start := Session.established wire now closeTimeout
    (∀ inputs, start.Modest inputs →
      let s := start.run inputs
      (∀ r h, Assoc.get? r s.interrupts = some h ↔
        ∃ cell, Session.interruptRoute r h cell ∈ s.router.routes) ∧
      (s.interrupts.map Prod.fst).Nodup ∧
      (∀ x ∈ s.router.routes, ∀ cell, x.handler = .interrupt cell →
        ∃ r, x = Session.interruptRoute r x.handle cell) ∧
      s.cells.Nodup ∧
      (s.phase ≠ .closed → ∀ r options,
        let m := Message.interrupt r options
        let t := s.step (.arrival (.item (.message m)))
        let shown := fun cell : Cell =>
          { s with signals := s.signals ++ [(cell, Message.interruptMode options)] }
        (t = s.report Session.unmatched m ∨
          ∃ cell, (s.queued r).getLast? = some cell ∧ t = shown cell) ∧
        ∀ before input after, inputs = before ++ input :: after →
          let a := start.run before
          let b := a.step input
          b.queued r ≠ a.queued r → s.queued r = b.queued r → b.settlings r = a.settlings r →
            if s.settlings r = b.settlings r then
              ∃ cell, (s.queued r).getLast? = some cell ∧ t = shown cell
            else t = s.report Session.unmatched m) ∧
      ∀ r options payload box, options.flag "progress" = true →
        let t := s.step (.command (.send (.yield r options payload) box))
        t.phase ≠ .closed → t.interrupts = s.interrupts ∧ t.router = s.router) ∧
    ∀ (ids : IdSource) (id : Id) (realm : Uri) (details : Dictionary) (ms : List Move),
      ∃ inputs, ((joined start ids id realm details).run ms).session = start.run inputs ∧
        start.Modest inputs := by
  intro start
  have indexed := Session.work_indexed_established wire now closeTimeout
  refine ⟨fun inputs modest => ?_, fun ids id realm details ms => ?_⟩
  · intro s
    have kept : Session.Work.Indexed ⟨s, []⟩ := indexed.run modest
    refine ⟨fun r h => ⟨kept.session.routed r h, fun ⟨cell, there⟩ => ?_⟩, kept.session.distinct,
      fun x there cell own => ?_, ?_, fun live r options => ⟨?_, ?_⟩,
      fun r options payload box more => ?_⟩
    · obtain ⟨q, same, known⟩ := kept.session.indexed _ there cell rfl
      obtain rfl : r = q := by
        simpa [Session.interruptRoute, RouteKey.ofReply] using congrArg Route.keys same
      exact known
    · obtain ⟨q, same, -⟩ := kept.session.indexed x there cell own
      exact ⟨q, same⟩
    · rw [Session.cells_run indexed.sound rfl inputs]
      exact List.nodup_range
    · rw [kept.session.step_interrupt kept.sound live r options]
      cases shown : s.cell? r with
      | none => exact Or.inl rfl
      | some cell =>
        exact Or.inr ⟨cell, Session.cell?_latest indexed rfl modest live shown, rfl⟩
    · rintro before input after rfl a b new same unsettled
      obtain ⟨modest', later⟩ := modest.append
      have split : s = (a.step input).run after := Session.run_append start before (input :: after)
      have latest := Session.cell?_of_queued (r := r) (indexed.run modest') later
        (split ▸ live) new (split ▸ same) unsettled
      rw [← split] at latest
      rw [kept.session.step_interrupt kept.sound live r options, latest]
      obtain ⟨cell, last⟩ := Session.exists_latest (indexed.run modest').sound new
      split
      · rw [same, last]
        exact ⟨cell, rfl, rfl⟩
      · rfl
    · exact Session.keeps_of_send (m := .yield r options payload) (if_pos more) box
  · exact (settled_joined wire now closeTimeout ids id realm details).exists_inputs ms

/-- An invocation that is interrupted while it is queued. -/
theorem interrupts_reach_latest_queued :
    let start := Session.established (Wire.fresh fun _ => none) 0 1000
    let register : Command := .request (.register Id.min [] ⟨"a"⟩)
      (FeedKind.enrolmentKeys Id.min .registration)
      (.reply (some 1) (some (.install (.invocations 2)))) (some 0)
    let inputs : List Input := [.command register,
      .arrival (.item (.message (.registered Id.min Id.min))),
      .arrival (.item (.message (.invocation Id.min Id.min [] Payload.empty)))]
    let s := start.run inputs
    start.Modest inputs ∧ s.queued Id.min = [0] ∧
      s.step (.arrival (.item (.message (.interrupt Id.min [])))) =
        { s with signals := [(0, .kill)] } := by
  intro start register inputs s
  have modest : start.Modest inputs := by
    refine ⟨⟨fun h removes => (nomatch removes), ?_⟩, trivial, trivial, trivial⟩
    intro m keys target answer same
    obtain ⟨-, rfl, rfl, -⟩ := Command.request.inj same
    exact ⟨by simp, by decide⟩
  have all := (interrupts_reach_latest (Wire.fresh fun _ => none) 0 1000).1 inputs modest
  obtain ⟨-, shows⟩ := all.2.2.2.2.1 (by decide) Id.min []
  have queued : s.queued Id.min = [0] := by decide
  obtain ⟨cell, last, shown⟩ := shows [.command register,
    .arrival (.item (.message (.registered Id.min Id.min)))] _ [] rfl (by decide) rfl (by decide)
  have last' : [0].getLast? = some cell := queued ▸ last
  obtain rfl : 0 = cell := Option.some.inj last'
  exact ⟨modest, queued, shown⟩

/-- Two registrations under one id, of which the program has let the first go. The first turns an
invocation away, the second has queued it; INTERRUPT is shown although the request is settled, and
although nothing was queued after that. -/
theorem interrupts_outlive_rejection :
    let other := Id.min.next
    let ms : List Move := [.act 0 (.onSession (.enrol .registration "a" none "t")), .serve,
      .arrive (.item (.message (.registered Id.min Id.min))), .poll 0,
      .act 1 (.onSession (.enrol .registration "b" none "u")), .serve,
      .arrive (.item (.message (.registered other Id.min))), .poll 1,
      .act 2 (.onTicket "t" .drop), .serve,
      .arrive (.item (.message (.invocation Id.min Id.min [] Payload.empty)))]
    let s := (newcomer.run ms).session
    let t := s.step (.arrival (.item (.message (.interrupt Id.min []))))
    s.queued Id.min = [0] ∧ s.settlings Id.min = 1 ∧
      s.wire.sent.getLast?.bind StreamItem.settles? = some Id.min ∧
        t.signals = [(0, .kill)] ∧ t.anomalies = [] := by
  decide

end Client

end WampClient
