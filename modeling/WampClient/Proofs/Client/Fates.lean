import WampClient.Proofs.Client.Exchanges
import WampClient.Proofs.Client.Purposes

/-! What becomes of an invocation after it was put into a box. It lies there until it is taken out,
and then there is a ticket for it until it is answered. It can be lost in one way: with the box,
when the ticket of the registration is let go of, or the operation that was to get that ticket. -/
namespace WampClient.Client

variable {c d : Client} {w w' : Work} {b : Box} {k : Nat} {i : Invocation} {cell : Cell}
  {past cmds : List Command} {m : Move} {ms : List Move} {base : Nat}

/-- Somebody has the ticket of the box, or is to get it. -/
def Work.Tended (b : Box) (w : Work) : Prop :=
  w.Opening b ∨ ∃ t, .feed t ∈ inbound w.tickets ∧ t.box = b

/-- Somebody is still to take out what lies at a place of the box. -/
def Work.Waits (b : Box) (k : Nat) (w : Work) : Prop :=
  w.Opening b ∨ ∃ t, .feed t ∈ inbound w.tickets ∧ t.box = b ∧ t.read ≤ k

/-- There is a ticket for the invocation, which was not given its final answer. -/
def Work.Holds (i : Invocation) (cell : Cell) (w : Work) : Prop :=
  ∃ t, .invocation t ∈ inbound w.tickets ∧ t.invocation = i ∧ t.cell = cell ∧ t.handled = false

/-- The session is asked for the final answer to an invocation. -/
def Settling (r : Id) (commands : List Command) : Prop :=
  ∃ m box, .send m box ∈ commands ∧ m.settles? = some r

/-- The invocation can still be answered, or is about to be, or was answered after so many other
things had been sent. -/
def Owes (i : Invocation) (cell : Cell) (base : Nat) (w : Work) : Prop :=
  w.Holds i cell ∨ Settling i.request w.client.commands ∨
    ∃ x ∈ w.client.session.wire.sent.drop base, x.settles? = some i.request

/-! ### What the client does on its own -/

theorem Work.Tended.turns (tended : w.Tended b) (turns : w.Turns w') :
    w'.Tended b ∨ b ∈ w'.client.session.gone := by
  rcases tended with opening | ⟨t, there, rfl⟩
  · rcases turns.keeps b opening with still | gone | ⟨t, there, box, -⟩
    · exact Or.inl (Or.inl still)
    · exact Or.inr gone
    · exact Or.inl (Or.inr ⟨t, mem_inbound.mpr ⟨there, rfl⟩, box⟩)
  · rcases turns.exchanges.feed there with gone | ⟨u, there', box, -⟩
    · exact Or.inr gone
    · exact Or.inl (Or.inr ⟨u, there', box⟩)

theorem Work.Waits.turns (waits : w.Waits b k)
    (lies : (w.client.session.postsTo b)[k]? = some (.invocation i cell)) (turns : w.Turns w') :
    w'.Waits b k ∨ b ∈ w'.client.session.gone ∨ w'.Holds i cell := by
  rcases waits with opening | ⟨t, there, rfl, read⟩
  · rcases turns.keeps b opening with still | gone | ⟨t, there, box, fresh⟩
    · exact Or.inl (Or.inl still)
    · exact Or.inr (Or.inl gone)
    · exact Or.inl (Or.inr ⟨t, mem_inbound.mpr ⟨there, rfl⟩, box, fresh ▸ Nat.zero_le k⟩)
  · rcases turns.exchanges.feed there with gone | ⟨u, there', box, same | ⟨more, p, out, given⟩⟩
    · exact Or.inr (Or.inl gone)
    · exact Or.inl (Or.inr ⟨u, there', box, same ▸ read⟩)
    · rcases Nat.lt_or_eq_of_le read with later | here
      · exact Or.inl (Or.inr ⟨u, there', box, more ▸ later⟩)
      · -- it is the one that was taken out
        rw [here, lies] at out
        exact Or.inr (Or.inr ⟨_, given i cell (Option.some.inj out).symm, rfl, rfl, rfl⟩)

theorem Work.Holds.turns (holds : w.Holds i cell) (turns : w.Turns w')
    (live : w.client.session.phase = .established) :
    w'.Holds i cell ∨ Settling i.request w'.client.commands := by
  obtain ⟨t, there, rfl, rfl, open'⟩ := holds
  have stays : ∀ {us : List Ticket}, .invocation t ∈ us → (inbound w'.tickets).Perm us →
      w'.Holds t.invocation t.cell ∨ Settling t.invocation.request w'.client.commands :=
    fun among after => Or.inl ⟨t, after.mem_iff.mpr among, rfl, rfl, open'⟩
  cases turns.exchanges with
  | same tickets silent => exact stays there tickets
  | shut before after silent =>
    rcases List.mem_cons.mp (before.mem_iff.mp there) with same | other
    · cases same
    · exact stays (List.mem_cons_of_mem _ other) after
  | dropped before after gone settled silent =>
    rcases List.mem_cons.mp (before.mem_iff.mp there) with rfl | other
    · rcases settled t rfl with handled | late
      · cases open'.symm.trans handled
      · exact absurd live late
    · exact stays other after
  | @answered u us rest m final box before after first answers kept issues =>
    rcases List.mem_cons.mp (before.mem_iff.mp there) with same | other
    · obtain rfl := Ticket.invocation.inj same
      cases final with
      | false =>
        have goes_on : us = [.invocation { t with handled := false }] :=
          kept.resolve_right fun gone => by cases gone.2
        have among : .invocation { t with handled := false } ∈ us ++ rest := by simp [goes_on]
        exact Or.inl ⟨_, after.mem_iff.mpr among, rfl, rfl, rfl⟩
      | true =>
        refine Or.inr ⟨m, box, ?_, answers.about.2⟩
        rw [issues]
        exact List.mem_append_right _ (List.mem_singleton_self _)
    · exact stays (List.mem_append_right _ other) after
  | opened due after silent => exact stays (List.mem_cons_of_mem _ there) after
  | passed lies before after silent =>
    rcases List.mem_cons.mp (before.mem_iff.mp there) with same | other
    · cases same
    · exact stays (List.mem_cons_of_mem _ other) after
  | yielded lies before after silent =>
    rcases List.mem_cons.mp (before.mem_iff.mp there) with same | other
    · cases same
    · exact stays (List.mem_cons_of_mem _ (List.mem_cons_of_mem _ other)) after

theorem Owes.turns (owes : Owes i cell base w) (turns : w.Turns w')
    (live : w.client.session.phase = .established) : Owes i cell base w' := by
  rcases owes with holds | ⟨m, box, there, settles⟩ | sent
  · exact (holds.turns turns live).imp_right Or.inl
  · obtain ⟨new, commands, -⟩ := turns.grows.commands
    exact Or.inr (Or.inl ⟨m, box, commands ▸ List.mem_append_left _ there, settles⟩)
  · obtain ⟨boxes, session⟩ := turns.grows.session
    refine Or.inr (Or.inr ?_)
    rw [session]
    exact sent

theorem grows_of_turns (chain : Relation.ReflTransGen Work.Turns w w') :
    w.client.Grows w'.client := by
  induction chain with
  | refl => exact .refl _
  | tail _ turns ih => exact ih.trans turns.grows

theorem Owes.chain (owes : Owes i cell base w) (live : w.client.session.phase = .established)
    (chain : Relation.ReflTransGen Work.Turns w w') : Owes i cell base w' := by
  induction chain with
  | refl => exact owes
  | tail chain turns ih => exact ih.turns turns ((phase_grows (grows_of_turns chain)).trans live)

/-- What becomes of an invocation that lies in a box. -/
theorem Work.Waits.chain (waits : w.Waits b k)
    (lies : (w.client.session.postsTo b)[k]? = some (.invocation i cell))
    (live : w.client.session.phase = .established) (base : Nat)
    (chain : Relation.ReflTransGen Work.Turns w w') :
    w'.Waits b k ∨ b ∈ w'.client.session.gone ∨ Owes i cell base w' := by
  induction chain with
  | refl => exact Or.inl waits
  | tail chain turns ih =>
    have grows := grows_of_turns chain
    rcases ih with waits | gone | owes
    · have same := Session.postsTo_congr (b := b) (posts_of_grows grows)
      exact (waits.turns (same ▸ lies) turns).imp_right (Or.imp_right Or.inl)
    · exact Or.inr (Or.inl (turns.grows.gone gone))
    · exact Or.inr (Or.inr (owes.turns turns ((phase_grows grows).trans live)))

/-! ### Moves -/

theorem Work.Waits.heard (waits : Work.Waits b k ⟨c, []⟩) (orderly : c.Orderly) :
    b ∉ c.session.gone := by
  rcases waits with ⟨task, there, due⟩ | ⟨t, there, rfl, -⟩
  · exact orderly.heard there (Waiting.mem_boxes_of_enrols due)
  · exact ((orderly.owned t.box).held (mem_inbound.mp there).1 (by simp)).2.1

/-- What the session takes in changes nothing about who waits for what. -/
theorem Work.Opening.takes {input : Input} (takes : c.input? m = some input) :
    Work.Opening b ⟨c.move m, []⟩ ↔ Work.Opening b ⟨c, []⟩ := by
  rw [Work.Opening, Work.Opening, (tickets_of_takes takes).2.1]

theorem Owes.move (owes : Owes i cell base ⟨c, []⟩) (listed : c.Listed)
    (far : base ≤ c.session.wire.sent.length)
    (live : (c.move m).session.phase = .established) : Owes i cell base ⟨c.move m, []⟩ := by
  cases takes : c.input? m with
  | none => exact owes.chain (established_of_move live) (turns_move takes listed).1
  | some input =>
    have held : Work.tickets ⟨c.move m, []⟩ = Work.tickets ⟨c, []⟩ := heldTickets_of_takes takes
    rcases owes with ⟨t, there, own⟩ | ⟨q, box, there, settles⟩ | ⟨x, there, settles⟩
    · exact Or.inl ⟨t, held ▸ there, own⟩
    · have there : .send q box ∈ c.commands := there
      rw [queue_of_takes takes] at there
      rcases List.mem_append.mp there with now | later
      · -- it is sent now
        have asked : input = .command (.send q box) := by
          cases m with
          | serve =>
            obtain ⟨command, head, rfl⟩ := Option.map_eq_some_iff.mp takes
            rw [taken, head] at now
            rw [List.mem_singleton.mp now]
          | _ => cases now
        subst asked
        rw [session_move takes] at live
        refine Or.inr (Or.inr ⟨.message q, ?_, settles⟩)
        change _ ∈ (c.move m).session.wire.sent.drop base
        rw [session_move takes, Session.sent_of_send live, List.drop_append_of_le_length far]
        exact List.mem_append_right _ (List.mem_singleton_self _)
      · exact Or.inr (Or.inl ⟨q, box, later, settles⟩)
    · obtain ⟨more, sent⟩ := Session.sent_prefix_step c.session input
      refine Or.inr (Or.inr ⟨x, ?_, settles⟩)
      change _ ∈ (c.move m).session.wire.sent.drop base
      rw [session_move takes, ← sent, List.drop_append_of_le_length far]
      exact List.mem_append_left _ there

theorem Owes.run (owes : Owes i cell base ⟨c, []⟩) (listed : c.Listed)
    (far : base ≤ c.session.wire.sent.length)
    (live : (c.run ms).session.phase = .established) : Owes i cell base ⟨c.run ms, []⟩ := by
  induction ms generalizing c with
  | nil => exact owes
  | cons m rest ih =>
    have more := (sent_prefix_run c [m]).length_le
    exact ih (owes.move listed far (established_of_run live)) (listed.move m)
      (Nat.le_trans far more) live

theorem Work.Waits.move (waits : Work.Waits b k ⟨c, []⟩) (listed : c.Listed)
    (lies : (c.session.postsTo b)[k]? = some (.invocation i cell)) (base : Nat)
    (live : (c.move m).session.phase = .established) :
    Work.Waits b k ⟨c.move m, []⟩ ∨ b ∈ (c.move m).session.gone ∨
      Owes i cell base ⟨c.move m, []⟩ := by
  cases takes : c.input? m with
  | none => exact waits.chain lies (established_of_move live) base (turns_move takes listed).1
  | some input =>
    have held : Work.tickets ⟨c.move m, []⟩ = Work.tickets ⟨c, []⟩ := heldTickets_of_takes takes
    refine Or.inl ?_
    rcases waits with opening | ⟨t, there, own⟩
    · exact Or.inl ((Work.Opening.takes takes).mpr opening)
    · exact Or.inr ⟨t, held ▸ there, own⟩

/-- What has become of an invocation at a place of a box after these moves, when so many things had
been sent before it came. -/
inductive Fate (i : Invocation) (cell : Cell) (b : Box) (k base : Nat) (c : Client)
    (ms : List Move) : Prop where
  | answered {x : StreamItem} (sent : x ∈ (c.run ms).session.wire.sent.drop base)
      (settles : x.settles? = some i.request)
  | held (holds : Work.Holds i cell ⟨c.run ms, []⟩)
  | waits (waits : Work.Waits b k ⟨c.run ms, []⟩)
  /-- It was still to be taken out of the box when this was let go of. -/
  | lost (before : List Move) {m : Move} {after : List Move} (split : ms = before ++ m :: after)
      (waited : Work.Waits b k ⟨c.run before, []⟩) (heard : b ∉ (c.run before).session.gone)
      (gone : b ∈ ((c.run before).move m).session.gone)

theorem Owes.fate (owes : Owes i cell base ⟨c.run ms, []⟩) (idle : (c.run ms).commands = []) :
    Fate i cell b k base c ms := by
  rcases owes with holds | ⟨m, box, there, -⟩ | ⟨x, sent, settles⟩
  · exact .held holds
  · have there : .send m box ∈ (c.run ms).commands := there
    rw [idle] at there
    exact absurd there List.not_mem_nil
  · exact .answered sent settles

theorem Work.Waits.fate (waits : Work.Waits b k ⟨c, []⟩) (settled : Settled past c)
    (listed : c.Listed) (lies : (c.session.postsTo b)[k]? = some (.invocation i cell))
    (far : base ≤ c.session.wire.sent.length)
    (live : (c.run ms).session.phase = .established) (idle : (c.run ms).commands = []) :
    Fate i cell b k base c ms := by
  induction ms generalizing c past with
  | nil => exact .waits waits
  | cons m rest ih =>
    have more := (sent_prefix_run c [m]).length_le
    rcases waits.move listed lies base (established_of_run live) with waits' | gone | owes
    · have longer := posts_prefix_run settled.books.sound [m]
      cases ih waits' (settled.move m) (listed.move m)
        (getElem?_of_longer (longer.filterMap _) lies) (Nat.le_trans far more) live idle with
      | answered sent settles => exact .answered sent settles
      | held holds => exact .held holds
      | waits still => exact .waits still
      | lost before split waited heard gone =>
        exact .lost (m :: before) (congrArg (m :: ·) split) waited heard gone
    · exact .lost [] rfl waits (waits.heard settled.orderly) gone
    · have owes' : Owes i cell base ⟨c.run (m :: rest), []⟩ :=
        owes.run (listed.move m) (Nat.le_trans far more) live
      exact owes'.fate idle

/-! ### Boxes of registrations -/

/-- Whoever asks for a registration or subscription is there to look into its box, or has let go of
it. -/
def Work.Kept (past : List Command) (w : Work) : Prop :=
  ∀ command ∈ past ++ w.client.commands, ∀ b, command.enrols? = some b →
    w.Tended b ∨ b ∈ w.client.session.gone

theorem Work.Kept.turns (kept : w.Kept past) (turns : w.Turns w') : w'.Kept past := by
  intro command there b due
  have either : command ∈ past ++ w.client.commands ∨ w'.Opening b := by
    rcases List.mem_append.mp there with old | queued
    · exact Or.inl (List.mem_append_left _ old)
    · exact (turns.enrols command queued).imp (List.mem_append_right _) fun fresh => fresh b due
  rcases either with old | opening
  · rcases kept command old b due with tended | gone
    · exact tended.turns turns
    · exact Or.inr (turns.grows.gone gone)
  · exact Or.inl (Or.inl opening)

theorem Work.Kept.chain (kept : w.Kept past) (chain : Relation.ReflTransGen Work.Turns w w') :
    w'.Kept past := by
  induction chain with
  | refl => exact kept
  | tail _ turns ih => exact ih.turns turns

theorem Work.Kept.move (kept : Work.Kept past ⟨c, []⟩) (listed : c.Listed)
    (sound : c.session.Sound) (m : Move) : Work.Kept (past ++ c.taken m) ⟨c.move m, []⟩ := by
  cases takes : c.input? m with
  | none =>
    rw [taken_of_quiet takes, List.append_nil]
    exact kept.chain (turns_move takes listed).1
  | some input =>
    have held : Work.tickets ⟨c.move m, []⟩ = Work.tickets ⟨c, []⟩ := heldTickets_of_takes takes
    intro command there b due
    have there : command ∈ past ++ c.taken m ++ (c.move m).commands := there
    rw [List.append_assoc, ← queue_of_takes takes] at there
    rcases kept command there b due with (opening | ⟨t, among, own⟩) | gone
    · exact Or.inl (Or.inl ((Work.Opening.takes takes).mpr opening))
    · exact Or.inl (Or.inr ⟨t, held ▸ among, own⟩)
    · exact Or.inr ((moves c m).gone sound gone)

theorem Work.Kept.run (kept : Work.Kept past ⟨c, []⟩) (listed : c.Listed)
    (sound : c.session.Sound) (ms : List Move) :
    Work.Kept (past ++ c.served ms) ⟨c.run ms, []⟩ :=
  (run_of_moves (P := fun past c => Work.Kept past ⟨c, []⟩ ∧ c.Listed ∧ c.session.Sound)
    ⟨kept, listed, sound⟩ (fun ⟨kept, listed, sound⟩ m =>
      ⟨kept.move listed sound m, listed.move m, sound_move sound m⟩) ms).1

section

variable {r registration : Id} {details : Dictionary} {payload : Payload}

theorem enrols?_request (kind : FeedKind) {q : Message} {keys : List RouteKey} {reply : Box}
    {answer : Option Box} :
    (Command.request q keys (.reply (some reply) (some (.install (kind.feed b)))) answer).enrols? =
      some b := congrArg some (kind.box_feed b)

/-- An invocation that has just been put in is still to be taken out. -/
theorem Fresh.waits_of_queued (fresh : Fresh c) (listed : c.Listed) (idle : c.commands = [])
    (live : (c.run ms).session.phase ≠ .closed)
    (new : ((c.run ms).session.postsTo b).length ≤ k) :
    let m : Move := .arrive (.item (.message (.invocation r registration details payload)))
    (((c.run ms).move m).session.postsTo b)[k]? = some (.invocation i cell) →
      i = ⟨r, registration, details, payload⟩ ∧ Work.Waits b k ⟨(c.run ms).move m, []⟩ := by
  intro m lies
  have sound := (fresh.settled.run ms).books.sound
  obtain ⟨same, heard, y, there, takes, handler⟩ := Session.host_of_queued sound live new lies
  refine ⟨same, ?_⟩
  obtain ⟨b', handler', -, -, q, request, reply, answer, asked⟩ :=
    fresh.registration_of_takes there takes
  obtain rfl : b' = b := by simpa using handler'.symm.trans handler
  have start : Work.Kept [] ⟨c, []⟩ := by
    intro command among
    have among : command ∈ [] ++ c.commands := among
    rw [idle] at among
    exact absurd among List.not_mem_nil
  have kept := start.run listed fresh.settled.books.sound ms
  rcases kept _ (List.mem_append_left _ asked) b' (enrols?_request .registration) with
    (opening | ⟨t, among, box⟩) | gone
  · exact Or.inl opening
  · have logged := (fresh.reads b' ms).tickets (.feed t) (mem_inbound.mp among).1 (by simp [box])
    exact Or.inr ⟨t, among, box, Nat.le_trans logged.within new⟩
  · exact absurd gone heard

end

/-- No caller is left waiting by a client whose session goes on, but in one way. An INVOCATION is
turned away or put into the box of a registration; from there on, whenever there is nothing left to
be sent, it has had its final answer, or there is a ticket for it that was not given the final
answer, or it is still to be taken out of the box: unless the box was let go of before that. -/
theorem invocations_answered (wire : Wire) (now closeTimeout : Nat) (ids : IdSource) (id : Id)
    (realm : Uri) (details : Dictionary) (before after : List Move) (i : Invocation) :
    let c := joined (Session.established wire now closeTimeout) ids id realm details
    let d := c.run before
    let came : Move :=
      .arrive (.item (.message (.invocation i.request i.registration i.details i.payload)))
    let e := d.move came
    let base := d.session.wire.sent.length
    (e.run after).session.phase = .established → (e.run after).commands = [] →
    (.message (Message.rejection i.request) ∈ e.session.wire.sent.drop base ∨
      ∃ b k cell, (d.session.postsTo b).length ≤ k ∧
        (e.session.postsTo b)[k]? = some (.invocation i cell)) ∧
    ∀ b k j cell, (d.session.postsTo b).length ≤ k →
      (e.session.postsTo b)[k]? = some (.invocation j cell) →
        j = i ∧ Fate i cell b k base e after := by
  intro c d came e base live idle
  have fresh : Fresh c := fresh_joined wire now closeTimeout ids id realm details
  have listed : c.Listed := listed_joined wire now closeTimeout ids id realm details
  have live' : e.session.phase = .established := established_of_run live
  have opened : d.session.phase = .established := established_of_move live'
  have settled := fresh.settled.run before
  have going : d.session.phase ≠ .closed := by simp [opened]
  have step : e.session = d.session.distribute
      (.invocation i.request i.registration i.details i.payload) := Session.step_invocation going
  refine ⟨?_, fun b k j cell new lies => ?_⟩
  · have emits := Session.emits_distribute d.session
      (.invocation i.request i.registration i.details i.payload)
    rw [← step] at emits
    obtain ⟨done, sent, -, all⟩ := emits.sent
    obtain ⟨put, posts, -⟩ := emits.posts
    rcases Session.queued_or_rejected settled.books.sound (fresh.hosts before i.registration) with
      rejected | ⟨b, k, cell, new, lies⟩
    · refine Or.inl ?_
      rw [← all (by simp [live'])] at rejected
      have more : e.session.wire.sent = d.session.wire.sent ++ done := sent
      rw [more, List.drop_left]
      exact rejected
    · have longer : (d.session.handedAround _).posts <+: e.session.posts := ⟨put, posts.symm⟩
      exact Or.inr ⟨b, k, cell, new, getElem?_of_longer (longer.filterMap _) lies⟩
  · obtain ⟨rfl, waits⟩ := fresh.waits_of_queued listed rfl going new lies
    have far : base ≤ e.session.wire.sent.length := (sent_prefix_run d [came]).length_le
    exact ⟨rfl, waits.fate (settled.move came) ((listed.run before).move came) lies far live idle⟩

/-- An invocation whose ticket is let go of without an answer. -/
theorem invocations_answered_dropped :
    let before : List Move := [.act 0 (.onSession (.enrol .registration "a" none "t")), .serve,
      .arrive (.item (.message (.registered Id.min Id.min))), .poll 0]
    let i : Invocation := ⟨Id.min, Id.min, [], Payload.empty⟩
    let after : List Move := [.act 1 (.onTicket "t" (.nextInvocation "i")), .poll 1,
      .act 2 (.onTicket "i" .drop), .serve]
    let d := newcomer.run before
    let e := d.move
      (.arrive (.item (.message (.invocation i.request i.registration i.details i.payload))))
    let f := e.run after
    let base := d.session.wire.sent.length
    (f.session.phase = .established ∧ f.commands = []) ∧
      ((d.session.postsTo 2).length ≤ 0 ∧ (e.session.postsTo 2)[0]? = some (.invocation i 0)) ∧
        Fate i 0 2 0 base e after ∧
          (f.session.wire.sent.drop base).filterMap StreamItem.settles? = [Id.min] := by
  intro before i after d e f base
  -- The premises are evaluated where they are asked for: one that is named first, about `f`, would
  -- be compared with what is asked for by running both clients again.
  have all := invocations_answered (Wire.fresh fun _ => none) 0 1000 IdSource.initial Id.min
    ⟨"realm"⟩ [] before after i (by decide) rfl
  have fate : Fate i 0 2 0 base e after := (all.2 2 0 i 0 (by decide) rfl).2
  exact ⟨⟨by decide, rfl⟩, ⟨by decide, rfl⟩, fate, by decide⟩

/-- The ticket of a registration is let go of while an invocation lies in its box. Nothing is left
of the invocation then, and nothing was said about it. -/
theorem invocations_lost :
    let before : List Move := [.act 0 (.onSession (.enrol .registration "a" none "t")), .serve,
      .arrive (.item (.message (.registered Id.min Id.min))), .poll 0]
    let after : List Move := [.act 1 (.onTicket "t" .drop), .serve]
    let d := newcomer.run before
    let e := d.move (.arrive (.item (.message (.invocation Id.min Id.min [] Payload.empty))))
    let f := e.run after
    e.session.postsTo 2 = [.invocation ⟨Id.min, Id.min, [], Payload.empty⟩ 0] ∧
      f.session.phase = .established ∧ f.commands = [] ∧ f.tickets = [] ∧ f.tasks = [] ∧
        f.session.wire.sent.filterMap StreamItem.answers? = [] := by
  exact ⟨rfl, rfl, rfl, rfl, rfl, rfl⟩

end WampClient.Client
