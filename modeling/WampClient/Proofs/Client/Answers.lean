import WampClient.Proofs.Client.Exchanges
import WampClient.Proofs.Client.Purposes
import WampClient.Proofs.Session.Offers

/-! What is said about an invocation. It is turned away, or waits in a box, or has been taken out of
it; only then there is a ticket that it can be answered with, and only one. So no more is said once
it is settled. -/
namespace WampClient

/-- The request id of an INVOCATION. -/
def Message.invokes? : Message → Option Id
  | .invocation request _ _ _ => some request
  | _ => none

/-- The invocation can be answered with the ticket. -/
def Ticket.opens (r : Id) : Ticket → Bool
  | .invocation t => !t.handled && t.id == r
  | _ => false

theorem Message.progress_of_unsettled {m : Message} {r : Id} (about : m.answers? = some r)
    (unsettled : m.settles? ≠ some r) :
    ∃ options payload, m = .yield r options payload ∧ options.flag "progress" = true := by
  cases m with
  | yield request options payload =>
    obtain rfl := Option.some.inj about
    refine ⟨options, payload, rfl, ?_⟩
    by_contra last
    exact unsettled (if_neg last)
  | error requestType request details reason payload => exact absurd about unsettled
  | _ => cases about

/-- Where one thing at most is of a kind, it has one place. -/
theorem eq_of_getElem?_of_countP_le {α : Type} {p : α → Bool} {l : List α} (single : l.countP p ≤ 1)
    {j k : Nat} {a b : α} (first : l[j]? = some a) (second : l[k]? = some b) (pa : p a = true)
    (pb : p b = true) : j = k := by
  induction l generalizing j k with
  | nil => simp at first
  | cons x rest ih =>
    have none' : p x = true → ∀ y ∈ rest, p y ≠ true := by
      intro px y among py
      have more : 0 < rest.countP p := List.countP_pos_iff.mpr ⟨y, among, py⟩
      rw [List.countP_cons, if_pos px] at single
      omega
    have fewer : rest.countP p ≤ 1 := by
      rw [List.countP_cons] at single
      omega
    cases j with
    | zero =>
      obtain rfl : x = a := by simpa using first
      cases k with
      | zero => rfl
      | succ k => exact absurd pb (none' pa b (List.mem_of_getElem? (by simpa using second)))
    | succ j =>
      cases k with
      | zero =>
        obtain rfl : x = b := by simpa using second
        exact absurd pa (none' pb a (List.mem_of_getElem? (by simpa using first)))
      | succ k => exact congrArg (· + 1) (ih fewer (by simpa using first) (by simpa using second))

namespace Session

variable {s : Session} {r : Id} {b : Box} {k : Nat} {i : Invocation} {cell : Cell}

/-- One invocation was queued with the request id, and this is its place. -/
def Offers (r : Id) (b : Box) (k : Nat) (s : Session) : Prop :=
  ∃ i cell, (s.postsTo b)[k]? = some (.invocation i cell) ∧ i.request = r ∧ s.queued r = [cell]

theorem mem_queued (lies : (s.postsTo b)[k]? = some (.invocation i cell)) (about : i.request = r) :
    cell ∈ s.queued r := by
  have there := mem_postsTo.mp (List.mem_of_getElem? lies)
  exact List.mem_filterMap.mpr ⟨_, there, if_pos about⟩

theorem Offers.unique (offers : s.Offers r b k) {b' : Box} {k' : Nat}
    (lies : (s.postsTo b')[k']? = some (.invocation i cell)) (about : i.request = r) :
    b' = b ∧ k' = k := by
  obtain ⟨j, own, lies', about', queued⟩ := offers
  have single : s.posts.countP (fun e => (e.2.shows? r).isSome) ≤ 1 := by
    rw [← List.length_filterMap_eq_countP]
    exact Nat.le_of_eq (congrArg List.length queued)
  have shown : ∀ {i : Invocation} {cell : Cell}, i.request = r →
      ((Post.invocation i cell).shows? r).isSome = true := by
    intro i cell about
    simp [Post.shows?, about]
  have same := Client.eq_of_countP_le single (mem_postsTo.mp (List.mem_of_getElem? lies))
    (mem_postsTo.mp (List.mem_of_getElem? lies')) (shown about) (shown about')
  obtain ⟨rfl, -⟩ := Prod.mk.inj same
  refine ⟨rfl, eq_of_getElem?_of_countP_le (p := fun p => (p.shows? r).isSome) ?_ lies lies'
    (shown about) (shown about')⟩
  rw [postsTo, List.countP_filterMap]
  refine Nat.le_trans (List.countP_mono_left fun e _ counts => ?_) single
  by_cases here : e.1 = b'
  · simpa [here] using counts
  · simp [here] at counts

end Session

namespace Client

variable {c d : Client} {w w' : Work} {r : Id} {b : Box} {k : Nat} {past : List Command}
  {known : List Id} {sent : List StreamItem} {m : Move} {input : Input}

/-- What the session is asked to say about an invocation. -/
def sayings (r : Id) (commands : List Command) : List Message :=
  commands.filterMap fun command => command.message?.filter fun m => m.answers? == some r

/-- How many tickets there are that the invocation can be answered with. -/
def Work.chances (r : Id) (w : Work) : Nat := (inbound w.tickets).countP (Ticket.opens r)

theorem sayings_append (r : Id) (before after : List Command) :
    sayings r (before ++ after) = sayings r before ++ sayings r after := List.filterMap_append

theorem sayings_singleton (r : Id) (command : Command) :
    sayings r [command] = command.message?.toList.filter fun m => m.answers? == some r := by
  rw [sayings, List.filterMap_cons]
  cases command.message? with
  | none => rfl
  | some m => by_cases own : m.answers? = some r <;> simp [Option.filter, own]

theorem sayings_send (r : Id) (m : Message) (box : Option Box) :
    sayings r [.send m box] = if m.answers? = some r then [m] else [] := by
  have told : sayings r [.send m box] = [m].filter fun m => m.answers? == some r :=
    sayings_singleton r _
  rw [told]
  by_cases own : m.answers? = some r <;> simp [own]

theorem sayings_of_silent (silent : w.Silent w') :
    sayings r w'.client.commands = sayings r w.client.commands := by
  obtain ⟨new, commands, quiet⟩ := silent
  have none' : sayings r new = [] := by
    refine List.filterMap_eq_nil_iff.mpr fun command there => ?_
    have plain := quiet command there
    rw [Command.answers?] at plain
    cases own : command.message? with
    | none => rfl
    | some m =>
      rw [own] at plain
      have other : m.answers? = none := plain
      simp [other]
  rw [commands, sayings_append, none', List.append_nil]

/-- What becomes of an invocation while its client does something on its own. -/
inductive Work.Touches (r : Id) (w w' : Work) : Prop where
  | leaves (fewer : w'.chances r ≤ w.chances r)
      (unsaid : sayings r w'.client.commands = sayings r w.client.commands)
  | asks {m : Message} (held : 0 < w.chances r)
      (said : sayings r w'.client.commands = sayings r w.client.commands ++ [m])
      (fewer : w'.chances r + [m].countP (fun m => m.settles? == some r) ≤ w.chances r)
  | takes {t : FeedTicket} {i : Invocation} {cell : Cell} (about : i.request = r)
      (lies : (w.client.session.postsTo t.box)[t.read]? = some (.invocation i cell))
      (before : .feed t ∈ inbound w.tickets)
      (after : .feed { t with read := t.read + 1 } ∈ inbound w'.tickets)
      (one : w'.chances r = w.chances r + 1)
      (unsaid : sayings r w'.client.commands = sayings r w.client.commands)

theorem Work.Exchanges.touches (exchanges : w.Exchanges w') (r : Id) : w.Touches r w' := by
  have chances : ∀ {w : Work} {ts : List Ticket}, (inbound w.tickets).Perm ts →
      w.chances r = ts.countP (Ticket.opens r) := fun same => same.countP_eq _
  cases exchanges with
  | same tickets silent => exact .leaves (Nat.le_of_eq (chances tickets)) (sayings_of_silent silent)
  | shut before after silent =>
    refine .leaves ?_ (sayings_of_silent silent)
    rw [chances before, chances after, List.countP_cons, List.countP_cons]
    exact Nat.le_refl _
  | dropped before after gone settled silent =>
    refine .leaves ?_ (sayings_of_silent silent)
    rw [chances before, chances after, List.countP_cons]
    exact Nat.le_add_right _ _
  | @answered t us rest m final box before after first answers kept issues =>
    obtain ⟨about, settles⟩ := answers.about
    have start : w.chances r = rest.countP (Ticket.opens r) + if t.id = r then 1 else 0 := by
      rw [chances before, List.countP_cons]
      simp [Ticket.opens, first]
    have finish : w'.chances r = us.countP (Ticket.opens r) + rest.countP (Ticket.opens r) := by
      rw [chances after, List.countP_append]
    -- either the ticket comes back open or the answer settles the invocation, never both
    by_cases own : t.id = r
    · have fewer : us.countP (Ticket.opens r) + [m].countP (fun m => m.settles? == some r) ≤ 1 := by
        rcases kept with rfl | ⟨rfl, rfl⟩
        · cases final with
          | false =>
            have unsettled : (m.settles? == some r) = false := by simp [settles]
            rw [List.countP_singleton, List.countP_singleton, unsettled]
            split <;> decide
          | true =>
            rw [List.countP_singleton, List.countP_singleton, if_neg (by simp [Ticket.opens])]
            split <;> decide
        · simp [settles, own]
      rw [if_pos own] at start
      refine .asks (m := m) (start ▸ Nat.succ_pos _) ?_ (by omega)
      rw [issues, sayings_append, sayings_send, if_pos (own ▸ about)]
    · have fewer : us.countP (Ticket.opens r) = 0 := by
        rcases kept with rfl | ⟨rfl, rfl⟩
        · rw [List.countP_singleton, if_neg]
          simpa [Ticket.opens, InvocationTicket.id] using fun _ => own
        · rfl
      rw [if_neg own] at start
      refine .leaves (by omega) ?_
      rw [issues, sayings_append, sayings_send, if_neg (by simpa [about] using own),
        List.append_nil]
  | opened due after silent =>
    refine .leaves ?_ (sayings_of_silent silent)
    rw [chances after, List.countP_cons]
    exact Nat.le_refl _
  | passed lies before after silent =>
    refine .leaves ?_ (sayings_of_silent silent)
    rw [chances before, chances after, List.countP_cons, List.countP_cons]
    exact Nat.le_refl _
  | @yielded t i cell rest lies before after silent =>
    have start : w.chances r = rest.countP (Ticket.opens r) := by
      rw [chances before, List.countP_cons]
      rfl
    have finish : w'.chances r = rest.countP (Ticket.opens r) + if i.request = r then 1 else 0 := by
      rw [chances after, List.countP_cons, List.countP_cons]
      simp [Ticket.opens, InvocationTicket.id]
    by_cases own : i.request = r
    · rw [if_pos own] at finish
      exact .takes own lies (before.mem_iff.mpr List.mem_cons_self)
        (after.mem_iff.mpr List.mem_cons_self) (by rw [start, finish]) (sayings_of_silent silent)
    · rw [if_neg own] at finish
      exact .leaves (by rw [start, finish]; exact Nat.le_refl _) (sayings_of_silent silent)

/-! ### How far an invocation has come -/

/-- Nobody can answer the invocation, and nothing was asked to be said about it. -/
structure Work.Silenced (r : Id) (past : List Command) (w : Work) : Prop where
  shut : w.chances r = 0
  unsaid : sayings r (past ++ w.client.commands) = []

/-- What was put in at the place has been taken out of the box, or the box is gone. -/
def Work.Passed (b : Box) (k : Nat) (w : Work) : Prop :=
  b ∈ w.client.session.gone ∨ ∃ t, .feed t ∈ inbound w.tickets ∧ t.box = b ∧ k < t.read

/-- Where the invocation with a request id stands, among those that are known of, when these things
have been sent about it. -/
inductive Work.Stage (r : Id) (known : List Id) (past : List Command) (sent : List StreamItem)
    (w : Work) : Prop where
  | unheard (new : r ∉ known) (none' : w.client.session.queued r = [])
      (silenced : w.Silenced r past) (unsent : sent = [])
  | refused (old : r ∈ known) (none' : w.client.session.queued r = [])
      (silenced : w.Silenced r past) (rejected : sent.Sublist [.message (Message.rejection r)])
  | unread {b : Box} {k : Nat} (old : r ∈ known) (offers : w.client.session.Offers r b k)
      (silenced : w.Silenced r past) (unsent : sent = [])
  | taken {b : Box} {k : Nat} (old : r ∈ known) (offers : w.client.session.Offers r b k)
      (passed : w.Passed b k)
      (ordered : (sayings r (past ++ w.client.commands)).Pairwise
        fun m _ => m.settles? ≠ some r)
      (single : w.chances r + (sayings r (past ++ w.client.commands)).countP
        (fun m => m.settles? == some r) ≤ 1)
      (asked : sent.Sublist ((sayings r past).map .message))

theorem Work.Passed.turns (passed : w.Passed b k) (turns : w.Turns w') : w'.Passed b k := by
  rcases passed with gone | ⟨t, there, rfl, later⟩
  · exact Or.inl (turns.grows.gone gone)
  · rcases turns.exchanges.feed there with gone | ⟨u, there', box, read⟩
    · exact Or.inl gone
    · refine Or.inr ⟨u, there', box, ?_⟩
      rcases read with same | ⟨more, -⟩
      · rwa [same]
      · rw [more]
        exact Nat.lt_succ_of_lt later

/-- Whoever has the box has read on. -/
theorem Work.Passed.read (passed : w.Passed b k) (owned : w.Owned b) {u : FeedTicket}
    (there : .feed u ∈ inbound w.tickets) (box : u.box = b) : k < u.read := by
  have held := (mem_inbound.mp there).1
  have own : (Ticket.feed u).owns b = true := by simp [box]
  rcases passed with gone | ⟨t, there', box', later⟩
  · exact absurd gone (owned.held held own).2.1
  · have own' : (Ticket.feed t).owns b = true := by simp [box']
    obtain rfl := Ticket.feed.inj (owned.unique held (mem_inbound.mp there').1 own own')
    exact later

theorem Work.Stage.turns (stage : w.Stage r known past sent) (turns : w.Turns w')
    (owned : ∀ b, w.Owned b) : w'.Stage r known past sent := by
  obtain ⟨queued, offered⟩ : w'.client.session.queued r = w.client.session.queued r ∧
      ∀ {b k}, w.client.session.Offers r b k → w'.client.session.Offers r b k := by
    obtain ⟨boxes, session⟩ := turns.grows.session
    rw [session]
    exact ⟨rfl, fun offers => offers⟩
  have still : w'.chances r ≤ w.chances r →
      sayings r w'.client.commands = sayings r w.client.commands →
        w.Silenced r past → w'.Silenced r past := by
    rintro fewer unsaid ⟨shut, silence⟩
    refine ⟨Nat.le_zero.mp (shut ▸ fewer), ?_⟩
    rw [sayings_append, unsaid, ← sayings_append, silence]
  -- nobody takes what is not there
  have absent : w.client.session.queued r = [] → ∀ {b : Box} {k : Nat} {i : Invocation}
      {cell : Cell}, i.request = r →
      (w.client.session.postsTo b)[k]? ≠ some (.invocation i cell) := by
    intro none' b k i cell about lies
    have there := Session.mem_queued lies about
    rw [none'] at there
    exact List.not_mem_nil there
  cases turns.exchanges.touches r with
  | leaves fewer unsaid =>
    cases stage with
    | unheard new none' silenced unsent =>
      exact .unheard new (queued ▸ none') (still fewer unsaid silenced) unsent
    | refused old none' silenced rejected =>
      exact .refused old (queued ▸ none') (still fewer unsaid silenced) rejected
    | unread old offers silenced unsent =>
      exact .unread old (offered offers) (still fewer unsaid silenced) unsent
    | taken old offers passed ordered single asked =>
      have same : sayings r (past ++ w'.client.commands) =
          sayings r (past ++ w.client.commands) := by
        rw [sayings_append, unsaid, ← sayings_append]
      refine .taken old (offered offers) (passed.turns turns) ?_ ?_ asked
      · rwa [same]
      · rw [same]
        exact Nat.le_trans (Nat.add_le_add_right fewer _) single
  | @asks m held said fewer =>
    have silenced : ¬ w.Silenced r past := fun silenced => Nat.ne_of_gt held silenced.shut
    cases stage with
    | taken old offers passed ordered single asked =>
      have more : sayings r (past ++ w'.client.commands) =
          sayings r (past ++ w.client.commands) ++ [m] := by
        rw [sayings_append, said, ← List.append_assoc, ← sayings_append]
      -- as long as there is a ticket, nothing settles the invocation
      have unsettled : ∀ m ∈ sayings r (past ++ w.client.commands), m.settles? ≠ some r := by
        have none' : (sayings r (past ++ w.client.commands)).countP
            (fun m => m.settles? == some r) = 0 := by omega
        intro m there
        simpa using List.countP_eq_zero.mp none' m there
      refine .taken old (offered offers) (passed.turns turns) ?_ ?_ asked
      · rw [more, List.pairwise_append]
        exact ⟨ordered, List.pairwise_singleton _ _, fun a there _ _ => unsettled a there⟩
      · rw [more, List.countP_append]
        omega
    | unheard new none' quiet unsent => exact absurd quiet silenced
    | refused old none' quiet rejected => exact absurd quiet silenced
    | unread old offers quiet unsent => exact absurd quiet silenced
  | @takes t i cell about lies before after one unsaid =>
    cases stage with
    | unheard new none' silenced unsent => exact absurd lies (absent none' about)
    | refused old none' silenced rejected => exact absurd lies (absent none' about)
    | @unread b k old offers silenced unsent =>
      obtain ⟨rfl, rfl⟩ := offers.unique lies about
      have silence : sayings r (past ++ w'.client.commands) = [] := by
        rw [sayings_append, unsaid, ← sayings_append, silenced.unsaid]
      refine .taken old (offered offers) (Or.inr ⟨_, after, rfl, Nat.lt_succ_self _⟩) ?_ ?_ ?_
      · rw [silence]
        exact .nil
      · rw [silence, one, silenced.shut]
        exact Nat.le_refl _
      · rw [unsent]
        exact List.nil_sublist _
    | @taken b k old offers passed ordered single asked =>
      -- it was read before, and a feed reads nothing twice
      obtain ⟨rfl, rfl⟩ := offers.unique lies about
      exact absurd (passed.read (owned _) before rfl) (Nat.lt_irrefl _)

/-! ### What the session takes in -/

theorem sayings_taken (takes : c.input? m = some input) (r : Id) :
    sayings r (c.taken m) = input.message?.toList.filter fun m => m.answers? == some r := by
  cases m with
  | serve =>
    obtain ⟨command, head, rfl⟩ := Option.map_eq_some_iff.mp takes
    rw [taken, head]
    exact sayings_singleton r command
  | poll number => simp [input?] at takes
  | act number a => simp [input?] at takes
  | arrive a =>
    obtain rfl := Option.some.inj takes
    rfl
  | elapse time =>
    obtain rfl := Option.some.inj takes
    rfl

/-- Nothing is put in for the invocation, and nothing is sent about it that was not asked for. -/
theorem Work.Stage.goes_on (stage : Work.Stage r known past sent ⟨c, []⟩)
    (takes : c.input? m = some input) (sound : c.session.Sound)
    (queued : (c.move m).session.queued r = c.session.queued r) {done : List StreamItem}
    (part : done.Sublist ((sayings r (c.taken m)).map .message)) {more : List Id}
    (other : r ∉ more) :
    Work.Stage r (known ++ more) (past ++ c.taken m) (sent ++ done) ⟨c.move m, []⟩ := by
  have held : Work.tickets ⟨c.move m, []⟩ = Work.tickets ⟨c, []⟩ := heldTickets_of_takes takes
  have chances : Work.chances r ⟨c.move m, []⟩ = Work.chances r ⟨c, []⟩ := by
    rw [Work.chances, Work.chances, held]
  have said : sayings r (past ++ c.taken m ++ (c.move m).commands) =
      sayings r (past ++ c.commands) := by rw [List.append_assoc, ← queue_of_takes takes]
  have silenced : Work.Silenced r past ⟨c, []⟩ →
      Work.Silenced r (past ++ c.taken m) ⟨c.move m, []⟩ ∧ done = [] := by
    rintro ⟨shut, unsaid⟩
    refine ⟨⟨chances.trans shut, said.trans unsaid⟩, ?_⟩
    have unasked : sayings r (c.taken m) = [] := by
      have all : sayings r (past ++ c.commands) = [] := unsaid
      rw [queue_of_takes takes, sayings_append, sayings_append, List.append_eq_nil_iff,
        List.append_eq_nil_iff] at all
      exact all.2.1
    rw [unasked] at part
    exact List.sublist_nil.mp part
  have offered : ∀ {b : Box} {k : Nat}, c.session.Offers r b k →
      (c.move m).session.Offers r b k := by
    rintro b k ⟨i, cell, lies, about, single⟩
    have longer := Session.posts_prefix_step sound input
    rw [← session_move takes] at longer
    exact ⟨i, cell, getElem?_of_longer (longer.filterMap _) lies, about, queued.trans single⟩
  cases stage with
  | unheard new none' silent unsent =>
    obtain ⟨silent', rfl⟩ := silenced silent
    exact .unheard (List.not_mem_append new other) (queued.trans none') silent' (by simp [unsent])
  | refused old none' silent rejected =>
    obtain ⟨silent', rfl⟩ := silenced silent
    exact .refused (List.mem_append_left _ old) (queued.trans none') silent'
      (by simpa using rejected)
  | unread old offers silent unsent =>
    obtain ⟨silent', rfl⟩ := silenced silent
    exact .unread (List.mem_append_left _ old) (offered offers) silent' (by simp [unsent])
  | taken old offers passed ordered single asked =>
    refine .taken (List.mem_append_left _ old) (offered offers) ?_ ?_ ?_ ?_
    · rcases passed with gone | ⟨t, there, box, later⟩
      · refine Or.inl ?_
        rw [session_move takes]
        exact Session.gone_of_mem_step sound input gone
      · exact Or.inr ⟨t, held ▸ there, box, later⟩
    · exact said ▸ ordered
    · exact chances ▸ said ▸ single
    · rw [sayings_append, List.map_append]
      exact asked.append part

/-- INVOCATION comes, and is put into one box or turned away once. -/
theorem Work.Stage.comes (stage : Work.Stage r known past sent ⟨c, []⟩)
    (details : Dictionary) (payload : Payload) (sound : c.session.Sound) {registration : Id}
    (live : c.session.phase ≠ .closed) (hosts : c.session.Hosts registration)
    (once : ∀ y ∈ c.session.router.routes, ∀ z ∈ c.session.router.routes,
      y.takes (RouteKey.ofReply .invocation registration) = true →
        z.takes (RouteKey.ofReply .invocation registration) = true → y.handle = z.handle)
    (new : r ∉ known) :
    let m : Move := .arrive (.item (.message (.invocation r registration details payload)))
    ∃ done, (c.move m).session.answersTo r = c.session.answersTo r ++ done ∧
      Work.Stage r (known ++ [r]) past (sent ++ done) ⟨c.move m, []⟩ := by
  intro m
  have step : (c.move m).session =
      c.session.distribute (.invocation r registration details payload) :=
    Session.step_invocation live
  have emits := Session.emits_distribute c.session (.invocation r registration details payload)
  rw [← step] at emits
  obtain ⟨done, answers, part⟩ := Session.answersTo_of_emits emits r
  have old : r ∈ known ++ [r] := List.mem_append_right _ (List.mem_singleton_self r)
  refine ⟨done, answers, ?_⟩
  have silenced : Work.Silenced r past ⟨c, []⟩ → Work.Silenced r past ⟨c.move m, []⟩ :=
    fun silenced => ⟨silenced.shut, silenced.unsaid⟩
  cases stage with
  | unheard new none' silent unsent =>
    rw [unsent, List.nil_append]
    rcases Session.queued_or_rejected_once r details payload sound hosts once with
      ⟨b, cell, posts, replies⟩ | ⟨posts, replies⟩
    · rw [replies] at part
      obtain rfl := List.sublist_nil.mp part
      obtain ⟨put, after, plain⟩ := emits.posts
      refine .unread (b := b) (k := (c.session.postsTo b).length) old
        ⟨⟨r, registration, details, payload⟩, cell, ?_, rfl, ?_⟩ (silenced silent) rfl
      · rw [Session.postsTo, after, posts]
        simp [Session.postsTo]
      · have queued := Session.queued_of_emits emits r
        rw [queued, Session.queued, posts, List.filterMap_append]
        have before : c.session.posts.filterMap (fun e => e.2.shows? r) = [] := none'
        rw [before]
        simp [Post.shows?]
    · rw [replies] at part
      refine .refused old ?_ (silenced silent) (part.trans List.filter_sublist)
      rw [Session.queued_of_emits emits r, Session.queued, posts]
      exact none'
  | refused old' => exact absurd old' new
  | unread old' => exact absurd old' new
  | taken old' => exact absurd old' new

/-! ### Runs -/

theorem Work.Stage.chain (stage : w.Stage r known past sent)
    (chain : Relation.ReflTransGen Work.Turns w w') (owned : ∀ b, w.Owned b) :
    w'.Stage r known past sent ∧ ∀ b, w'.Owned b := by
  induction chain with
  | refl => exact ⟨stage, owned⟩
  | tail _ turns ih =>
    exact ⟨ih.1.turns turns ih.2, fun b => (ih.2 b).tallies turns.grows (turns.tallies b)⟩

theorem exists_invocation {came : Message} (invokes : came.invokes? = some r) :
    ∃ registration details payload, came = .invocation r registration details payload := by
  cases came with
  | invocation request registration details payload =>
    obtain rfl := Option.some.inj invokes
    exact ⟨_, _, _, rfl⟩
  | _ => cases invokes

/-- What a move makes of the invocation, if its request id is not used again. -/
theorem Work.Stage.move (stage : Work.Stage r known past sent ⟨c, []⟩) (settled : Settled past c)
    (listed : c.Listed) (hosts : ∀ registration, c.session.Hosts registration)
    (once : ∀ registration, ∀ y ∈ c.session.router.routes, ∀ z ∈ c.session.router.routes,
      y.takes (RouteKey.ofReply .invocation registration) = true →
        z.takes (RouteKey.ofReply .invocation registration) = true → y.handle = z.handle)
    (fresh : ∀ came, c.hears m = some came → came.invokes? = some r → r ∉ known) :
    ∃ done, (c.move m).session.answersTo r = c.session.answersTo r ++ done ∧
      Work.Stage r (known ++ (c.hears m).toList.filterMap Message.invokes?) (past ++ c.taken m)
        (sent ++ done) ⟨c.move m, []⟩ := by
  have sound := settled.books.sound
  cases takes : c.input? m with
  | none =>
    obtain ⟨chain, -⟩ := turns_move takes listed
    refine ⟨[], ?_, ?_⟩
    · obtain ⟨boxes, session⟩ := (grows_move takes).session
      rw [session]
      exact (List.append_nil _).symm
    · rw [hears_of_quiet takes, taken_of_quiet takes, Option.toList_none, List.filterMap_nil,
        List.append_nil, List.append_nil, List.append_nil]
      exact (stage.chain chain settled.orderly.owned).1
  | some input =>
    have step := session_move takes
    by_cases late : c.session.phase = .closed
    · have same := Session.step_closed late (heeds_input takes)
      rw [← step] at same
      refine ⟨[], by rw [same, List.append_nil], ?_⟩
      refine stage.goes_on takes sound (by rw [same]) (List.nil_sublist _) ?_
      rw [hears_closed late]
      exact List.not_mem_nil
    by_cases came : ∃ registration details payload, m =
        .arrive (.item (.message (.invocation r registration details payload)))
    · obtain ⟨registration, details, payload, rfl⟩ := came
      have hears := (hears_of_takes takes late).mpr (Option.some.inj takes).symm
      obtain ⟨done, answers, stage'⟩ := stage.comes details payload sound late
        (hosts registration) (once registration) (fresh _ hears rfl)
      refine ⟨done, answers, ?_⟩
      rw [hears]
      exact (List.append_nil past).symm ▸ stage'
    · have other : ∀ registration details payload, input ≠
          .arrival (.item (.message (.invocation r registration details payload))) := by
        rintro registration details payload rfl
        cases m with
        | arrive a => exact came ⟨_, _, _, by rw [Input.arrival.inj (Option.some.inj takes)]⟩
        | serve =>
          obtain ⟨command, -, same⟩ := Option.map_eq_some_iff.mp takes
          cases same
        | _ => cases takes
      obtain ⟨queued, done, answers, part⟩ := Session.step_of_other sound (heeds_input takes) other
      rw [← step] at queued answers
      rw [← sayings_taken takes] at part
      refine ⟨done, answers, stage.goes_on takes sound queued part fun among => ?_⟩
      obtain ⟨m', hears, invokes⟩ := List.mem_filterMap.mp among
      obtain ⟨registration, details, payload, rfl⟩ := exists_invocation invokes
      exact other _ _ _ ((hears_of_takes takes late).mp (Option.mem_toList.mp hears))

section

variable {ms : List Move}

/-- The ids of registrations are told apart, and so are the request ids of invocations. -/
structure Distinct (c : Client) (ms : List Move) : Prop where
  registrations : ∀ g h h', Names (c.run ms).session.posts .registration g h →
    Names (c.run ms).session.posts .registration g h' → h = h'
  invocations : ((c.heard ms).filterMap Message.invokes?).Nodup

theorem Distinct.of_append {before after : List Move} (distinct : c.Distinct (before ++ after))
    (sound : c.session.Sound) : c.Distinct before where
  registrations g h h' names names' := by
    have told : ∀ e ∈ (c.run before).session.posts,
        e ∈ (c.run (before ++ after)).session.posts := by
      rw [run_append]
      exact fun e there => told_run (sound_run sound before) after there
    exact distinct.registrations g h h' (names.mono told) (names'.mono told)
  invocations := by
    have all := distinct.invocations
    rw [heard_append, List.filterMap_append] at all
    exact all.of_append_left

theorem Fresh.stage (fresh : Fresh c) (listed : c.Listed) (idle : c.commands = [])
    (distinct : c.Distinct ms) (r : Id) :
    ∃ sent, (c.run ms).session.answersTo r = c.session.answersTo r ++ sent ∧
      Work.Stage r ((c.heard ms).filterMap Message.invokes?) (c.served ms) sent ⟨c.run ms, []⟩ := by
  induction ms using List.reverseRecOn with
  | nil =>
    refine ⟨[], (List.append_nil _).symm, .unheard List.not_mem_nil ?_ ⟨?_, ?_⟩ rfl⟩
    · change c.session.posts.filterMap _ = []
      rw [fresh.untold]
      rfl
    · change (inbound c.heldTickets).countP _ = 0
      rw [fresh.empty]
      rfl
    · change sayings r ([] ++ c.commands) = []
      rw [idle]
      rfl
  | append_singleton before m ih =>
    have first := distinct.of_append fresh.settled.books.sound
    obtain ⟨sent, answers, stage⟩ := ih first
    have heard : c.heard (before ++ [m]) = c.heard before ++ ((c.run before).hears m).toList := by
      rw [heard_append, Client.heard, Client.heard, List.append_nil]
    have served : c.served (before ++ [m]) = c.served before ++ (c.run before).taken m := by
      rw [served_append, Client.served, Client.served, List.append_nil]
    have fresh' : ∀ came, (c.run before).hears m = some came → came.invokes? = some r →
        r ∉ (c.heard before).filterMap Message.invokes? := by
      intro came hears invokes old
      have all := distinct.invocations
      rw [heard, hears, List.filterMap_append] at all
      refine (List.nodup_append.mp all).2.2 r old r ?_ rfl
      exact List.mem_filterMap.mpr ⟨came, List.mem_singleton_self came, invokes⟩
    obtain ⟨done, answers', stage'⟩ := stage.move (fresh.settled.run before) (listed.run before)
      (fresh.hosts before) (fun g y hy z hz takes takes' => by
        obtain ⟨-, -, -, names, -⟩ := fresh.registration_of_takes hy takes
        obtain ⟨-, -, -, names', -⟩ := fresh.registration_of_takes hz takes'
        exact first.registrations g _ _ names names') fresh'
    rw [run_append c before [m], heard, served, List.filterMap_append]
    exact ⟨sent ++ done, answers'.trans (by rw [answers, List.append_assoc]), stage'⟩

/-- Nothing is said about an invocation but what its ticket was used for, or that it was turned
away; and nothing at all once it is settled. -/
theorem Work.Stage.ends (stage : w.Stage r known past sent) :
    sent.Pairwise (fun i _ => i.settles? ≠ some r) ∧
      (sent.Sublist ((sayings r past).map .message) ∨
        sayings r past = [] ∧ sent = [.message (Message.rejection r)]) := by
  cases stage with
  | unheard new none' silenced unsent =>
    rw [unsent]
    exact ⟨.nil, Or.inl (List.nil_sublist _)⟩
  | refused old none' silenced rejected =>
    have unsaid := silenced.unsaid
    rw [sayings_append, List.append_eq_nil_iff] at unsaid
    refine ⟨(List.pairwise_singleton _ _).sublist rejected, ?_⟩
    rcases List.sublist_singleton.mp rejected with rfl | rfl
    · exact Or.inl (List.nil_sublist _)
    · exact Or.inr ⟨unsaid.1, rfl⟩
  | unread old offers silenced unsent =>
    rw [unsent]
    exact ⟨.nil, Or.inl (List.nil_sublist _)⟩
  | taken old offers passed ordered single asked =>
    rw [sayings_append, List.pairwise_append] at ordered
    refine ⟨List.Pairwise.sublist asked (List.pairwise_map.mpr ?_), Or.inl asked⟩
    exact ordered.1

end

/-- A ticket that the final answer was given with is of no more use. -/
theorem move_handled {number : Nat} (free : ∀ task ∈ c.tasks, task.number ≠ number) {name : String}
    {t : InvocationTicket} (held : c.ticket? name = some (.invocation t))
    (handled : t.handled = true) :
    let refused := c.conclude number (.failed (t.failed (Failure.of .resultSent)))
    (∀ payload, c.move (.act number (.onTicket name (.result payload))) = refused) ∧
      (∀ payload, c.move (.act number (.onTicket name (.progress payload))) = refused) ∧
      ∀ reason details payload messages e,
        CalleeError.compose reason details payload messages = .ok e →
          c.move (.act number (.onTicket name (.error reason details payload messages))) =
            refused := by
  intro refused
  have unused : c.tasks.any (fun t => t.number == number) = false := by simpa using free
  have moved : ∀ a, c.move (.act number (.onTicket name a)) =
      (c.onTicket number name (.invocation t) a).1 := by
    intro a
    rw [move, unused, act, held]
    rfl
  have spent : ∀ m final, c.answer number name t m final = refused := fun _ _ => if_pos handled
  refine ⟨fun payload => ?_, fun payload => ?_, fun reason details payload messages e made => ?_⟩
  · exact (moved _).trans (spent _ _)
  · exact (moved _).trans (spent _ _)
  · rw [moved, onTicket, made]
    exact spent _ _

/-- An invocation is answered once at most. Where no two registrations have the same id, and no two
INVOCATIONs the same request id, what a client sends about an invocation is progress until something
settles it, and nothing after that; it is what the ticket of the invocation was used for, or else
the invocation was turned away and nothing was ever asked to be said about it. Once the final answer
was given, the ticket gives no other. -/
theorem answers_settle_once (wire : Wire) (now closeTimeout : Nat) (ids : IdSource) (id : Id)
    (realm : Uri) (details : Dictionary) (ms : List Move) :
    let c := joined (Session.established wire now closeTimeout) ids id realm details
    let d := c.run ms
    (c.Distinct ms → ∃ sent, d.session.wire.sent = wire.sent ++ sent ∧ ∀ r,
      let about := sent.filter fun i => i.answers? == some r
      let asked := sayings r (c.served ms)
      about.Pairwise (fun i _ => i.settles? ≠ some r) ∧
        (∀ i ∈ about, i.settles? ≠ some r → ∃ options payload,
          i = .message (.yield r options payload) ∧ options.flag "progress" = true) ∧
        (about.Sublist (asked.map .message) ∨
          asked = [] ∧ about = [.message (Message.rejection r)])) ∧
    ∀ name t number, d.ticket? name = some (.invocation t) → t.handled = true →
      (∀ task ∈ d.tasks, task.number ≠ number) →
      let failure := t.failed (Failure.of .resultSent)
      let refused := d.conclude number (.failed failure)
      failure.kind = .illegalOperation ∧ refused.session = d.session ∧
        refused.commands = d.commands ∧
        (∀ payload, d.move (.act number (.onTicket name (.result payload))) = refused) ∧
        (∀ payload, d.move (.act number (.onTicket name (.progress payload))) = refused) ∧
        ∀ reason details payload messages e,
          CalleeError.compose reason details payload messages = .ok e →
            d.move (.act number (.onTicket name (.error reason details payload messages))) =
              refused := by
  intro c d
  have fresh : Fresh c := fresh_joined wire now closeTimeout ids id realm details
  refine ⟨fun distinct => ?_, fun name t number held handled free =>
    ⟨rfl, rfl, rfl, move_handled free held handled⟩⟩
  obtain ⟨sent, grown⟩ := sent_prefix_run c ms
  refine ⟨sent, grown.symm, fun r => ?_⟩
  intro about asked
  obtain ⟨sent', answers, stage⟩ :=
    fresh.stage (listed_joined wire now closeTimeout ids id realm details) rfl distinct r
  have same : sent' = about := by
    rw [Session.answersTo, Session.answersTo, ← grown, List.filter_append] at answers
    exact (List.append_cancel_left answers).symm
  subst same
  obtain ⟨ordered, origin⟩ := stage.ends
  refine ⟨ordered, fun i there unsettled => ?_, origin⟩
  obtain ⟨-, about'⟩ := List.mem_filter.mp there
  cases i with
  | message m =>
    obtain ⟨options, payload, rfl, more⟩ :=
      Message.progress_of_unsettled (by simpa [StreamItem.answers?] using about') unsettled
    exact ⟨options, payload, rfl, more⟩
  | ping data => cases about'

/-- An invocation that is taken and answered, and then answered once more. -/
def answeredTwice : List Move := [.act 0 (.onSession (.enrol .registration "a" none "t")), .serve,
  .arrive (.item (.message (.registered Id.min Id.min))), .poll 0,
  .arrive (.item (.message (.invocation Id.min Id.min [] Payload.empty))),
  .act 1 (.onTicket "t" (.nextInvocation "i")), .poll 1,
  .act 2 (.onTicket "i" (.result Payload.empty)), .serve, .poll 2]

theorem answers_settle_once_result :
    let d := newcomer.run answeredTwice
    let t : InvocationTicket := ⟨⟨Id.min, Id.min, [], Payload.empty⟩, ⟨"a"⟩, 0, true⟩
    let about := d.session.wire.sent.filter fun i => i.answers? == some Id.min
    newcomer.Distinct answeredTwice ∧
      (about = [.message (.yield Id.min [] Payload.empty)] ∧
        about.Pairwise fun i _ => i.settles? ≠ some Id.min) ∧
      d.ticket? "i" = some (.invocation t) ∧ t.handled = true ∧
        d.move (.act 3 (.onTicket "i" (.result Payload.empty))) =
          d.conclude 3 (.failed (t.failed (Failure.of .resultSent))) := by
  intro d t about
  have posts : d.session.posts = [(0, .accepted (.ok 1)),
      (1, .reply (.ok (.registered Id.min Id.min, some 2))),
      (2, .invocation ⟨Id.min, Id.min, [], Payload.empty⟩ 0), (3, .sent (.ok ()))] := rfl
  have named : ∀ g h, Names d.session.posts .registration g h → h = 2 := by
    rintro g h ⟨reply, came, put, -⟩
    rw [posts] at put
    simp at put
    exact put.2.2
  have distinct : newcomer.Distinct answeredTwice :=
    ⟨fun g h h' names names' => (named g h names).trans (named g h' names').symm, by decide⟩
  have held : d.ticket? "i" = some (.invocation t) := rfl
  have unused : d.tasks = [] := rfl
  have free : ∀ task ∈ d.tasks, task.number ≠ 3 := by
    rw [unused]
    exact fun task there => absurd there List.not_mem_nil
  obtain ⟨first, later⟩ := answers_settle_once (Wire.fresh fun _ => none) 0 1000 IdSource.initial
    Id.min ⟨"realm"⟩ [] answeredTwice
  obtain ⟨sent, grown, all⟩ := first distinct
  obtain rfl : d.session.wire.sent = sent := grown
  obtain ⟨-, -, -, results, -⟩ := later "i" t 3 held rfl free
  exact ⟨distinct, ⟨rfl, (all Id.min).1⟩, held, rfl, results Payload.empty⟩

end Client

end WampClient
