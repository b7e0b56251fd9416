import WampClient.Proofs.Client.Purposes
import WampClient.Proofs.Client.Readings
import WampClient.Proofs.Client.Recurrence

/-! What a caller gets to see of a call: every answer to it once and in order, up to the one that
the session and the caller both take for the last, or up to the session's end. -/
namespace WampClient

namespace Message

theorem untilLast_append_of_more {ms : List Message} (more : ∀ m ∈ ms, m.moreFollows = true)
    (m : Message) : untilLast (ms ++ [m]) = ms ++ [m] := by
  induction ms with
  | nil => simp [untilLast]
  | cons n rest ih =>
    rw [List.cons_append, untilLast, if_pos (more n List.mem_cons_self),
      ih fun m there => more m (List.mem_cons_of_mem _ there)]

end Message

theorem Returns.of_live {answers : List Message} {closed : Prop}
    {items : List (Except Failure Message)} (returns : Returns answers closed items)
    (live : ¬ closed) : items = (Message.untilLast answers).map .ok := by
  cases returns with
  | going more live => rw [Message.untilLast_of_more more]
  | answered last => rfl
  | ended more late network => exact absurd late live

namespace CallTicket

/-! ### Results of which only the last may be the last of the call -/

section

variable {results : List (Except Failure CallResult)} {n : Nat}

theorem any_take_iff (within : n ≤ results.length)
    (progress : ∀ result ∈ results.dropLast, isLast result = false) :
    (results.take n).any isLast = true ↔ n = results.length ∧ results.any isLast = true := by
  rcases Nat.lt_or_eq_of_le within with low | rfl
  · refine iff_of_false (fun some' => ?_) fun both => absurd both.1 (Nat.ne_of_lt low)
    obtain ⟨result, there, last⟩ := List.any_eq_true.mp some'
    have among : result ∈ results.dropLast := by
      rw [List.dropLast_eq_take]
      exact List.take_subset_take_left _ (Nat.le_sub_one_of_lt low) there
    exact nomatch (progress result among).symm.trans last
  · rw [List.take_length, and_iff_right rfl]

theorem find_drop (within : n ≤ results.length)
    (progress : ∀ result ∈ results.dropLast, isLast result = false)
    (unread : (results.take n).any isLast = false) :
    (results.drop n).find? isLast = results.getLast?.filter isLast := by
  rcases List.eq_nil_or_concat results with rfl | ⟨init, last, rfl⟩
  · simp
  · rw [List.concat_eq_append] at *
    rw [List.dropLast_concat] at progress
    rw [List.getLast?_concat]
    rcases Nat.lt_or_eq_of_le within with low | rfl
    · have low' : n ≤ init.length := by simpa [Nat.lt_succ_iff] using low
      have none' : (init.drop n).find? isLast = none :=
        List.find?_eq_none.mpr fun result there => by
          simp [progress result (List.drop_subset _ _ there)]
      rw [List.drop_append_of_le_length low', List.find?_append, none']
      cases final : isLast last <;> simp [Option.filter, final]
    · rw [List.take_length, List.any_append] at unread
      have more : isLast last = false := by simpa using (Bool.or_eq_false_iff.mp unread).2
      simp [Option.filter, more]

end

theorem lastAmong_outcomes (t : CallTicket) (items : List (Except Failure Message)) :
    t.lastAmong (items.map .outcome) = (items.map t.judge).find? isLast := by
  induction items with
  | nil => rfl
  | cons came rest ih =>
    rw [List.map_cons, List.map_cons, lastAmong, List.find?_cons, ih]
    cases isLast (t.judge came) <;> rfl

theorem shown_of_outcomes {t : CallTicket} {items : List (Except Failure Message)}
    {seen : List Outcome} (shown : List.Forall₂ t.Shows (items.map .outcome) seen) :
    seen = (items.map t.judge).map Client.ofResult := by
  induction items generalizing seen with
  | nil =>
    cases shown
    rfl
  | cons came rest ih =>
    obtain ⟨outcome, others, first, later, rfl⟩ := List.forall₂_cons_left_iff.mp shown
    obtain ⟨came', same, rfl⟩ := first
    rw [ih later, Post.outcome.inj same]
    rfl

/-! ### The account of a call -/

/-- How a call stands that the caller still holds. The answers to it that were handled have come to
these results, of which this much was read. -/
structure Account (t : CallTicket) (answers : List Message)
    (results : List (Except Failure CallResult)) (log : List Outcome) (c : Client) : Prop where
  returns : ∃ items, Returns answers (c.session.phase = .closed) items ∧ results = items.map t.judge
  progress : ∀ result ∈ results.dropLast, ∃ r, result = .ok r ∧ r.progress = true
  /-- What the session takes for the last answer is what the caller takes for the last result. -/
  last : (∃ result, results.getLast? = some result ∧ isLast result = true) ↔
    c.session.phase = .closed ∨ ∃ m ∈ answers, m.moreFollows = false
  /-- The results were read in order, and after the last of the call that there are no more. -/
  reads : ∃ k, log = (results.take t.read).map Client.ofResult ++ List.replicate k .exhausted ∧
    (k = 0 ∨ t.settled = true)
  settled : t.settled = true ↔ t.read = results.length ∧
    (c.session.phase = .closed ∨ ∃ m ∈ answers, m.moreFollows = false)
  /-- What comes of reading on. -/
  next : ∀ name stream, (c.advance (.nextOutcome name t stream)).map Prod.snd =
    if t.settled then some (.inr .exhausted)
    else results[t.read]?.map fun result => .inr (Client.ofResult result)
  /-- What comes of waiting for the last result. -/
  final : (c.advance (.lastOutcome t)).map Prod.snd =
    if t.settled then some (.inr (.failed (t.failed (Failure.of .callSettled))))
    else (results.getLast?.filter isLast).map fun result => .inr (Client.ofResult result)
  /-- The route of the call is there until the last answer is handled. -/
  route : c.session.phase ≠ .closed →
    (⟨t.route, Client.callKeys t.id, .call t.box⟩ ∈ c.session.router.routes ↔
      ∀ m ∈ answers, m.moreFollows = true)
  /-- An answer that comes while the route is there goes into the box, and takes the route out just
  if the caller is going to take it for the last. -/
  takes : ∀ m : Message, m.answersCall t.id = true → c.session.phase ≠ .closed →
    let x : Route Target := ⟨t.route, Client.callKeys t.id, .call t.box⟩
    let d := c.move (.arrive (.item (.message m)))
    x ∈ c.session.router.routes →
      d.session.postsTo t.box = c.session.postsTo t.box ++ [.outcome (.ok m)] ∧
        (x ∈ d.session.router.routes ↔ isLast (t.judge (.ok m)) = false)
  /-- A later answer does not get to the caller. It is reported, unless another call under the same
  id waits for it. -/
  late : ∀ m : Message, m.answersCall t.id = true → c.session.phase ≠ .closed →
    let d := c.move (.arrive (.item (.message m)))
    ⟨t.route, Client.callKeys t.id, .call t.box⟩ ∉ c.session.router.routes →
      d.session.postsTo t.box = c.session.postsTo t.box ∧
        (d.session = c.session.report Session.unmatched m ∨
          d.session.anomalies = c.session.anomalies ∧
            ∃ y ∈ c.session.router.routes, y.keys = Client.callKeys t.id ∧
              ∃ b, b ≠ t.box ∧ y.handler = .call b)

end CallTicket

namespace Client

variable {c d : Client} {ms : List Move} {t : CallTicket} {answers : List Message}
  {items : List (Except Failure Message)} {log : List Outcome}

theorem isLast_of_dropLast (returns : Returns answers (c.session.phase = .closed) items) :
    ∀ result ∈ (items.map t.judge).dropLast, CallTicket.isLast result = false := by
  intro result there
  rw [← List.map_dropLast] at there
  obtain ⟨came, among, rfl⟩ := List.mem_map.mp there
  obtain ⟨r, judged, progress⟩ := returns.progress t came among
  simp [judged, CallTicket.isLast, progress]

end Client

namespace CallTicket

open Client

variable {c : Client} {t : CallTicket} {answers : List Message}
  {items : List (Except Failure Message)} {log : List Outcome}

/-- What a ticket has in its box, and how much of it was read. -/
structure Holds (t : CallTicket) (answers : List Message) (items : List (Except Failure Message))
    (log : List Outcome) (c : Client) : Prop where
  stands : t.Stands answers items c
  logged : (Ticket.call t).Logged t.box log c

namespace Holds

theorem within (holds : t.Holds answers items log c) : t.read ≤ items.length := by
  have within := holds.logged.within
  rwa [holds.stands.contents, List.length_map] at within

theorem any_isLast (holds : t.Holds answers items log c) :
    (items.map t.judge).any isLast = true ↔
      c.session.phase = .closed ∨ ∃ m ∈ answers, m.moreFollows = false := by
  rw [List.any_map]
  exact holds.stands.returns.any_last t

theorem settled_eq (holds : t.Holds answers items log c) :
    t.settled = ((items.map t.judge).take t.read).any isLast := by
  have settles : t.settled = ((c.session.postsTo t.box).take t.read).any t.ends :=
    holds.logged.settles
  rw [settles, holds.stands.contents, ← List.map_take, ← List.map_take, List.any_map, List.any_map]
  rfl

theorem settled_iff (holds : t.Holds answers items log c) :
    t.settled = true ↔ t.read = (items.map t.judge).length ∧
      (c.session.phase = .closed ∨ ∃ m ∈ answers, m.moreFollows = false) := by
  have within : t.read ≤ (items.map t.judge).length := by
    rw [List.length_map]
    exact holds.within
  rw [holds.settled_eq, any_take_iff within (isLast_of_dropLast holds.stands.returns),
    holds.any_isLast]

theorem last_iff (holds : t.Holds answers items log c) :
    (∃ result, (items.map t.judge).getLast? = some result ∧ isLast result = true) ↔
      c.session.phase = .closed ∨ ∃ m ∈ answers, m.moreFollows = false := by
  rw [← holds.any_isLast]
  constructor
  · rintro ⟨result, last, final⟩
    exact List.any_eq_true.mpr ⟨result, List.mem_of_getLast? last, final⟩
  · intro some'
    obtain ⟨result, there, final⟩ := List.any_eq_true.mp some'
    rcases List.eq_nil_or_concat (items.map t.judge) with empty | ⟨init, last, all⟩
    · rw [empty] at there
      exact absurd there List.not_mem_nil
    · have plain := isLast_of_dropLast (t := t) holds.stands.returns
      rw [all, List.concat_eq_append] at there plain ⊢
      rw [List.dropLast_concat] at plain
      rcases List.mem_append.mp there with early | own
      · exact nomatch (plain result early).symm.trans final
      · rw [List.mem_singleton.mp own] at final
        exact ⟨last, List.getLast?_concat, final⟩

theorem reads (holds : t.Holds answers items log c) :
    ∃ k, log = ((items.map t.judge).take t.read).map ofResult ++ List.replicate k .exhausted ∧
      (k = 0 ∨ t.settled = true) := by
  obtain ⟨seen, k, rfl, shown, drained⟩ := holds.logged.shown
  rw [holds.stands.contents, ← List.map_take] at shown
  refine ⟨k, ?_, drained⟩
  rw [← List.map_take, shown_of_outcomes shown]
  rfl

/-- More may come as long as there is no last result. -/
theorem feeds (holds : t.Holds answers items log c)
    (going : ¬ (c.session.phase = .closed ∨ ∃ m ∈ answers, m.moreFollows = false)) :
    c.session.feeds t.box = true := by
  obtain ⟨live, more⟩ := not_or.mp going
  exact holds.stands.fed.mpr ⟨live, by simpa using more⟩

theorem next (holds : t.Holds answers items log c) (name : String) (stream : Bool) :
    (c.advance (.nextOutcome name t stream)).map Prod.snd =
      if t.settled then some (.inr .exhausted)
      else (items.map t.judge)[t.read]?.map fun result => .inr (ofResult result) := by
  cases settled : t.settled with
  | true => simp [advance, settled]
  | false =>
    have place := holds.stands.aside.postAt t.read
    rw [holds.stands.contents, List.getElem?_map] at place
    rw [List.getElem?_map]
    cases lies : items[t.read]? with
    | some came =>
      rw [lies] at place
      simp [advance, settled, cameBack, place, CallTicket.take]
    | none =>
      -- otherwise the last result would have been read
      have all : t.read = (items.map t.judge).length := by
        rw [List.length_map]
        exact Nat.le_antisymm holds.within (List.getElem?_eq_none_iff.mp lies)
      have fed := holds.feeds fun ended =>
        by cases settled.symm.trans (holds.settled_iff.mpr ⟨all, ended⟩)
      rw [lies, fed] at place
      simp [advance, settled, cameBack, place]

theorem final (holds : t.Holds answers items log c) :
    (c.advance (.lastOutcome t)).map Prod.snd =
      if t.settled then some (.inr (.failed (t.failed (Failure.of .callSettled))))
      else ((items.map t.judge).getLast?.filter isLast).map fun result =>
        .inr (ofResult result) := by
  cases settled : t.settled with
  | true => simp [advance, settled, settleCall, ofResult]
  | false =>
    have within : t.read ≤ (items.map t.judge).length := by
      rw [List.length_map]
      exact holds.within
    have unread := holds.settled_eq.symm.trans settled
    have found := find_drop within (isLast_of_dropLast holds.stands.returns) unread
    have among : t.lastAmong ((c.session.postsTo t.box).drop t.read) =
        (items.map t.judge).getLast?.filter isLast := by
      rw [holds.stands.contents, ← List.map_drop, lastAmong_outcomes, List.map_drop, found]
    cases last : (items.map t.judge).getLast?.filter isLast with
    | some result =>
      simp only [advance, settled, Bool.false_eq_true, if_false, among, last]
      rfl
    | none =>
      have fed : c.feeds t.box = true := by
        rw [Client.feeds, holds.feeds fun ended => ?_, Bool.true_or]
        obtain ⟨result, lies, final⟩ := holds.last_iff.mpr ended
        rw [lies, Option.filter_some, if_pos final] at last
        cases last
      simp only [advance, settled, Bool.false_eq_true, if_false, among, last, fed, if_true]
      rfl

end Holds

end CallTicket

namespace Client

variable {c : Client} {ms : List Move} {t : CallTicket} {m : Message} {id : Id}

/-! ### An answer comes in -/

theorem session_answer (live : c.session.phase ≠ .closed) (answers : m.answersCall id = true) :
    (c.move (.arrive (.item (.message m)))).session = c.session.distribute m := by
  have keyed : (RouteKey.ofMessage m).id ≠ none := by
    rcases ofMessage_of_answersCall answers with own | own <;>
      simp [own, RouteKey.ofReply, RouteKey.ofRefusal]
  have stepped : (c.move (.arrive (.item (.message m)))).session = c.session.receive m :=
    if_neg live
  rw [stepped, Session.receive_of_id keyed]

theorem Fresh.distribute_answer (fresh : Fresh c) (answers : m.answersCall id = true) :
    let s := (c.run ms).session
    s.distribute m = if (s.distributed m).2.1 then s.handedAround m
      else (s.handedAround m).report Session.unmatched m :=
  Session.distribute_of_calls (fresh.settled.run ms).books.sound (plain_of_answersCall answers)
    fun _ there takes => (fresh.call_of_takes there takes answers).2

theorem Fresh.phase_answer (fresh : Fresh c) (live : (c.run ms).session.phase ≠ .closed)
    (answers : m.answersCall id = true) :
    ((c.run ms).move (.arrive (.item (.message m)))).session.phase ≠ .closed := by
  rw [session_answer live answers, fresh.distribute_answer answers]
  split <;> exact live

/-- An answer that some call waits for is not reported. -/
theorem Fresh.anomalies_answer (fresh : Fresh c) (live : (c.run ms).session.phase ≠ .closed)
    (answers : m.answersCall id = true) {y : Route Target}
    (there : y ∈ (c.run ms).session.router.routes)
    (takes : y.takes (RouteKey.ofMessage m) = true) :
    ((c.run ms).move (.arrive (.item (.message m)))).session.anomalies =
      (c.run ms).session.anomalies := by
  have sound := (fresh.settled.run ms).books.sound
  rw [session_answer live answers, fresh.distribute_answer answers,
    if_pos (Session.matched_of_takes sound there takes)]
  rfl

/-- Whoever holds a ticket still listens once something has come in. -/
theorem Fresh.heard_arrive (fresh : Fresh c) {u : Ticket} (held : u ∈ (c.run ms).heldTickets)
    {b : Box} (own : u.owns b = true) (a : Arrival) :
    b ∉ ((c.run ms).move (.arrive a)).session.gone := by
  have after : c.run (ms ++ [.arrive a]) = (c.run ms).move (.arrive a) :=
    run_append c ms [.arrive a]
  rw [← after]
  refine fresh.heard (t := u) ?_ own
  rwa [after]

theorem Fresh.takes_answer (fresh : Fresh c) {answers : List Message}
    {items items' : List (Except Failure Message)} (stands : t.Stands answers items (c.run ms))
    (own : m.answersCall t.id = true) (live : (c.run ms).session.phase ≠ .closed)
    (later : t.Stands (answers ++ [m]) items' ((c.run ms).move (.arrive (.item (.message m)))))
    (there : ⟨t.route, callKeys t.id, .call t.box⟩ ∈ (c.run ms).session.router.routes) :
    let d := (c.run ms).move (.arrive (.item (.message m)))
    d.session.postsTo t.box = (c.run ms).session.postsTo t.box ++ [.outcome (.ok m)] ∧
      (⟨t.route, callKeys t.id, .call t.box⟩ ∈ d.session.router.routes ↔
        CallTicket.isLast (t.judge (.ok m)) = false) := by
  intro d
  have more := (stands.route live).mp there
  have live' := fresh.phase_answer live own
  refine ⟨?_, ?_⟩
  · rw [later.contents, stands.contents, later.returns.of_live live', stands.returns.of_live live,
      Message.untilLast_append_of_more more, Message.untilLast_of_more more]
    simp
  · rw [later.route live', CallTicket.isLast_judge, Bool.not_eq_false']
    refine ⟨fun all => all m (by simp), fun follows n among => ?_⟩
    rcases List.mem_append.mp among with before | last
    · exact more n before
    · rwa [List.mem_singleton.mp last]

theorem Fresh.late_answer (fresh : Fresh c) {answers : List Message}
    {items : List (Except Failure Message)} (stands : t.Stands answers items (c.run ms))
    (own : m.answersCall t.id = true) (live : (c.run ms).session.phase ≠ .closed)
    (heard : t.box ∉ ((c.run ms).move (.arrive (.item (.message m)))).session.gone)
    (gone : ⟨t.route, callKeys t.id, .call t.box⟩ ∉ (c.run ms).session.router.routes) :
    let d := (c.run ms).move (.arrive (.item (.message m)))
    d.session.postsTo t.box = (c.run ms).session.postsTo t.box ∧
      (d.session = (c.run ms).session.report Session.unmatched m ∨
        d.session.anomalies = (c.run ms).session.anomalies ∧
          ∃ y ∈ (c.run ms).session.router.routes, y.keys = callKeys t.id ∧
            ∃ b, b ≠ t.box ∧ y.handler = .call b) := by
  intro d
  have sound := (fresh.settled.run ms).books.sound
  have unfed : (c.run ms).session.feeds t.box = false := by
    by_contra fed
    exact gone ((stands.route live).mpr (stands.fed.mp (by simpa using fed)).2)
  refine ⟨(frozen_move stands.aside sound unfed heard).1, ?_⟩
  by_cases passes : ∀ y ∈ (c.run ms).session.router.routes, y.takes (RouteKey.ofMessage m) = false
  · refine Or.inl ?_
    have same : d.session = (c.run ms).session.distribute m := session_answer live own
    rw [same, Session.distribute_of_passes sound passes,
      Session.noteUnmatched_of_other (plain_of_answersCall own)]
  · push Not at passes
    obtain ⟨y, there, taken⟩ := passes
    have takes : y.takes (RouteKey.ofMessage m) = true := by simpa using taken
    obtain ⟨keys, b, handler⟩ := fresh.call_of_takes there takes own
    refine Or.inr ⟨?_, y, there, keys, b, ?_, handler⟩
    · exact fresh.anomalies_answer live own there takes
    · rintro rfl
      have feeds : y.handler.feeds t.box = true := by simp [handler, Target.feeds]
      cases unfed.symm.trans (Session.feeds_eq_true.mpr ⟨live, Or.inl ⟨y, there, feeds⟩⟩)

/-! ### Runs -/

/-- The account of a call that is still held, from the moment at which it was accepted. -/
theorem Fresh.call_account (fresh : Fresh c) {stream : Bool}
    (held : t.kept stream ∈ (c.run ms).heldTickets) :
    ∃ before after options procedure payload accepted rest results,
      ms = before ++ .serve :: after ∧
      (c.run before).commands = .request (.call t.id options procedure payload) (callKeys t.id)
        (.call t.box) (some accepted) :: rest ∧
      let start := (c.run before).move .serve
      (accepted, .accepted (.ok t.route)) ∈ start.session.posts ∧
        t.Account ((start.heard after).filter (Message.answersCall t.id)) results
          (c.yielded t.box ms) (c.run ms) := by
  have own : (t.kept stream).owns t.box = true := by
    rw [CallTicket.owns_kept, beq_self_eq_true]
  have arises := (CallTicket.arises_kept stream).mp (fresh.arises held)
  obtain ⟨before, after, message, accepted, rest, rfl, next, told, stands⟩ :=
    fresh.call_stands arises (fresh.heard held own)
  obtain ⟨request, options, procedure, payload, rfl, keys⟩ :=
    (fresh.formed (mem_served_of_next after next)).call_of_target
  obtain rfl : t.id = request := by
    simpa [callKeys, RouteKey.ofReply, RouteKey.ofRefusal] using keys
  obtain ⟨items, now⟩ := stands [] (fresh.heard held own)
  rw [List.append_nil] at now
  have logged := ((fresh.reads t.box (before ++ .serve :: after)).tickets _
    (mem_tickets.mpr (Or.inr held)) own)
  have holds : t.Holds _ items _ _ := ⟨now, (logged_kept stream).mp logged⟩
  have from' : c.run (before ++ .serve :: after) = ((c.run before).move .serve).run after :=
    run_append c before (.serve :: after)
  have follows : ∀ m : Message, m.answersCall t.id = true →
      (c.run (before ++ .serve :: after)).session.phase ≠ .closed → ∃ items',
        t.Stands
          ((((c.run before).move .serve).heard after).filter (Message.answersCall t.id) ++ [m])
          items' ((c.run (before ++ .serve :: after)).move (.arrive (.item (.message m)))) := by
    intro m answers live
    obtain ⟨items', later⟩ := stands [.arrive (.item (.message m))]
      (fresh.heard_arrive held own (.item (.message m)))
    rw [heard_concat (from' ▸ live), List.filter_append, List.filter_singleton, answers] at later
    exact ⟨items', later⟩
  refine ⟨before, after, options, procedure, payload, accepted, rest, items.map t.judge, rfl, next,
    told, ⟨items, now.returns, rfl⟩, fun result there => ?_, holds.last_iff, holds.reads,
    holds.settled_iff, holds.next, holds.final, now.route, fun m answers live there => ?_,
    fun m answers live gone => ?_⟩
  · rw [← List.map_dropLast] at there
    obtain ⟨came, among, rfl⟩ := List.mem_map.mp there
    exact now.returns.progress t came among
  · obtain ⟨items', later⟩ := follows m answers live
    exact fresh.takes_answer now answers live later there
  · exact fresh.late_answer now answers live (fresh.heard_arrive held own _) gone

/-- An answer under an id that was drawn again is taken for that of the later call. -/
theorem Fresh.answers_later (fresh : Fresh c) {number : Nat} (idle : Idle number (c.run ms))
    {n : Nat} (again : ((c.run ms).ids.after n).upcoming = id) (name : String)
    (answers : m.answersCall id = true) :
    let d := c.run (ms ++ publishesOn number n ++ calls (number + n) name)
    d.tickets = (c.run ms).tickets ∧ d.session.phase = .established ∧
      (d.move (.arrive (.item (.message m)))).session.anomalies = d.session.anomalies := by
  intro d
  let e := (c.run ms).run (publishesOn number n)
  obtain ⟨idle', ids, -, -, tickets⟩ := idle.publishesOn n
  obtain ⟨live, -, tickets', router⟩ := idle'.calls name
  have same : d = e.run (calls (number + n) name) := by
    rw [← run_append, ← run_append, ← List.append_assoc]
  rw [ids, again] at router
  rw [← same] at live tickets' router
  refine ⟨tickets'.trans tickets, live, ?_⟩
  let y : Route Target := ⟨e.session.router.lastHandle + 1, callKeys id, .call (e.nextBox + 1)⟩
  have there : y ∈ d.session.router.routes := router ▸ Session.mem_routes_add.mpr (Or.inr rfl)
  have takes : y.takes (RouteKey.ofMessage m) = true := by rwa [takes_callKeys]
  exact fresh.anomalies_answer (fun late => nomatch live.symm.trans late) answers there takes

/-- Every answer to a call gets to the caller once and in order, from the moment at which the call
was accepted up to the last answer or the session's end. The route of the call goes with the last
answer, and later ones do not get to the caller. -/
theorem call_results (wire : Wire) (now closeTimeout : Nat) (ids : IdSource) (id : Id) (realm : Uri)
    (details : Dictionary) (ms : List Move) {t : CallTicket} {stream : Bool} :
    let c := joined (Session.established wire now closeTimeout) ids id realm details
    let d := c.run ms
    t.kept stream ∈ d.heldTickets →
    ∃ before after options procedure payload accepted rest results,
      ms = before ++ .serve :: after ∧
      (c.run before).commands = .request (.call t.id options procedure payload) (callKeys t.id)
        (.call t.box) (some accepted) :: rest ∧
      let start := (c.run before).move .serve
      (accepted, .accepted (.ok t.route)) ∈ start.session.posts ∧
        t.Account ((start.heard after).filter (Message.answersCall t.id)) results
          (c.yielded t.box ms) d :=
  fun held => (fresh_joined wire now closeTimeout ids id realm details).call_account held

/-- A call that is answered twice, and of which more is read than there is. -/
def callStreamed : List Move :=
  calls 0 "t" ++ [.poll 0,
    .arrive (.item (.message (.result Id.min [("progress", .bool true)] Payload.empty))),
    .arrive (.item (.message (.result Id.min [] Payload.empty))),
    .act 1 (.onTicket "t" .nextOutcome), .poll 1, .act 2 (.onTicket "t" .nextOutcome), .poll 2,
    .act 3 (.onTicket "t" .nextOutcome), .poll 3]

theorem call_results_streamed :
    let t : CallTicket := ⟨Id.min, ⟨"a"⟩, 1, 1, 2, true, false⟩
    let d := newcomer.run callStreamed
    (d.heldTickets = [t.kept false] ∧
      newcomer.yielded t.box callStreamed =
        [.result ⟨Payload.empty, [("progress", .bool true)], true⟩,
          .result ⟨Payload.empty, [], false⟩, .exhausted]) ∧
    ∃ before after options procedure payload accepted rest results,
      callStreamed = before ++ .serve :: after ∧
      (newcomer.run before).commands = .request (.call t.id options procedure payload)
        (callKeys t.id) (.call t.box) (some accepted) :: rest ∧
      let start := (newcomer.run before).move .serve
      (accepted, .accepted (.ok t.route)) ∈ start.session.posts ∧
        t.Account ((start.heard after).filter (Message.answersCall t.id)) results
          (newcomer.yielded t.box callStreamed) d := by
  intro t d
  have held : d.heldTickets = [t.kept false] := rfl
  refine ⟨⟨held, rfl⟩, ?_⟩
  exact call_results (Wire.fresh fun _ => none) 0 1000 IdSource.initial Id.min ⟨"realm"⟩ []
    callStreamed (held ▸ List.mem_singleton_self _)

/-- A call that is answered at once, and whose result is read. -/
def callAnswered : List Move :=
  calls 0 "t" ++ [.poll 0, .arrive (.item (.message (.result Id.min [] Payload.empty))),
    .act 1 (.onTicket "t" .nextOutcome), .poll 1]

/-- Whoever waits for the last result after having read it is told that the call is settled. And
once all ids were drawn, a late answer is not reported, but taken for that of another call. -/
theorem call_results_settled :
    let t : CallTicket := ⟨Id.min, ⟨"a"⟩, 1, 1, 1, true, false⟩
    let late : Message := .result t.id [] Payload.empty
    let d := newcomer.run
      (callAnswered ++ publishesOn 2 9007199254740991 ++ calls (2 + 9007199254740991) "u")
    (newcomer.yielded t.box callAnswered = [.result ⟨Payload.empty, [], false⟩] ∧
      (newcomer.run (callAnswered ++ [.act 2 (.onTicket "t" .lastOutcome)])).polled 2 =
        some (.lastOutcome t, .failed (t.failed (Failure.of .callSettled)))) ∧
    late.answersCall t.id = true ∧ d.tickets = [("t", .call t)] ∧ d.session.phase = .established ∧
      (d.move (.arrive (.item (.message late)))).session.anomalies = d.session.anomalies := by
  have free : (newcomer.run callAnswered).tasks = [] := rfl
  have idle : Idle 2 (newcomer.run callAnswered) :=
    ⟨rfl, rfl, rfl, rfl, fun _ => rfl, by simp [free]⟩
  have again : ((newcomer.run callAnswered).ids.after 9007199254740991).upcoming = Id.min := by
    have value := (newcomer.run callAnswered).ids.value_after 9007199254740991
    generalize ((newcomer.run callAnswered).ids.after 9007199254740991).upcoming = i at value
    cases i
    cases value
    rfl
  exact ⟨⟨rfl, rfl⟩, rfl, fresh_newcomer.answers_later idle again "u" rfl⟩

end Client

end WampClient
