import WampClient.Proofs.Session.Intake
import Mathlib.Data.List.Chain

/-! How a session comes through its phases, and when it takes leave of its realm. It enters a phase
only where it may, and says GOODBYE only as it comes out of the phase in which it is established;
so it says it once. -/
namespace WampClient

/-- Whether a message takes leave of the realm. -/
def Message.isGoodbye : Message → Bool
  | .goodbye .. => true
  | _ => false

def StreamItem.isGoodbye : StreamItem → Bool
  | .message m => m.isGoodbye
  | .ping _ => false

/-- Whether a command has a GOODBYE sent in so many words. -/
def Command.saysGoodbye : Command → Bool
  | .send m _ => m.isGoodbye
  | .request m .. => m.isGoodbye
  | _ => false

/-- Why an established session takes leave of its realm because of this: it is asked to, or nobody
is left who could ask, or the peer does so. -/
def Input.leave? : Input → Option CloseReason
  | .command (.close _) => some .closeRealm
  | .orphaned => some .closeRealm
  | .arrival (.item (.message (.goodbye ..))) => some .goodbyeAndOut
  | _ => none

/-- An item gets out or not. -/
theorem Wire.sent_send (w : Wire) (i : StreamItem) :
    (w.send i).1.sent = w.sent ∨ (w.send i).1.sent = w.sent ++ [i] := by
  unfold send
  dsimp only
  split
  · exact Or.inl rfl
  · split
    · exact Or.inl rfl
    · exact Or.inr rfl

/-! ### Phases -/

/-- How far on a phase is. -/
def Phase.rank : Phase → Nat
  | .connecting => 0
  | .handshaking => 1
  | .established => 2
  | .closing => 3
  | .closed => 4

theorem Phase.rank_lt_of_mayEnter {p q : Phase} (may : p.mayEnter q = true) : p.rank < q.rank := by
  revert may
  cases p <;> cases q <;> decide

theorem Phase.mayEnter_closed {p : Phase} (live : p ≠ .closed) : p.mayEnter .closed = true := by
  revert live
  cases p <;> decide

theorem Phase.not_mayEnter_of_closed (q : Phase) : Phase.mayEnter .closed q = false := by
  cases q <;> rfl

namespace Lifecycle

variable {l : Lifecycle} {next : Phase}

/-- A session has come through its phases as it may: from the first one on, each was entered from
the one before it, and it was never to enter one that it could not. -/
structure Lawful (l : Lifecycle) : Prop where
  first : l.published.head? = some .connecting
  last : l.published.getLast? = some l.phase
  chain : l.published.IsChain fun p q => p.mayEnter q = true
  heeded : l.ignored = []

theorem enter_eq (may : l.phase.mayEnter next = true) :
    l.enter next = { l with phase := next, published := l.published ++ [next] } := if_pos may

theorem lawful_begun : begun.Lawful := ⟨rfl, rfl, .singleton _, rfl⟩

theorem Lawful.enter (lawful : l.Lawful) (may : l.phase.mayEnter next = true) :
    (l.enter next).Lawful := by
  rw [enter_eq may]
  refine ⟨?_, List.getLast?_concat, ?_, lawful.heeded⟩
  · rw [List.head?_append, lawful.first, Option.some_or]
  · refine lawful.chain.append (.singleton _) fun p here q there => ?_
    obtain rfl := Option.some.inj (lawful.last.symm.trans here)
    obtain rfl := Option.some.inj there
    exact may

/-- The phases get on. -/
theorem Lawful.advances (lawful : l.Lawful) :
    l.published.Pairwise fun p q => p.rank < q.rank := by
  have : IsTrans Phase fun p q => p.rank < q.rank := ⟨fun _ _ _ => Nat.lt_trans⟩
  exact (lawful.chain.imp fun _ _ => Phase.rank_lt_of_mayEnter).pairwise

/-- What was gone through stays so, and nothing comes after the end. -/
structure Continues (l l' : Lifecycle) : Prop where
  published : l.published <+: l'.published
  onward : l.phase.rank ≤ l'.phase.rank
  final : l.phase = .closed → l' = l

theorem Continues.refl (l : Lifecycle) : l.Continues l :=
  ⟨List.prefix_rfl, Nat.le_refl _, fun _ => rfl⟩

theorem Continues.trans {l' l'' : Lifecycle} (one : l.Continues l') (two : l'.Continues l'') :
    l.Continues l'' where
  published := one.published.trans two.published
  onward := Nat.le_trans one.onward two.onward
  final closed := by
    have same := one.final closed
    rw [two.final (by rw [same, closed]), same]

theorem Continues.enter {l' : Lifecycle} (continues : l.Continues l')
    (may : l'.phase.mayEnter next = true) : l.Continues (l'.enter next) := by
  rw [enter_eq may]
  refine ⟨continues.published.trans (List.prefix_append _ _),
    Nat.le_trans continues.onward (Nat.le_of_lt (Phase.rank_lt_of_mayEnter may)), fun closed => ?_⟩
  rw [continues.final closed, closed, Phase.not_mayEnter_of_closed] at may
  exact nomatch may

end Lifecycle

/-! ### What the peer and the program see -/

/-- A session as it is seen from outside: the phases that it has come through, and what it has
sent. -/
structure Front where
  lifecycle : Lifecycle
  sent : List StreamItem

namespace Front

variable {leave : Option CloseReason} {a b : Front}

/-- The smallest things that are seen of a session. It takes leave with the reason that there is for
it, in the moment in which it stops being established. -/
inductive Step (leave : Option CloseReason) : Front → Front → Prop where
  | speaks (l : Lifecycle) (sent : List StreamItem) {i : StreamItem} (other : i.isGoodbye = false) :
      Step leave ⟨l, sent⟩ ⟨l, sent ++ [i]⟩
  | enters {l : Lifecycle} (sent : List StreamItem) {next : Phase}
      (may : l.phase.mayEnter next = true) : Step leave ⟨l, sent⟩ ⟨l.enter next, sent⟩
  | leaves {l : Lifecycle} (sent : List StreamItem) {reason : CloseReason}
      (called : leave = some reason) (opened : l.phase = .established) :
      Step leave ⟨l, sent⟩ ⟨l.enter .closing, sent ++ [.message reason.goodbye]⟩

abbrev Path (leave : Option CloseReason) : Front → Front → Prop :=
  Relation.ReflTransGen (Step leave)

theorem mayEnter_closing {p : Phase} (opened : p = .established) :
    p.mayEnter .closing = true := by
  rw [opened]
  rfl

theorem Path.lawful (path : Path leave a b) (lawful : a.lifecycle.Lawful) :
    b.lifecycle.Lawful := by
  induction path with
  | refl => exact lawful
  | tail _ step ih =>
    cases step with
    | speaks l sent other => exact ih
    | enters sent may => exact ih.enter may
    | leaves sent called opened => exact ih.enter (mayEnter_closing opened)

theorem Path.continues (path : Path leave a b) : a.lifecycle.Continues b.lifecycle := by
  induction path with
  | refl => exact .refl _
  | tail _ step ih =>
    cases step with
    | speaks l sent other => exact ih
    | enters sent may => exact ih.enter may
    | leaves sent called opened => exact ih.enter (mayEnter_closing opened)

/-- The times that leave was taken. -/
def goodbyes (a : Front) : List StreamItem := a.sent.filter StreamItem.isGoodbye

/-- Nobody takes leave, or it is done once, and nothing is established any more after it. -/
theorem Path.goodbyes (path : Path leave a b) :
    b.goodbyes = a.goodbyes ∨ a.lifecycle.phase.rank ≤ Phase.established.rank ∧
      Phase.established.rank < b.lifecycle.phase.rank ∧
        ∃ reason, leave = some reason ∧ b.goodbyes = a.goodbyes ++ [.message reason.goodbye] := by
  induction path with
  | refl => exact Or.inl rfl
  | @tail t u before step ih =>
    have onward := (Path.continues (.single step)).onward
    cases step with
    | @speaks l sent i other =>
      have same : Front.goodbyes ⟨l, sent ++ [i]⟩ = Front.goodbyes ⟨l, sent⟩ := by
        simp [Front.goodbyes, other]
      rwa [same]
    | enters sent may =>
      rcases ih with same | ⟨low, high, reason, called, said⟩
      · exact Or.inl same
      · exact Or.inr ⟨low, Nat.lt_of_lt_of_le high onward, reason, called, said⟩
    | @leaves l sent reason called opened =>
      have reached : l.phase.rank = Phase.established.rank := congrArg Phase.rank opened
      have beyond := Phase.rank_lt_of_mayEnter (mayEnter_closing opened)
      have entered : (l.enter .closing).phase = .closing := by
        rw [Lifecycle.enter_eq (mayEnter_closing opened)]
      rcases ih with same | ⟨low, high, -⟩
      · refine Or.inr ⟨?_, ?_, reason, called, ?_⟩
        · exact reached ▸ (Path.continues before).onward
        · dsimp only
          rw [entered, ← reached]
          exact beyond
        · rw [← same]
          simp [Front.goodbyes, StreamItem.isGoodbye, Message.isGoodbye, CloseReason.goodbye]
      · exact absurd reached (Nat.ne_of_gt high)

end Front

namespace Session

variable {leave : Option CloseReason} {s t u : Session} {i : StreamItem} {m : Message}

/-- What a session is apart from its routes, its boxes and its clock. -/
def outward (s : Session) : Lifecycle × Wire × Option Nat × List Box :=
  (s.toLifecycle, s.wire, s.deadline, s.closeWaiters)

def front (s : Session) : Front := ⟨s.toLifecycle, s.wire.sent⟩

theorem front_congr (same : t.outward = s.outward) : t.front = s.front :=
  congrArg (fun x : Lifecycle × Wire × Option Nat × List Box => Front.mk x.1 x.2.1.sent) same

/-- The smallest things that a session does apart from its routes and boxes. It takes leave with the
reason that there is for it. -/
inductive Turn (leave : Option CloseReason) (s : Session) : Session → Prop where
  | quiet {t : Session} (same : t.outward = s.outward) : Turn leave s t
  /-- Somebody more waits for the peer's GOODBYE. -/
  | waits (waiters : List Box) (leaving : s.phase = .closing) :
      Turn leave s { s with closeWaiters := waiters }
  | sends {i : StreamItem} (other : i.isGoodbye = false) : Turn leave s (s.transmit i).1
  | terminates (f : Failure) : Turn leave s (s.terminate f)
  | leaves {t : Session} {reason : CloseReason} (called : leave = some reason)
      (opened : s.phase = .established) (entered : t.toLifecycle = s.toLifecycle.enter .closing)
      (wire : t.wire = s.wire) : Turn leave s (t.transmit (.message reason.goodbye)).1

abbrev Turns (leave : Option CloseReason) : Session → Session → Prop :=
  Relation.ReflTransGen (Turn leave)

/-! ### What stays inside -/

@[simp] theorem outward_post (s : Session) (box : Box) (p : Post) :
    (s.post box p).outward = s.outward := by
  rw [post_eq]
  rfl

@[simp] theorem outward_answer (s : Session) (box : Option Box) (p : Post) :
    (s.answer box p).outward = s.outward := by
  rw [answer_eq]
  rfl

@[simp] theorem outward_retiring (s : Session) (m : Message) :
    (s.retiring m).outward = s.outward := by
  rcases retiring_cases s m with same | ⟨request, route, -, retired⟩
  · rw [same]
  · rw [retired]
    rfl

@[simp] theorem outward_changeRoutes (s : Session) (m : Message) (change : Option RouteChange) :
    (s.changeRoutes m change).1.outward = s.outward := by
  rcases change with _ | feed | route
  · rfl
  · simp only [changeRoutes]
    split <;> rfl
  · simp only [changeRoutes]
    split <;> rfl

@[simp] theorem outward_handOver (s : Session) (box : Option Box) (m : Message)
    (change : Option RouteChange) : (s.handOver box m change).outward = s.outward := by
  have changed := outward_changeRoutes s m change
  rw [handOver]
  cases box with
  | none => exact changed
  | some box =>
    dsimp only
    split
    · cases (s.changeRoutes m change).2 with
      | none => exact changed
      | some route => exact changed
    · rw [outward_post]
      exact changed

@[simp] theorem outward_watch (s : Session) (request : Id) (cell : Cell) :
    (s.watch request cell).outward = s.outward := by
  rcases watch_eq s request cell with watched | ⟨previous, -, watched⟩ <;> rw [watched] <;> rfl

theorem turns_quiet (same : t.outward = s.outward) : s.Turns leave t := .single (.quiet same)

theorem turns_answer (s : Session) (box : Option Box) (p : Post) : s.Turns leave (s.answer box p) :=
  turns_quiet (outward_answer s box p)

/-! ### Sending -/

theorem turns_terminate (s : Session) (f : Failure) : s.Turns leave (s.terminate f) :=
  .single (.terminates f)

theorem turns_sendOrTerminate_of {v : Session} (m : Message)
    (sent : v.Turns leave ((s.retiring m).transmit (.message m)).1) :
    v.Turns leave (s.sendOrTerminate m).1 := by
  rcases sendOrTerminate_left s m with left | ⟨description, left⟩
  · rwa [left]
  · rw [left]
    exact sent.trans (turns_terminate _ _)

theorem turns_sendOrTerminate (s : Session) (other : m.isGoodbye = false) :
    s.Turns leave (s.sendOrTerminate m).1 :=
  turns_sendOrTerminate_of m ((turns_quiet (outward_retiring s m)).tail (.sends other))

theorem turns_errands (es : List Errand) (s : Session) : s.Turns leave (es.foldl runErrand s) := by
  induction es generalizing s with
  | nil => exact .refl
  | cons e rest ih =>
    refine Relation.ReflTransGen.trans ?_ (ih _)
    cases e with
    | handOver box reply change => exact turns_quiet (outward_handOver s box reply change)
    | watch request cell => exact turns_quiet (outward_watch s request cell)
    | turnAway request => exact turns_sendOrTerminate s rfl

theorem turns_report (s : Session) (description : String) (m : Message) :
    s.Turns leave (s.report description m) := turns_quiet rfl

theorem turns_noteUnmatched (s : Session) (m : Message) : s.Turns leave (s.noteUnmatched m) := by
  cases m with
  | invocation request registration details payload =>
    exact (turns_sendOrTerminate s rfl).trans (turns_report _ unmatched _)
  | _ => exact turns_report s unmatched _

theorem turns_distribute (s : Session) (m : Message) : s.Turns leave (s.distribute m) := by
  have around : s.Turns leave (s.handedAround m) := turns_quiet rfl
  have done := around.trans (turns_errands (s.distributed m).2.2.errands _)
  rw [distribute_eq]
  dsimp only
  split
  · exact done
  · exact done.trans (turns_noteUnmatched _ m)

/-! ### Steps -/

theorem turns_partFrom (opened : s.phase = .established) (reason : Uri) (m : Message) :
    s.Turns (some .goodbyeAndOut) (s.partFrom reason m) := by
  have leaves : s.Turn (some .goodbyeAndOut)
      ((s.enter .closing).transmit (.message CloseReason.goodbyeAndOut.goodbye)).1 :=
    .leaves rfl opened rfl rfl
  exact (Relation.ReflTransGen.single leaves).trans (turns_terminate _ _)

theorem turns_startLeaving (s : Session) (box : Option Box) :
    s.Turns (some .closeRealm) (s.startLeaving box) := by
  rcases startLeaving_cases s box with ⟨opened, same⟩ | ⟨leaving, same⟩ | same <;> rw [same]
  · have entered : (s.settingOut box).toLifecycle = s.toLifecycle.enter .closing :=
      (if_pos (Front.mayEnter_closing opened)).symm
    exact turns_sendOrTerminate_of _ (.single (.leaves rfl opened entered rfl))
  · exact .single (.waits _ leaving)
  · exact turns_answer s box _

theorem turns_receive (s : Session) (m : Message) :
    s.Turns (Input.arrival (.item (.message m))).leave? (s.receive m) := by
  rcases receive_cases s m with
    ⟨-, ⟨details, reason, rfl, opened, same⟩ | ⟨f, -, same⟩ | same⟩ | same <;> rw [same]
  · exact turns_partFrom opened reason _
  · exact turns_terminate s f
  · exact turns_report s late m
  · exact turns_distribute s m

theorem turns_arrive (s : Session) (a : Arrival) :
    s.Turns (Input.arrival a).leave? (s.arrive a) := by
  cases a with
  | item i =>
    cases i with
    | message m => exact turns_receive s m
    | ping data => exact .single (.sends rfl)
  | failed description =>
    have aborts : s.Turns none (s.transmit (.message
        (Message.abortWith Complaint.protocolViolation.uri description))).1 := .single (.sends rfl)
    exact aborts.trans (turns_terminate _ _)
  | ended => exact turns_terminate s _

theorem turns_obey (s : Session) {c : Command} (polite : c.saysGoodbye = false) :
    s.Turns (Input.command c).leave? (s.obey c) := by
  cases c with
  | send m box =>
    rw [obey]
    split
    · exact (turns_sendOrTerminate s polite).trans (turns_answer _ box _)
    · exact turns_answer s box _
  | request m keys target box =>
    have added : s.Turns none { s with router := (s.router.add keys target).1 } := turns_quiet rfl
    exact request_keeps (P := s.Turns none) .refl m keys target box
      (fun _ => added.trans (turns_sendOrTerminate _ polite))
      (fun _ sent => sent.trans (turns_quiet rfl))
      (fun t _ sent => sent.trans (turns_answer t box _))
  | removeRoute route => exact turns_quiet rfl
  | close box => exact turns_startLeaving s box

theorem turns_elapse (s : Session) (time : Nat) : s.Turns leave (s.elapse time) := by
  have later : s.Turns leave { s with now := s.now + time } := turns_quiet rfl
  rcases elapse_cases s time with same | same <;> rw [same]
  · exact later
  · exact later.trans (turns_terminate _ _)

/-- Every step is made of turns. -/
theorem turns_step (s : Session) {input : Input}
    (polite : ∀ c, input = .command c → c.saysGoodbye = false) :
    s.Turns input.leave? (s.step input) := by
  by_cases late : s.phase = .closed
  · have same : (s.step input).outward = s.outward := by
      cases input with
      | forget box => rfl
      | _ => rw [step, if_pos late]
    exact turns_quiet same
  · cases input with
    | forget box => exact turns_quiet rfl
    | arrival a =>
      rw [step, if_neg late]
      exact turns_arrive s a
    | command c =>
      rw [step, if_neg late]
      exact turns_obey s (polite c rfl)
    | elapse time =>
      rw [step, if_neg late]
      exact turns_elapse s time
    | orphaned =>
      rw [step, if_neg late]
      exact turns_startLeaving s none

/-! ### What is seen of it -/

theorem front_transmit (s : Session) (i : StreamItem) :
    (s.transmit i).1.front = s.front ∨
      (s.transmit i).1.front = ⟨s.toLifecycle, s.wire.sent ++ [i]⟩ :=
  (s.wire.sent_send i).imp (congrArg (Front.mk _)) (congrArg (Front.mk _))

/-- Where a GOODBYE does not get out, it is the phase alone that is seen to change. -/
theorem Turn.path (turn : s.Turn leave t) : Front.Path leave s.front t.front := by
  cases turn with
  | quiet same => rw [front_congr same]
  | waits waiters leaving => exact .refl
  | @sends i other =>
    rcases front_transmit s i with same | sent
    · rw [same]
    · rw [sent]
      exact .single (.speaks _ _ other)
  | terminates f =>
    by_cases live : s.phase = .closed
    · rw [terminate_closed live]
    · have ended : (s.terminate f).front = (s.enter .closed).front := by
        rw [terminate_eq live, enter_closed live]
        rfl
      rw [ended]
      exact .single (.enters _ (Phase.mayEnter_closed live))
  | @leaves t reason called opened entered wire =>
    rcases front_transmit t (.message reason.goodbye) with same | sent
    · have quiet : t.front = ⟨s.toLifecycle.enter .closing, s.wire.sent⟩ := by
        rw [front, entered, wire]
      rw [same, quiet]
      exact .single (.enters _ (Front.mayEnter_closing opened))
    · rw [sent, entered, wire]
      exact .single (.leaves _ called opened)

theorem Turns.path (turns : s.Turns leave t) : Front.Path leave s.front t.front := by
  induction turns with
  | refl => exact .refl
  | tail _ turn ih => exact ih.trans turn.path

/-- What is seen of a session in a step. -/
theorem path_step (s : Session) {input : Input}
    (polite : ∀ c, input = .command c → c.saysGoodbye = false) :
    Front.Path input.leave? s.front (s.step input).front := (turns_step s polite).path

end Session

end WampClient
