import WampClient.Duplex
import Mathlib.Data.List.Basic

/-! The two streams of a pair as two channels, one in each direction. A record keeps what each side
did and what it was answered; what a side has sent, received and given up is read off the record
alone. In every order of sending, pinging, receiving, closing and dropping, the messages that came
in on one side are the first of those the other side got through, and each answer is the one the
record calls for. -/
namespace WampClient

@[simp] theorem Side.other_other (side : Side) : side.other.other = side := by cases side <;> rfl

@[simp] theorem Side.other_ne (side : Side) : side.other ≠ side := by cases side <;> decide

@[simp] theorem Side.ne_other (side : Side) : side ≠ side.other := by cases side <;> decide

theorem Side.eq_or_eq_other (s side : Side) : s = side ∨ s = side.other := by
  cases s <;> cases side <;> decide

namespace Duplex

@[simp] theorem get_set_self (d : Duplex) (side : Side) (e : StreamEnd) :
    (d.set side e).get side = e := by
  cases side <;> rfl

@[simp] theorem get_set_other (d : Duplex) (side : Side) (e : StreamEnd) :
    (d.set side e).get side.other = d.get side.other := by
  cases side <;> rfl

@[simp] theorem get_other_set (d : Duplex) (side : Side) (e : StreamEnd) :
    (d.set side.other e).get side = d.get side := by
  cases side <;> rfl

end Duplex

/-- What the holder of one side can do with it. -/
inductive StreamDeed where
  | send (m : Message)
  | ping
  | receive
  | close
  | drop

inductive StreamAnswer where
  | sent (result : Except StreamError Unit)
  | received (found : Received)
  | done

structure StreamEvent where
  side : Side
  deed : StreamDeed
  answer : StreamAnswer

/-- Nobody holds a dropped side, so nothing is done with it and nothing answers. -/
def Duplex.perform (d : Duplex) (side : Side) (deed : StreamDeed) : Duplex × Option StreamAnswer :=
  if (d.get side).dropped then (d, none)
  else match deed with
    | .send m => ((d.send side m).1, some (.sent (d.send side m).2))
    | .ping => (d.ping side, some .done)
    | .receive => ((d.receive side).1, some (.received (d.receive side).2))
    | .close => (d.close side, some .done)
    | .drop => (d.drop side, some .done)

/-! ### The record -/

namespace StreamEvent

/-- The message, where `side` got one through. -/
def sent? (side : Side) : StreamEvent → Option Message
  | ⟨s, .send m, .sent (.ok ())⟩ => if s = side then some m else none
  | _ => none

/-- The message, where one came in on `side`. -/
def received? (side : Side) : StreamEvent → Option Message
  | ⟨s, _, .received (.message m)⟩ => if s = side then some m else none
  | _ => none

/-- Whether `side` gave up sending here. -/
def leaves (side : Side) : StreamEvent → Bool
  | ⟨s, .close, _⟩ | ⟨s, .drop, _⟩ => s = side
  | _ => false

def drops (side : Side) : StreamEvent → Bool
  | ⟨s, .drop, _⟩ => s = side
  | _ => false

/-- No message passed and no side left. -/
def Idle (e : StreamEvent) : Prop :=
  ∀ s, e.sent? s = none ∧ e.received? s = none ∧ e.leaves s = false ∧ e.drops s = false

end StreamEvent

/-- A pair and the record of what was done with it. -/
structure Traffic where
  duplex : Duplex
  record : List StreamEvent

namespace Traffic

open StreamEvent

def fresh : Traffic := ⟨.fresh, []⟩

def perform (t : Traffic) (side : Side) (deed : StreamDeed) : Traffic :=
  match t.duplex.perform side deed with
  | (d, some answer) => ⟨d, t.record ++ [⟨side, deed, answer⟩]⟩
  | (d, none) => ⟨d, t.record⟩

/-- The two sides in any order. -/
def run (t : Traffic) : List (Side × StreamDeed) → Traffic
  | [] => t
  | (side, deed) :: rest => (t.perform side deed).run rest

def sentBy (t : Traffic) (side : Side) : List Message := t.record.filterMap (·.sent? side)

def receivedBy (t : Traffic) (side : Side) : List Message := t.record.filterMap (·.received? side)

/-- Closed or dropped. -/
def hasLeft (t : Traffic) (side : Side) : Bool := t.record.any (·.leaves side)

def hasDropped (t : Traffic) (side : Side) : Bool := t.record.any (·.drops side)

/-! ### One event more -/

section Views

variable (t : Traffic) (d : Duplex) (e : StreamEvent) (side : Side)

@[simp] theorem sentBy_snoc :
    sentBy ⟨d, t.record ++ [e]⟩ side = t.sentBy side ++ (e.sent? side).toList := by
  cases he : e.sent? side <;> simp [sentBy, he]

@[simp] theorem receivedBy_snoc :
    receivedBy ⟨d, t.record ++ [e]⟩ side = t.receivedBy side ++ (e.received? side).toList := by
  cases he : e.received? side <;> simp [receivedBy, he]

@[simp] theorem hasLeft_snoc :
    hasLeft ⟨d, t.record ++ [e]⟩ side = (t.hasLeft side || e.leaves side) := by
  simp [hasLeft]

@[simp] theorem hasDropped_snoc :
    hasDropped ⟨d, t.record ++ [e]⟩ side = (t.hasDropped side || e.drops side) := by
  simp [hasDropped]

end Views

/-- The pair holds what its record says of `side`: whether it still sends or is held at all, and,
as long as it is held, the messages that got through to it and have not come in. -/
structure Faithful (t : Traffic) (side : Side) : Prop where
  dropped : (t.duplex.get side).dropped = t.hasDropped side
  sending : (t.duplex.get side).sending = !t.hasLeft side
  waiting : (t.duplex.get side).dropped = false →
    t.sentBy side.other = t.receivedBy side ++ (t.duplex.get side).inbox
  ordered : t.receivedBy side <+: t.sentBy side.other

theorem faithful_fresh (side : Side) : fresh.Faithful side := by
  cases side <;> exact ⟨rfl, rfl, fun _ => rfl, List.prefix_refl _⟩

/-! ### What one deed changes -/

/-- Everything a deed on `p` can come to. -/
inductive Change (t : Traffic) (p : Side) : Traffic → Prop
  | nothing : Change t p t
  | idle (e : StreamEvent) (idle : e.Idle) : Change t p ⟨t.duplex, t.record ++ [e]⟩
  | sent (m : Message) (held : (t.duplex.get p.other).dropped = false) :
      Change t p ⟨t.duplex.set p.other
          { t.duplex.get p.other with inbox := (t.duplex.get p.other).inbox ++ [m] },
        t.record ++ [⟨p, .send m, .sent (.ok ())⟩]⟩
  | received (m : Message) (rest : List Message) (held : (t.duplex.get p).dropped = false)
      (found : (t.duplex.get p).inbox = m :: rest) :
      Change t p ⟨t.duplex.set p { t.duplex.get p with inbox := rest },
        t.record ++ [⟨p, .receive, .received (.message m)⟩]⟩
  | closed : Change t p ⟨t.duplex.close p, t.record ++ [⟨p, .close, .done⟩]⟩
  | dropped : Change t p ⟨t.duplex.drop p, t.record ++ [⟨p, .drop, .done⟩]⟩

theorem change_perform (t : Traffic) (p : Side) (deed : StreamDeed) :
    t.Change p (t.perform p deed) := by
  cases held : (t.duplex.get p).dropped with
  | true =>
    have he : t.perform p deed = t := by simp [perform, Duplex.perform, held]
    rw [he]
    exact .nothing
  | false =>
    cases deed with
    | send m =>
      by_cases sending : (t.duplex.get p).sending = true
      · by_cases gone : (t.duplex.get p.other).dropped = true
        · have he : t.perform p (.send m) =
              ⟨t.duplex, t.record ++ [⟨p, .send m, .sent (.error .peerGone)⟩]⟩ := by
            simp [perform, Duplex.perform, Duplex.send, held, sending, gone]
          exact he ▸ .idle _ fun s => ⟨rfl, rfl, rfl, rfl⟩
        · have he := Change.sent (t := t) m (eq_false_of_ne_true gone)
          simpa [perform, Duplex.perform, Duplex.send, held, sending, gone] using he
      · have he : t.perform p (.send m) =
            ⟨t.duplex, t.record ++ [⟨p, .send m, .sent (.error .closed)⟩]⟩ := by
          simp [perform, Duplex.perform, Duplex.send, held, sending]
        exact he ▸ .idle _ fun s => ⟨rfl, rfl, rfl, rfl⟩
    | ping =>
      have he : t.perform p .ping = ⟨t.duplex, t.record ++ [⟨p, .ping, .done⟩]⟩ := by
        simp [perform, Duplex.perform, Duplex.ping, held]
      exact he ▸ .idle _ fun s => ⟨rfl, rfl, rfl, rfl⟩
    | receive =>
      cases found : (t.duplex.get p).inbox with
      | cons m rest =>
        have he := Change.received (t := t) m rest held found
        simpa [perform, Duplex.perform, Duplex.receive, held, found] using he
      | nil =>
        have he : t.perform p .receive = ⟨t.duplex, t.record ++ [⟨p, .receive, .received
            (if (t.duplex.get p.other).sending then .pending else .ended)⟩]⟩ := by
          simp [perform, Duplex.perform, Duplex.receive, held, found]
        rw [he]
        split <;> exact .idle _ fun s => ⟨rfl, rfl, rfl, rfl⟩
    | close => simpa [perform, Duplex.perform, held] using Change.closed (t := t) (p := p)
    | drop => simpa [perform, Duplex.perform, held] using Change.dropped (t := t) (p := p)

theorem Faithful.change {t t' : Traffic} {p : Side} (change : t.Change p t')
    (faithful : ∀ s, t.Faithful s) (s : Side) : t'.Faithful s := by
  obtain ⟨dropped, sending, waiting, ordered⟩ := faithful s
  cases change with
  | nothing => exact faithful s
  | idle e idle =>
    obtain ⟨-, received, leaves, drops⟩ := idle s
    have sent := (idle s.other).1
    constructor <;> simpa [sent, received, leaves, drops]
  | sent m held =>
    obtain rfl | rfl := s.eq_or_eq_other p
    · constructor <;> simpa [sent?, received?, leaves, drops]
    · rw [Side.other_other] at waiting ordered
      refine ⟨by simpa [drops], by simpa [leaves], fun _ => ?_, ?_⟩
      · simp [sent?, received?, waiting held]
      · simpa [sent?, received?] using ordered.trans (List.prefix_append _ [m])
  | received m rest held found =>
    obtain rfl | rfl := s.eq_or_eq_other p
    · have all := waiting held
      rw [found] at all
      refine ⟨by simpa [drops], by simpa [leaves], fun _ => ?_, ?_⟩ <;>
        simp [sent?, received?, all]
    · rw [Side.other_other] at waiting ordered
      constructor <;> simpa [sent?, received?, leaves, drops]
  | closed =>
    obtain rfl | rfl := s.eq_or_eq_other p
    · constructor <;> simp_all [Duplex.close, sent?, received?, leaves, drops]
    · rw [Side.other_other] at waiting ordered
      constructor <;> simpa [Duplex.close, sent?, received?, leaves, drops]
  | dropped =>
    obtain rfl | rfl := s.eq_or_eq_other p
    · constructor <;> simp_all [Duplex.drop, sent?, received?, leaves, drops]
    · rw [Side.other_other] at waiting ordered
      constructor <;> simpa [Duplex.drop, sent?, received?, leaves, drops]

theorem Faithful.run {t : Traffic} (faithful : ∀ s, t.Faithful s)
    (deeds : List (Side × StreamDeed)) (s : Side) : (t.run deeds).Faithful s := by
  induction deeds generalizing t with
  | nil => exact faithful s
  | cons deed rest ih => exact ih fun s => .change (change_perform t deed.1 deed.2) faithful s

/-! ### What each deed is answered -/

section Answers

variable {t : Traffic} {side : Side}

theorem Faithful.send_ok_iff (faithful : ∀ s, t.Faithful s) (m : Message) :
    (t.duplex.send side m).2 = .ok () ↔
      t.hasLeft side = false ∧ t.hasDropped side.other = false := by
  rw [← (faithful side.other).dropped]
  have sending := (faithful side).sending
  cases left : t.hasLeft side <;> cases gone : (t.duplex.get side.other).dropped <;>
    simp [Duplex.send, sending, left, gone]

theorem Faithful.received_all_iff (faithful : t.Faithful side)
    (held : (t.duplex.get side).dropped = false) :
    t.receivedBy side = t.sentBy side.other ↔ (t.duplex.get side).inbox = [] := by
  rw [faithful.waiting held]
  simp

theorem Faithful.receive_eq_message_iff (faithful : t.Faithful side)
    (held : (t.duplex.get side).dropped = false) (m : Message) :
    (t.duplex.receive side).2 = .message m ↔
      t.receivedBy side ++ [m] <+: t.sentBy side.other := by
  rw [faithful.waiting held, List.prefix_append_right_inj]
  cases found : (t.duplex.get side).inbox with
  | nil =>
    simp only [Duplex.receive, found, List.prefix_nil, List.cons_ne_self, iff_false]
    split <;> simp
  | cons n rest => simp [Duplex.receive, found, eq_comm]

theorem Faithful.receive_eq_ended_iff (faithful : ∀ s, t.Faithful s)
    (held : (t.duplex.get side).dropped = false) :
    (t.duplex.receive side).2 = .ended ↔
      t.hasLeft side.other = true ∧ t.receivedBy side = t.sentBy side.other := by
  rw [(faithful side).received_all_iff held]
  have sending := (faithful side.other).sending
  cases found : (t.duplex.get side).inbox <;> cases left : t.hasLeft side.other <;>
    simp [Duplex.receive, found, sending, left]

theorem Faithful.receive_eq_pending_iff (faithful : ∀ s, t.Faithful s)
    (held : (t.duplex.get side).dropped = false) :
    (t.duplex.receive side).2 = .pending ↔
      t.hasLeft side.other = false ∧ t.receivedBy side = t.sentBy side.other := by
  rw [(faithful side).received_all_iff held]
  have sending := (faithful side.other).sending
  cases found : (t.duplex.get side).inbox <;> cases left : t.hasLeft side.other <;>
    simp [Duplex.receive, found, sending, left]

end Answers

theorem hasLeft_of_hasDropped {t : Traffic} {side : Side} (dropped : t.hasDropped side = true) :
    t.hasLeft side = true := by
  obtain ⟨e, he, drops⟩ := List.any_eq_true.mp dropped
  refine List.any_eq_true.mpr ⟨e, he, ?_⟩
  obtain ⟨s, deed, answer⟩ := e
  cases deed <;> simp_all [StreamEvent.drops, StreamEvent.leaves]

/-- In every order of deeds on the two sides, what came in on a side is a first part of what the
other side got through, and the next answers are settled by the record: a message is taken exactly
if its side has not left and the other has not been dropped; a held side receives the first message
still missing, the end once the other side has left and nothing is missing, and is told to wait
while the other side stays and nothing is missing. A ping moves nothing, and a side that closes
leaves the other one's sending as it was. -/
theorem channels_lossless (deeds : List (Side × StreamDeed)) (side : Side) :
    let t := fresh.run deeds
    let answer := fun s deed => (t.duplex.perform s deed).2
    t.receivedBy side <+: t.sentBy side.other ∧
    (∀ deed, answer side deed = none ↔ t.hasDropped side = true) ∧
    (∀ m, answer side (.send m) = some (.sent (.ok ())) ↔
      t.hasLeft side = false ∧ t.hasDropped side.other = false) ∧
    (∀ m, answer side .receive = some (.received (.message m)) ↔
      t.hasDropped side = false ∧ t.receivedBy side ++ [m] <+: t.sentBy side.other) ∧
    (answer side .receive = some (.received .ended) ↔ t.hasDropped side = false ∧
      t.hasLeft side.other = true ∧ t.receivedBy side = t.sentBy side.other) ∧
    (answer side .receive = some (.received .pending) ↔ t.hasDropped side = false ∧
      t.hasLeft side.other = false ∧ t.receivedBy side = t.sentBy side.other) ∧
    (t.perform side .ping).duplex = t.duplex ∧
    ∀ m, ((t.duplex.close side).perform side.other (.send m)).2 = answer side.other (.send m) := by
  intro t answer
  have faithful : ∀ s, t.Faithful s := Faithful.run faithful_fresh deeds
  have dropped : (t.duplex.get side).dropped = t.hasDropped side := (faithful side).dropped
  refine ⟨(faithful side).ordered, fun deed => ?gone, fun m => ?sends, fun m => ?receives, ?ends,
    ?waits, ?pings, fun m => ?undisturbed⟩
  case gone =>
    simp only [answer, Duplex.perform, dropped]
    cases t.hasDropped side <;> cases deed <;> simp
  case sends =>
    simp only [answer, Duplex.perform, dropped]
    rw [← Faithful.send_ok_iff faithful m]
    cases gone : t.hasDropped side with
    | false => simp
    | true =>
      have left := (faithful side).sending.trans (congrArg _ (hasLeft_of_hasDropped gone))
      simp [Duplex.send, left]
  case receives =>
    simp only [answer, Duplex.perform, dropped]
    cases held : t.hasDropped side with
    | false => simp [← (faithful side).receive_eq_message_iff (dropped.trans held) m]
    | true => simp
  case ends =>
    simp only [answer, Duplex.perform, dropped]
    cases held : t.hasDropped side with
    | false => simp [← Faithful.receive_eq_ended_iff faithful (dropped.trans held)]
    | true => simp
  case waits =>
    simp only [answer, Duplex.perform, dropped]
    cases held : t.hasDropped side with
    | false => simp [← Faithful.receive_eq_pending_iff faithful (dropped.trans held)]
    | true => simp
  case pings =>
    simp only [perform, Duplex.perform, Duplex.ping, dropped]
    cases t.hasDropped side <;> rfl
  case undisturbed =>
    simp only [answer, Duplex.perform, Duplex.close, Duplex.send, Side.other_other,
      Duplex.get_set_self, Duplex.get_set_other]
    split
    · rfl
    · split
      · rfl
      · split <;> rfl

/-- A side that has closed goes on receiving until the other one has left as well. -/
example (m : Message) :
    let t := fresh.run [(.left, .close), (.right, .send m), (.right, .drop)]
    (t.duplex.perform .left .receive).2 = some (.received (.message m)) ∧
      ((t.perform .left .receive).duplex.perform .left .receive).2 = some (.received .ended) := by
  exact ⟨rfl, rfl⟩

end Traffic
end WampClient
