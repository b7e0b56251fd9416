import WampClient.Proofs.Client.Streams
import WampClient.Proofs.Id.Sequence

/-! Ids come again once all of them were drawn. A client that has published often enough calls
under the id of an earlier call, and nothing else about it has changed in the meantime. -/
namespace WampClient

/-- A message that settles no invocation, and that gets out, changes the wire alone. -/
theorem Session.sendOrTerminate_of_out {s : Session} {m : Message} {wire : Wire}
    (plain : m.settles? = none) (out : s.wire.send (.message m) = (wire, none)) :
    s.sendOrTerminate m = ({ s with wire }, .ok ()) := by
  simp [sendOrTerminate, plain, transmit, out]

namespace Client

/-- Publishes something without asking for an acknowledgement. -/
def publishes (number : Nat) : List Move :=
  [.act number (.onSession (.publish "a" Payload.empty ⟨false, none, [], []⟩)), .serve]

/-- Publishes this often, under one number after the other. -/
def publishesOn (number : Nat) : Nat → List Move
  | 0 => []
  | n + 1 => publishes number ++ publishesOn (number + 1) n

/-- Calls something, and keeps the call under a name. -/
def calls (number : Nat) (name : String) : List Move :=
  [.act number (.onSession (.call "a" Payload.empty ⟨false, none⟩ (some name))), .serve]

/-- A client in an established session over a stream that works. Its numbers from this one on are
free, and its session has no commands to take up. -/
structure Idle (number : Nat) (c : Client) : Prop where
  live : c.session.phase = .established
  held : c.held = true
  served : c.commands = []
  opened : c.session.wire.closed = false
  fate : ∀ n, c.session.wire.fate n = none
  free : ∀ task ∈ c.tasks, task.number < number

variable {c : Client} {number : Nat}

theorem Idle.send (idle : Idle number c) (m : Message) :
    c.session.wire.send (.message m) = ({ c.session.wire with
      tried := c.session.wire.tried + 1, sent := c.session.wire.sent ++ [.message m] }, none) := by
  simp [Wire.send, idle.opened, idle.fate]

/-- The one command that an operation begins with, and what it waits for, under its number. -/
theorem Idle.begins (idle : Idle number c) {a : SessionAction} {command : Command}
    {waiting : Waiting} {boxes : Nat}
    (begins : (c.onSession number a).1 = { c with
      ids := c.ids.draw.2
      nextBox := c.nextBox + boxes
      commands := c.commands ++ [command]
      tasks := c.tasks ++ [⟨number, true, waiting⟩] }) :
    c.run [.act number (.onSession a), .serve] = { c with
      ids := c.ids.draw.2
      nextBox := c.nextBox + boxes
      commands := []
      tasks := c.tasks ++ [⟨number, true, waiting⟩]
      session := c.session.step (.command command) } := by
  have free : (c.tasks.any fun t => t.number == number) = false :=
    List.any_eq_false.mpr fun task there => by simpa using Nat.ne_of_lt (idle.free task there)
  have acted : c.move (.act number (.onSession a)) = (c.onSession number a).1 := by
    rw [move, free, Client.act, idle.held]
    rfl
  rw [run, List.foldl_cons, acted, begins, idle.served]
  rfl

theorem Idle.publishes (idle : Idle number c) :
    let d := c.run (publishes number)
    Idle (number + 1) d ∧ d.ids = c.ids.draw.2 ∧ d.session.router = c.session.router ∧
      d.session.anomalies = c.session.anomalies ∧ d.tickets = c.tickets := by
  let m : Message := .publish c.ids.upcoming [] ⟨"a"⟩ Payload.empty
  let wire : Wire := { c.session.wire with
    tried := c.session.wire.tried + 1, sent := c.session.wire.sent ++ [.message m] }
  have begins : (c.onSession number (.publish "a" Payload.empty ⟨false, none, [], []⟩)).1 = { c with
      ids := c.ids.draw.2
      nextBox := c.nextBox + 1
      commands := c.commands ++ [.send m (some c.nextBox)]
      tasks := c.tasks ++
        [⟨number, true, .sent c.nextBox .publish "a" none (.published none)⟩] } := by
    change c.publish number ⟨"a"⟩ Payload.empty ⟨false, none, [], []⟩ = _
    rw [publish, whenEstablished, if_pos idle.live]
    rfl
  have stepped : c.session.step (.command (.send m (some c.nextBox))) =
      ({ c.session with wire }).post c.nextBox (.sent (.ok ())) := by
    have opened : ¬ c.session.phase = .closed := by simp [idle.live]
    rw [Session.step, if_neg opened]
    simp only [Session.obey, if_pos (Or.inl idle.live),
      Session.sendOrTerminate_of_out rfl (idle.send m)]
    rfl
  rw [Client.publishes, idle.begins begins, stepped]
  refine ⟨⟨?_, idle.held, rfl, ?_, ?_, ?_⟩, rfl, Session.post_router _ _ _, ?_, rfl⟩
  · exact (Session.post_phase _ _ _).trans idle.live
  · rw [Session.post_eq]
    exact idle.opened
  · rw [Session.post_eq]
    exact idle.fate
  · intro task there
    rcases List.mem_append.mp there with old | new
    · exact Nat.lt_succ_of_lt (idle.free task old)
    · rw [List.mem_singleton.mp new]
      exact Nat.lt_succ_self _
  · rw [Session.post_eq]

theorem Idle.publishesOn (idle : Idle number c) (n : Nat) :
    let d := c.run (publishesOn number n)
    Idle (number + n) d ∧ d.ids = c.ids.after n ∧ d.session.router = c.session.router ∧
      d.session.anomalies = c.session.anomalies ∧ d.tickets = c.tickets := by
  induction n generalizing c number with
  | zero => exact ⟨idle, rfl, rfl, rfl, rfl⟩
  | succ n ih =>
    obtain ⟨idle', ids, router, anomalies, tickets⟩ := idle.publishes
    obtain ⟨idle'', ids', router', anomalies', tickets'⟩ := ih idle'
    rw [Client.publishesOn, run_append]
    refine ⟨?_, ?_, router'.trans router, anomalies'.trans anomalies, tickets'.trans tickets⟩
    · rw [Nat.add_comm n 1, ← Nat.add_assoc]
      exact idle''
    · rw [ids', ids]
      rfl

/-- A call is waited for under the id that comes next. -/
theorem Idle.calls (idle : Idle number c) (name : String) :
    let d := c.run (calls number name)
    d.session.phase = .established ∧ d.session.anomalies = c.session.anomalies ∧
      d.tickets = c.tickets ∧
        d.session.router =
          (c.session.router.add (callKeys c.ids.upcoming) (.call (c.nextBox + 1))).1 := by
  let m : Message := .call c.ids.upcoming [] ⟨"a"⟩ Payload.empty
  have begins : (c.onSession number (.call "a" Payload.empty ⟨false, none⟩ (some name))).1 =
    { c with
      ids := c.ids.draw.2
      nextBox := c.nextBox + 2
      commands := c.commands ++ [.request m (callKeys c.ids.upcoming) (.call (c.nextBox + 1))
        (some c.nextBox)]
      tasks := c.tasks ++ [⟨number, true,
        .call c.ids.upcoming ⟨"a"⟩ c.nextBox (c.nextBox + 1) (some name)⟩] } := by
    change c.call number ⟨"a"⟩ Payload.empty ⟨false, none⟩ (some name) = _
    rw [call, whenEstablished, if_pos idle.live]
    rfl
  have opened : ¬ c.session.phase = .closed := by simp [idle.live]
  have out : ({ c.session with router := (c.session.router.add (callKeys c.ids.upcoming)
      (.call (c.nextBox + 1))).1 } : Session).wire.send (.message m) = _ := idle.send m
  rw [Client.calls, idle.begins begins, Session.step, if_neg opened]
  simp only [Session.obey_request idle.live, Session.sendOrTerminate_of_out rfl out]
  refine ⟨(Session.answer_phase _ _ _).trans idle.live, ?_, trivial, Session.answer_router _ _ _⟩
  rw [Session.answer_eq]

end Client

end WampClient
