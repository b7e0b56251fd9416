import WampClient.Frame
import WampClient.Proofs.Client.Joining
import WampClient.Session.Basic

/-! What the router is told when an attempt to join its realm is given up. Where the client finds
fault with what came, or with its coming too late, it says ABORT, once and as its last word. It says
nothing where the router aborts, where the stream ends, and where what comes from the stream is no
item at all. -/
namespace WampClient

def StreamItem.isAbort : StreamItem → Bool
  | .message (.abort ..) => true
  | _ => false

/-- While a realm is being joined the router has no business saying this. -/
def Message.isStray : Message → Bool
  | .welcome .. => false
  | .abort .. => false
  | .challenge .. => false
  | _ => true

namespace Handshake

/-- With this there is nobody to complain to, or nothing to complain about. -/
inductive Breaks : Move → Prop where
  | abort (details : Dictionary) (reason : Uri) (payload : Payload) :
      Breaks (.arrive (.item (.message (.abort details reason payload))))
  | ended : Breaks (.arrive .ended)
  | failed (description : String) : Breaks (.arrive (.failed description))

/-- What the client finds fault with, given the authenticator as it is by then, and the words in
which it does so. -/
inductive Complains : Option Authenticator → Move → Complaint → String → Prop where
  | unanswerable (method : String) (extra : Dictionary) :
      Complains none (.arrive (.item (.message (.challenge method extra))))
        .authenticationFailed Cause.noAuthenticator.message
  | challenge {a : Authenticator} {method description : String} {extra : Dictionary}
      (rejected : a.answer method extra = .error description) :
      Complains (some a) (.arrive (.item (.message (.challenge method extra))))
        .authenticationFailed (Cause.authenticationFailed description).message
  | welcome {a : Authenticator} {id : Id} {details : Dictionary} {description : String}
      (rejected : a.verifyWelcome id details = .error description) :
      Complains (some a) (.arrive (.item (.message (.welcome id details))))
        .authenticationFailed (Cause.authenticationFailed description).message
  | stray (a : Option Authenticator) {m : Message} (stray : m.isStray = true) :
      Complains a (.arrive (.item (.message m))) .protocolViolation (unexpected m)
  | late (a : Option Authenticator) (time : Nat) :
      Complains a (.elapse time) .protocolViolation "handshake timed out"

/-- The last word of an attempt that is given up with this: one ABORT, or none. -/
inductive LastWord (a : Option Authenticator) (m : Move) : List StreamItem → Prop where
  | none (breaks : Breaks m) : LastWord a m []
  | abort {complaint : Complaint} {text : String} (complains : Complains a m complaint text) :
      LastWord a m [.message (Message.abortWith complaint.uri text)]

variable {config : Config} {deadline : Nat} {sent out : List StreamItem} {s t : Standing}
  {h h' : Handshake} {m : Move} {f : Failure} {moves rest : List Move} {verdict : Verdict}

/-! ### The move that decides -/

theorem Stands.sent_refuse (stands : Stands config deadline sent s h) (cause : Cause)
    (source : Message) :
    (h.refuse cause source).1.wire.sent =
      sent ++ [.message (Message.abortWith Complaint.authenticationFailed.uri cause.message)] :=
  (stands.transmitAnyway _).sent

theorem Stands.lastWord_receive (stands : Stands config deadline sent s h) {m : Message}
    (stops : s.Stops (.arrive (.item (.message m)))) (failed : h.receive m = (h', .failed f)) :
    ∃ said, LastWord s.authenticator (.arrive (.item (.message m))) said ∧
      h'.wire.sent = sent ++ said := by
  have known := stands.authenticator
  have left : h' = (h.receive m).1 := by rw [failed]
  obtain ⟨a, time⟩ := s
  cases m with
  | welcome id details =>
    cases a with
    | none => simp [receive, receiveWelcome, known] at failed
    | some x =>
      cases verified : x.verifyWelcome id details with
      | ok u => simp [receive, receiveWelcome, known, verified] at failed
      | error description =>
        have refused : h.receive (.welcome id details) =
            h.refuse (.authenticationFailed description) (.welcome id details) := by
          simp only [receive, receiveWelcome, known, verified]
        exact ⟨_, .abort (.welcome verified), by rw [left, refused, stands.sent_refuse]⟩
  | challenge method extra =>
    cases a with
    | none =>
      have refused : h.receive (.challenge method extra) =
          h.refuse .noAuthenticator (.challenge method extra) := by
        simp only [receive, receiveChallenge, known]
      exact ⟨_, .abort (.unanswerable method extra), by rw [left, refused, stands.sent_refuse]⟩
    | some x =>
      cases answered : x.answer method extra with
      | ok answer => exact absurd (.challenge time answered) (stops _ _)
      | error description =>
        have refused : h.receive (.challenge method extra) =
            h.refuse (.authenticationFailed description) (.challenge method extra) := by
          simp only [receive, receiveChallenge, known, answered]
        exact ⟨_, .abort (.challenge answered), by rw [left, refused, stands.sent_refuse]⟩
  | abort details reason payload =>
    exact ⟨[], .none (.abort details reason payload), by
      rw [List.append_nil, left, ← stands.sent]
      rfl⟩
  | _ => exact ⟨_, .abort (.stray a rfl), left ▸ (stands.transmitAnyway _).sent⟩

/-- What an attempt is given up with decides what is said last. -/
theorem Stands.lastWord (stands : Stands config deadline sent s h) (stops : s.Stops m)
    (failed : h.take m = (h', .failed f)) :
    ∃ said, LastWord s.authenticator m said ∧ h'.wire.sent = sent ++ said := by
  have left : h' = (h.take m).1 := by rw [failed]
  have silent : h'.wire.sent = h.wire.sent → h'.wire.sent = sent ++ [] := by
    intro same
    rw [same, stands.sent, List.append_nil]
  cases m with
  | serve => exact absurd (.serve _) (stops _ _)
  | poll number => exact absurd (.poll _ number) (stops _ _)
  | act number action => exact absurd (.act _ number action) (stops _ _)
  | elapse time =>
    have inTime : ¬ time < s.left := fun inTime => stops _ _ (.elapse s.authenticator inTime)
    have still := stands.left
    have reached : h.deadline ≤ h.now + time := by rw [stands.deadline]; omega
    have later : Stands config deadline sent ⟨s.authenticator, 0⟩ { h with now := h.now + time } :=
      { stands with left := by dsimp only; omega }
    have expired : h.take (.elapse time) = { h with now := h.now + time }.expire := if_pos reached
    exact ⟨_, .abort (.late _ time), left ▸ expired ▸ (later.transmitAnyway _).sent⟩
  | arrive came =>
    cases came with
    | failed description => exact ⟨[], .none (.failed description), silent (left ▸ rfl)⟩
    | ended => exact ⟨[], .none .ended, silent (left ▸ rfl)⟩
    | item i =>
      cases i with
      | ping data => exact absurd (.ping _ data) (stops _ _)
      | message m => exact stands.lastWord_receive stops failed

/-! ### Runs -/

theorem Standing.Goes.not_abort (goes : s.Goes m out t) : ∀ i ∈ out, i.isAbort = false := by
  cases goes <;> simp [StreamItem.isAbort]

theorem Standing.Exchange.not_abort {before : List Move} (exchange : s.Exchange before out t) :
    ∀ i ∈ out, i.isAbort = false := by
  induction exchange with
  | done s => simp
  | next goes later ih =>
    intro i there
    exact (List.mem_append.mp there).elim (goes.not_abort i) (ih i)

/-- Whatever an attempt is decided with, it went on until then. -/
theorem Stands.attend_decided (stands : Stands config deadline sent s h)
    (decided : h.attend moves = ((h', verdict), rest)) (done : verdict ≠ .waiting) :
    ∃ before last replies t h₁, moves = before ++ last :: rest ∧ s.Exchange before replies t ∧
      t.Stops last ∧ Stands config deadline (sent ++ replies) t h₁ ∧
        h₁.take last = (h', verdict) := by
  induction moves generalizing s h sent with
  | nil =>
    have waits : Verdict.waiting = verdict := congrArg (fun x => x.1.2) decided
    exact absurd waits.symm done
  | cons m more ih =>
    by_cases stops : s.Stops m
    · obtain ⟨h₁, came, taken, settles⟩ := stands.stops stops
      obtain ⟨said, -, decides⟩ := settles.decides
      have ends : h.attend (m :: more) = ((h₁, came), more) := by
        rw [Handshake.attend, taken]
        cases came with
        | waiting => exact absurd rfl decides.decided
        | joined id details => rfl
        | failed f => rfl
      obtain ⟨⟨rfl, rfl⟩, rfl⟩ : (h₁ = h' ∧ came = verdict) ∧ more = rest := by
        simpa [ends] using decided
      refine ⟨[], m, [], s, h, rfl, .done s, stops, ?_, taken⟩
      rwa [List.append_nil]
    · obtain ⟨said, t, goes⟩ : ∃ said t, s.Goes m said t := by simpa [Standing.Stops] using stops
      obtain ⟨h₁, taken, there⟩ := stands.goes goes
      have onward : h.attend (m :: more) = h₁.attend more := by rw [Handshake.attend, taken]
      obtain ⟨before, last, replies, u, h₂, split, exchange, ends, stands', took⟩ :=
        ih there (onward ▸ decided)
      refine ⟨m :: before, last, said ++ replies, u, h₂, congrArg (m :: ·) split,
        .next goes exchange, ends, ?_, took⟩
      rwa [← List.append_assoc]

/-- An attempt to join over a wire that works is given up with one ABORT, which is its last word, if
there is something to complain about: an answer that cannot be given, a WELCOME that is not
accepted, a message that was not expected, the time. If there is not, it is given up without an
ABORT: then the router has said one, or the stream has ended, or has brought something that is no
item. -/
theorem failure_says_abort (config : Config) {wire : Wire} (works : wire.Works) (now : Nat)
    (moves : List Move) {h : Handshake} {f : Failure} {rest : List Move}
    (failed : join config wire now moves = ((h, .failed f), rest)) :
    ∃ before last replies s said, moves = before ++ last :: rest ∧
      Standing.Exchange ⟨config.authenticator, config.handshakeTimeout⟩ before replies s ∧
      s.Stops last ∧ LastWord s.authenticator last said ∧
      (∀ i ∈ config.hello :: replies, i.isAbort = false) ∧
      h.wire.sent = wire.sent ++ config.hello :: replies ++ said ∧ h.wire.closed = true := by
  obtain ⟨h₀, started, stands⟩ := stands_start config works now
  have decided : h₀.attend moves = ((h, .failed f), rest) := by
    rw [← failed, join, started]
  obtain ⟨before, last, replies, s, h₁, split, exchange, stops, stands', took⟩ :=
    stands.attend_decided decided (by simp)
  obtain ⟨said, word, sent⟩ := stands'.lastWord stops took
  refine ⟨before, last, replies, s, said, split, exchange, stops, word, ?_, ?_, ?_⟩
  · intro i there
    rcases List.mem_cons.mp there with rfl | there
    · rfl
    · exact exchange.not_abort i there
  · rw [sent, List.append_assoc wire.sent, List.singleton_append]
  · obtain ⟨h₂, verdict, taken, settles⟩ := stands'.stops stops
    obtain ⟨rfl, rfl⟩ := Prod.mk.inj (taken.symm.trans took)
    exact settles.closed f rfl

/-- A challenge after a ping, where there is nobody to answer it. -/
theorem failure_says_abort_challenge :
    let config := { Config.default with realm := ⟨"realm1"⟩ }
    let wire := Wire.fresh fun _ => none
    wire.Works ∧ ∃ h f,
      join config wire 0 [.arrive (.item (.ping [7])),
        .arrive (.item (.message (.challenge "ticket" [])))] = ((h, .failed f), []) ∧
      ∃ earlier, ∃ complaint : Complaint, ∃ text,
        h.wire.sent = earlier ++ [.message (Message.abortWith complaint.uri text)] ∧
          ∀ i ∈ earlier, i.isAbort = false := by
  intro config wire
  have works : wire.Works := ⟨rfl, fun _ => rfl⟩
  refine ⟨works, _, _, rfl, ?_⟩
  obtain ⟨before, last, replies, s, said, split, -, -, word, plain, sent, -⟩ :=
    failure_says_abort config works 0 [.arrive (.item (.ping [7])),
      .arrive (.item (.message (.challenge "ticket" [])))] rfl
  obtain rfl : Move.arrive (.item (.message (.challenge "ticket" []))) = last := by
    simpa using congrArg List.getLast? split
  cases word with
  | none breaks => cases breaks
  | abort complains => exact ⟨_, _, _, sent, plain⟩

/-- A frame that holds no message, which is the end of either: the attempt to join is given up
without a word, and the session that was joined says ABORT. -/
theorem malformed_frame_says_nothing :
    let config := { Config.default with realm := ⟨"realm1"⟩ }
    let wire := Wire.fresh fun _ => none
    let fault : InvalidMessage := .badField .welcome (.missing "session")
    Message.ofFrame .messagePack [0x91, 0x02] = .error (.invalid fault) ∧ wire.Works ∧
      (∃ h f, join config wire 0 [.arrive (.failed fault.message)] = ((h, .failed f), []) ∧
        h.wire.sent = [config.hello] ∧ ∀ i ∈ h.wire.sent, i.isAbort = false) ∧
      ((Session.established wire 0 5000).step (.arrival (.failed fault.message))).wire.sent =
        [.message (Message.abortWith Complaint.protocolViolation.uri fault.message)] := by
  intro config wire fault
  refine ⟨rfl, ⟨rfl, fun _ => rfl⟩, ⟨_, _, rfl, rfl, fun i there => ?_⟩, rfl⟩
  obtain rfl : i = config.hello := List.mem_singleton.mp there
  rfl

end Handshake

end WampClient
