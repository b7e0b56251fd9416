import WampClient.Proofs.Session.Closing

/-! Messages that nothing waits for do no harm. The session takes note of them, each once, and stays
as it is; only the caller behind an invocation has to be told that nobody takes it. -/
namespace WampClient

namespace Message

/-- Whether the message belongs to the handshake, which an established session has behind it. -/
def isOfHandshake : Message → Bool
  | .hello .. => true
  | .welcome .. => true
  | .challenge .. => true
  | .authenticate .. => true
  | _ => false

/-- Whether the peer makes an end of the session with the message. -/
def isParting : Message → Bool
  | .goodbye .. => true
  | .abort .. => true
  | _ => false

/-- What is noted of the message if nothing waits for it. -/
def remark (m : Message) : String := if m.isOfHandshake then Session.late else Session.unmatched

end Message

namespace Session

variable {s t : Session} {m : Message}

/-- Whether the session has no use for the message. -/
def Stray (s : Session) (m : Message) : Prop :=
  m.isOfHandshake = true ∨ ∀ x ∈ s.router.routes, x.takes (RouteKey.ofMessage m) = false

/-! ### What is noted -/

@[simp] theorem anomalies_post (s : Session) (box : Box) (p : Post) :
    (s.post box p).anomalies = s.anomalies := by
  rw [post_eq]

@[simp] theorem anomalies_eraseRoute (s : Session) (route : Handle) :
    (s.eraseRoute route).anomalies = s.anomalies := rfl

@[simp] theorem anomalies_terminate (s : Session) (f : Failure) :
    (s.terminate f).anomalies = s.anomalies := by
  by_cases live : s.phase = .closed
  · rw [terminate_closed live]
  · rw [terminate_eq live]

@[simp] theorem anomalies_retiring (s : Session) (m : Message) :
    (s.retiring m).anomalies = s.anomalies := by
  rcases retiring_cases s m with same | ⟨request, route, -, retired⟩
  · rw [same]
  · rw [retired, anomalies_eraseRoute]

@[simp] theorem anomalies_sendOrTerminate (s : Session) (m : Message) :
    (s.sendOrTerminate m).1.anomalies = s.anomalies := by
  have sent : ((s.retiring m).transmit (.message m)).1.anomalies = s.anomalies :=
    anomalies_retiring s m
  rcases sendOrTerminate_left s m with left | ⟨description, left⟩
  · rw [left, sent]
  · rw [left, anomalies_terminate, sent]

@[simp] theorem anomalies_changeRoutes (s : Session) (m : Message) (change : Option RouteChange) :
    (s.changeRoutes m change).1.anomalies = s.anomalies := by
  rcases change with _ | feed | route
  · rfl
  · simp only [changeRoutes]
    split <;> rfl
  · simp only [changeRoutes]
    split <;> rfl

@[simp] theorem anomalies_handOver (s : Session) (box : Option Box) (m : Message)
    (change : Option RouteChange) : (s.handOver box m change).anomalies = s.anomalies := by
  have changed := anomalies_changeRoutes s m change
  rw [handOver]
  cases box with
  | none => exact changed
  | some box =>
    dsimp only
    split
    · cases (s.changeRoutes m change).2 with
      | none => exact changed
      | some route => exact changed
    · rw [anomalies_post, changed]

@[simp] theorem anomalies_watch (s : Session) (request : Id) (cell : Cell) :
    (s.watch request cell).anomalies = s.anomalies := by
  rcases watch_eq s request cell with watched | ⟨previous, -, watched⟩ <;> rw [watched] <;> rfl

@[simp] theorem anomalies_errands (es : List Errand) (s : Session) :
    (es.foldl runErrand s).anomalies = s.anomalies := by
  induction es generalizing s with
  | nil => rfl
  | cons e rest ih =>
    rw [List.foldl_cons, ih]
    cases e with
    | handOver box reply change => exact anomalies_handOver s box reply change
    | watch request cell => exact anomalies_watch s request cell
    | turnAway request => exact anomalies_sendOrTerminate s _

@[simp] theorem anomalies_noteUnmatched (s : Session) (m : Message) :
    (s.noteUnmatched m).anomalies = s.anomalies ++ [⟨unmatched, m⟩] := by
  cases m with
  | invocation request registration details payload =>
    exact congrArg (· ++ _) (anomalies_sendOrTerminate s _)
  | _ => rfl

theorem anomalies_distribute (s : Session) (m : Message) :
    (s.distribute m).anomalies =
      if (s.distributed m).2.1 then s.anomalies else s.anomalies ++ [⟨unmatched, m⟩] := by
  have around : (s.handedAround m).anomalies = s.anomalies := rfl
  rw [distribute_eq]
  dsimp only
  split
  · rw [anomalies_errands, around]
  · rw [anomalies_noteUnmatched, anomalies_errands, around]

/-! ### Where a message goes -/

theorem receive_of_handshake (handshake : m.isOfHandshake = true) :
    s.receive m = s.report late m := by
  cases m with
  | hello realm details => rfl
  | welcome id details => rfl
  | challenge method extra => rfl
  | authenticate signature extra => rfl
  | _ => cases handshake

theorem receive_of_other (other : m.isOfHandshake = false) (stays : m.isParting = false) :
    s.receive m = s.distribute m := by
  cases m with
  | goodbye details reason => cases stays
  | abort details reason payload => cases stays
  | hello realm details => cases other
  | welcome id details => cases other
  | challenge method extra => cases other
  | authenticate signature extra => cases other
  | _ => rfl

theorem passes_of_stray (stray : s.Stray m) (other : m.isOfHandshake = false) :
    ∀ x ∈ s.router.routes, x.takes (RouteKey.ofMessage m) = false :=
  stray.resolve_left (by simp [other])

/-- A message is noted if the session has no use for it, and only then. -/
theorem anomalies_receive (sound : s.Sound) (stays : m.isParting = false) :
    (s.Stray m → (s.receive m).anomalies = s.anomalies ++ [⟨m.remark, m⟩]) ∧
      (¬ s.Stray m → (s.receive m).anomalies = s.anomalies) := by
  cases other : m.isOfHandshake with
  | true =>
    refine ⟨fun _ => ?_, fun used => absurd (Or.inl other) used⟩
    rw [receive_of_handshake other, Message.remark, other]
    rfl
  | false =>
    rw [receive_of_other other stays, anomalies_distribute, Message.remark, other]
    refine ⟨fun stray => ?_, fun used => ?_⟩
    · rw [distributed_of_passes sound (passes_of_stray stray other)]
      rfl
    · obtain ⟨x, there, takes⟩ : ∃ x ∈ s.router.routes, x.takes (RouteKey.ofMessage m) = true := by
        simpa [Stray, other] using used
      rw [matched_of_takes sound there takes]
      rfl

/-- What is no invocation leaves no other trace. -/
theorem receive_of_stray (sound : s.Sound) (stays : m.isParting = false) (stray : s.Stray m)
    (uncalled : ∀ request registration details payload,
      m ≠ .invocation request registration details payload) :
    s.receive m = s.report m.remark m := by
  cases other : m.isOfHandshake with
  | true => rw [receive_of_handshake other, Message.remark, other, if_pos rfl]
  | false =>
    rw [receive_of_other other stays, distribute_of_passes sound (passes_of_stray stray other),
      noteUnmatched_of_other uncalled, Message.remark, other, if_neg Bool.false_ne_true]

/-! ### Invocations -/

theorem retire_eq (s : Session) (request : Id) :
    s.retire request =
      { s with
        interrupts := Assoc.erase request s.interrupts
        router := (Assoc.get? request s.interrupts).elim s.router s.router.erase } := by
  rw [retire]
  cases known : Assoc.get? request s.interrupts with
  | some route => rfl
  | none =>
    have same : Assoc.erase request s.interrupts = s.interrupts :=
      List.filter_eq_self.mpr fun e there => by
        have other := Assoc.get?_eq_none_iff.mp known
        simpa using ne_of_mem_of_not_mem (List.mem_map_of_mem there) other
    rw [same]
    rfl

/-- What comes of an invocation that no route takes. Its caller is sent an ERROR, and with that the
client can no longer be asked to interrupt it; nothing else changes. If the ERROR does not get out,
the session ends with that, and nothing has been sent. -/
structure TurnsAway (s : Session) (request : Id) (m : Message) (t : Session) : Prop where
  out : ∀ wire, s.wire.send (.message (Message.rejection request)) = (wire, none) →
    wire.sent = s.wire.sent ++ [.message (Message.rejection request)] ∧
      t = { s with
        wire
        interrupts := Assoc.erase request s.interrupts
        router := (Assoc.get? request s.interrupts).elim s.router s.router.erase
        anomalies := s.anomalies ++ [⟨unmatched, m⟩] }
  lost : ∀ wire description,
    s.wire.send (.message (Message.rejection request)) = (wire, some description) →
      t.wire.sent = s.wire.sent ∧
        Concluded s (Failure.of (.sendFailed "ERROR" description)) t
  /-- The route that goes, if there is one, is that of an invocation's interrupts. -/
  own : ∀ x ∈ s.router.routes, Assoc.get? request s.interrupts = some x.handle →
    ∃ cell, x.handler = .interrupt cell

theorem Concluded.report {f : Failure} (concluded : Concluded s f t) (description : String)
    (m : Message) : Concluded s f (t.report description m) :=
  { concluded with final := terminate_closed concluded.phase }

theorem turnsAway_noteUnmatched (sound : s.Sound) (live : s.phase ≠ .closed) (request : Id)
    (registration : Id) (details : Dictionary) (payload : Payload) :
    let m := Message.invocation request registration details payload
    s.TurnsAway request m (s.noteUnmatched m) := by
  intro m
  have noted : s.noteUnmatched m =
      (s.sendOrTerminate (Message.rejection request)).1.report unmatched m := rfl
  have retired : s.retiring (Message.rejection request) = s.retire request := rfl
  refine ⟨fun wire out => ?_, fun wire description lost => ?_, fun x there known => ?_⟩
  · refine ⟨Wire.sent_of_out out, ?_⟩
    rw [noted, sendOrTerminate_eq_of_out out, retired, retire_eq]
    rfl
  · have ended := sendOrTerminate_eq_of_lost lost
    have concluded := (concluded_sendOrTerminate sound live ended).2.report unmatched m
    rw [noted, ended]
    exact ⟨(sent_terminate _ _).trans (Wire.sent_of_lost lost), concluded⟩
  · exact sound.interrupts _ (Assoc.mem_of_get? known) x there rfl

/-- Whatever a session that has not ended receives, apart from GOODBYE and ABORT, it takes note of
the message just if it has no use for it, that is if the message belongs to the handshake or no
route takes it; and then it does nothing else, except that it turns an invocation away. -/
theorem stray_only_noted (wire : Wire) (now closeTimeout : Nat) (inputs : List Input) (m : Message)
    (goes : ((established wire now closeTimeout).run inputs).Goes) (stays : m.isParting = false) :
    let s := (established wire now closeTimeout).run inputs
    let t := s.step (.arrival (.item (.message m)))
    (s.Stray m ↔ ∃ description, t.anomalies = s.anomalies ++ [⟨description, m⟩]) ∧
    (¬ s.Stray m → t.anomalies = s.anomalies) ∧
    (s.Stray m → (∀ request registration details payload,
        m ≠ .invocation request registration details payload) → t = s.report m.remark m) ∧
    (s.Stray m → ∀ request registration details payload,
      m = .invocation request registration details payload →
        s.TurnsAway request m t ∧ t.anomalies = s.anomalies ++ [⟨unmatched, m⟩]) := by
  intro s t
  have sound : s.Sound := (sound_established wire now closeTimeout).run inputs
  have live : s.phase ≠ .closed := goes.live
  have received : t = s.receive m := if_neg live
  obtain ⟨noted, quiet⟩ := anomalies_receive sound stays
  rw [received]
  refine ⟨⟨fun stray => ⟨m.remark, noted stray⟩, ?_⟩, quiet, receive_of_stray sound stays, ?_⟩
  · rintro ⟨description, more⟩
    by_contra used
    rw [quiet used] at more
    exact absurd more.symm (by simp)
  · rintro stray request registration details payload rfl
    have passes := passes_of_stray stray rfl
    refine ⟨?_, noted stray⟩
    rw [receive_of_other rfl rfl, distribute_of_passes sound passes]
    exact turnsAway_noteUnmatched sound live request registration details payload

/-- A registration has a route, and an invocation of it has come in. -/
def oneInvocation : List Input :=
  [.command (.request (.register Id.min [] ⟨"a"⟩) [RouteKey.ofReply .invocation Id.min]
      (.feed (.invocations 0)) none),
    .arrival (.item (.message (.invocation Id.min Id.min [] default)))]

/-- The peer invokes a registration that there is not, under the id of an invocation that the client
is busy with. -/
theorem stray_invocation_turned_away :
    let s := (established (Wire.fresh fun _ => none) 0 1000).run oneInvocation
    let m := Message.invocation Id.min ⟨2, by decide, by decide⟩ [] default
    let t := s.step (.arrival (.item (.message m)))
    s.Goes ∧ m.isParting = false ∧ s.Stray m ∧ s.interrupts = [(Id.min, 2)] ∧
      s.router.routes.map Route.handle = [1, 2] ∧ t.phase = .established ∧ t.interrupts = [] ∧
      t.router.routes.map Route.handle = [1] ∧ t.posts = s.posts ∧
      t.wire.sent = s.wire.sent ++ [.message (Message.rejection Id.min)] ∧
      t.anomalies = s.anomalies ++ [⟨unmatched, m⟩] := by
  intro s m t
  have goes : s.Goes := Or.inl (by decide)
  have stray : s.Stray m := Or.inr (by decide)
  obtain ⟨-, -, -, away⟩ := stray_only_noted (Wire.fresh fun _ => none) 0 1000 oneInvocation m goes
    rfl
  obtain ⟨turned, noted⟩ := away stray _ _ _ _ rfl
  obtain ⟨sent, same⟩ := turned.out (s.wire.send (.message (Message.rejection Id.min))).1 rfl
  refine ⟨goes, rfl, stray, rfl, rfl, ?_, ?_, ?_, ?_, ?_, noted⟩
  · exact (congrArg (fun u : Session => u.phase) same :)
  · exact congrArg interrupts same
  · exact congrArg (fun u : Session => u.router.routes.map Route.handle) same
  · exact (congrArg posts same :)
  · exact (congrArg (fun u : Session => u.wire.sent) same).trans sent

end Session

end WampClient
