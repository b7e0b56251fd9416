import WampClient.Client.Stage
import WampClient.Proofs.Failure.Taxonomy

/-! How an attempt to join a realm comes out. The router is answered for as long as it pings and
challenges within the time that there was at the start; the first thing other than that decides. -/
namespace WampClient

/-! ### What a failure says of what was attempted -/

namespace Failure

/-- The failure is one to join the realm. -/
structure OfJoin (f : Failure) (realm : String) : Prop where
  operation : f.context? "operation" = some Operation.join.name
  target : f.context? "target" = some realm

theorem ofJoin_during {f : Failure} {realm : String}
    (operation : (f.context? "operation").getD Operation.join.name = Operation.join.name)
    (target : (f.context? "target").getD realm = realm) : (f.during .join realm).OfJoin realm where
  operation := by
    rw [during, context?_orContext_of_ne _ (by decide), context?_orContext, operation]
  target := by
    rw [during, context?_orContext, context?_orContext_of_ne _ (by decide), target]

theorem ofJoin_ofAbort (realm : String) (details : Dictionary) (reason : Uri) (payload : Payload) :
    (ofAbort realm (.abort details reason payload)).OfJoin realm :=
  ofJoin_during rfl rfl

theorem kind_ofAbort (realm : String) (details : Dictionary) (reason : Uri) (payload : Payload) :
    (ofAbort realm (.abort details reason payload)).kind =
      if reason.text = "wamp.error.protocol_violation" then .network else .illegalOperation := by
  rw [ofAbort, kind_during]
  show (if _ then _ else _ : Cause).kind = _
  by_cases realmless : reason.text = "wamp.error.no_such_realm"
  · simp [realmless, Cause.kind]
  · by_cases violation : reason.text = "wamp.error.protocol_violation"
    · simp [violation, Cause.kind]
    · simp [realmless, violation, Cause.kind]

end Failure

/-! ### A wire that works -/

/-- Whatever is sent gets out. -/
structure Wire.Works (w : Wire) : Prop where
  opened : w.closed = false
  fates : ∀ n, w.fate n = none

theorem Wire.Works.send {w : Wire} (works : w.Works) (i : StreamItem) :
    w.send i = ({ w with tried := w.tried + 1, sent := w.sent ++ [i] }, none) := by
  simp [Wire.send, works.opened, works.fates]

/-- The HELLO that an attempt to join begins with. -/
def Config.hello (config : Config) : StreamItem :=
  .message (.hello config.realm config.introduction)

namespace Handshake

/-! ### What goes on, and what decides -/

/-- What an attempt to join goes by: the authenticator as it is by now, and the time that is left
until the deadline. -/
structure Standing where
  authenticator : Option Authenticator
  left : Nat

/-- What an attempt to join goes on with: a ping is sent back, a challenge that is accepted is
answered, and nothing else has an effect as long as there is time left. Only time and the work on
an answer use it up. -/
inductive Standing.Goes : Standing → Move → List StreamItem → Standing → Prop where
  | ping (s : Standing) (data : Bytes) : Goes s (.arrive (.item (.ping data))) [.ping data] s
  | challenge {a : Authenticator} (left : Nat) {method signature : String}
      {extra answer : Dictionary} (accepted : a.answer method extra = .ok (signature, answer)) :
      Goes ⟨some a, left⟩ (.arrive (.item (.message (.challenge method extra))))
        [.message (.authenticate signature answer)]
        ⟨some (a.afterwards method extra), left - a.delay method extra⟩
  | elapse (a : Option Authenticator) {left time : Nat} (inTime : time < left) :
      Goes ⟨a, left⟩ (.elapse time) [] ⟨a, left - time⟩
  | serve (s : Standing) : Goes s .serve [] s
  | poll (s : Standing) (number : Nat) : Goes s (.poll number) [] s
  | act (s : Standing) (number : Nat) (a : Action) : Goes s (.act number a) [] s

/-- What is sent, in order, while an attempt goes on. -/
inductive Standing.Exchange : Standing → List Move → List StreamItem → Standing → Prop where
  | done (s : Standing) : Exchange s [] [] s
  | next {s t u : Standing} {m : Move} {rest : List Move} {out more : List StreamItem}
      (goes : s.Goes m out t) (later : t.Exchange rest more u) :
      Exchange s (m :: rest) (out ++ more) u

/-- With this an attempt does not go on. -/
def Standing.Stops (s : Standing) (m : Move) : Prop := ∀ out t, ¬ s.Goes m out t

/-- A WELCOME that the authenticator, if there is one, accepts. -/
inductive Welcomes (a : Option Authenticator) (id : Id) (details : Dictionary) : Move → Prop where
  | welcome (accepted : ∀ x ∈ a, x.verifyWelcome id details = .ok ()) :
      Welcomes a id details (.arrive (.item (.message (.welcome id details))))

/-- What makes an attempt to join one that is not allowed: a challenge that nobody can answer, or
that is rejected, a WELCOME that is not accepted, an ABORT for any reason but a violation of the
protocol. -/
inductive Refuses : Option Authenticator → Move → Prop where
  | unanswerable (method : String) (extra : Dictionary) :
      Refuses none (.arrive (.item (.message (.challenge method extra))))
  | challenge {a : Authenticator} {method description : String} {extra : Dictionary}
      (rejected : a.answer method extra = .error description) :
      Refuses (some a) (.arrive (.item (.message (.challenge method extra))))
  | welcome {a : Authenticator} {id : Id} {details : Dictionary} {description : String}
      (rejected : a.verifyWelcome id details = .error description) :
      Refuses (some a) (.arrive (.item (.message (.welcome id details))))
  | abort (a : Option Authenticator) (details : Dictionary) {reason : Uri} (payload : Payload)
      (other : reason.text ≠ "wamp.error.protocol_violation") :
      Refuses a (.arrive (.item (.message (.abort details reason payload))))

/-- What comes of a move that decides an attempt to join the realm, and what is still said. -/
structure Decides (realm : String) (a : Option Authenticator) (m : Move) (verdict : Verdict)
    (said : List StreamItem) : Prop where
  decided : verdict ≠ .waiting
  joined : ∀ id details, verdict = .joined id details ↔ Welcomes a id details m
  named : ∀ f, verdict = .failed f → f.OfJoin realm
  illegal : ∀ f, verdict = .failed f → (f.kind = .illegalOperation ↔ Refuses a m)
  network : ∀ f, verdict = .failed f → (f.kind = .network ↔ ¬ Refuses a m)
  said : said = [] ∨ (∃ f, verdict = .failed f) ∧
    ∃ reason text, said = [.message (Message.abortWith reason text)]

variable {a : Option Authenticator} {m : Move} {f : Failure} {said : List StreamItem}

theorem decides_joined (realm : String) {id : Id} {details : Dictionary}
    (welcome : Welcomes a id details m) :
    Decides realm a m (.joined id details) [] where
  decided := by simp
  joined id' details' := by
    constructor
    · intro same
      obtain ⟨rfl, rfl⟩ : id = id' ∧ details = details' := by simpa using same
      exact welcome
    · intro welcome'
      cases welcome
      cases welcome'
      rfl
  named := by simp
  illegal := by simp
  network := by simp
  said := Or.inl rfl

theorem decides_failed {realm : String} (unwelcome : ∀ id details, ¬ Welcomes a id details m)
    (named : f.OfJoin realm)
    (kind : f.kind = .illegalOperation ∧ Refuses a m ∨ f.kind = .network ∧ ¬ Refuses a m)
    (said' : said = [] ∨ ∃ reason text, said = [.message (Message.abortWith reason text)]) :
    Decides realm a m (.failed f) said where
  decided := by simp
  joined id details := by simp [unwelcome id details]
  named g same := by
    obtain rfl := Verdict.failed.inj same
    exact named
  illegal g same := by
    obtain rfl := Verdict.failed.inj same
    rcases kind with ⟨kind, refuses⟩ | ⟨kind, refuses⟩ <;> simp [kind, refuses]
  network g same := by
    obtain rfl := Verdict.failed.inj same
    rcases kind with ⟨kind, refuses⟩ | ⟨kind, refuses⟩ <;> simp [kind, refuses]
  said := said'.imp_right fun last => ⟨⟨f, rfl⟩, last⟩

/-! ### The steps of a handshake -/

/-- A handshake over a wire that works is at this standing, and has sent these items. -/
structure Stands (config : Config) (deadline : Nat) (sent : List StreamItem) (s : Standing)
    (h : Handshake) : Prop where
  config : h.config = { config with authenticator := s.authenticator }
  works : h.wire.Works
  sent : h.wire.sent = sent
  left : deadline - h.now = s.left
  deadline : h.deadline = deadline

section

variable {config : Config} {deadline : Nat} {sent : List StreamItem} {s t : Standing}
  {h : Handshake} {out : List StreamItem}

theorem Stands.transmitAnyway (stands : Stands config deadline sent s h) (i : StreamItem) :
    Stands config deadline (sent ++ [i]) s (h.transmitAnyway i) := by
  have gone := stands.works.send i
  exact
    { config := stands.config
      works := by
        rw [Handshake.transmitAnyway, gone]
        exact ⟨stands.works.opened, stands.works.fates⟩
      sent := by rw [Handshake.transmitAnyway, gone, ← stands.sent]
      deadline := stands.deadline
      left := stands.left }

theorem Stands.sendOrFail (stands : Stands config deadline sent s h) (m : Message) :
    h.sendOrFail m = (h.transmitAnyway (.message m), .waiting) := by
  rw [Handshake.sendOrFail, Handshake.transmitAnyway, stands.works.send]

theorem Stands.authenticator (stands : Stands config deadline sent s h) :
    h.config.authenticator = s.authenticator := by rw [stands.config]

theorem Stands.realm (stands : Stands config deadline sent s h) :
    h.realm = config.realm.text := by rw [Handshake.realm, stands.config]

theorem stands_start (config : Config) {wire : Wire} (works : wire.Works) (now : Nat) :
    ∃ h, start config wire now = (h, .waiting) ∧
      Stands config (now + config.handshakeTimeout)
        (wire.sent ++ [config.hello])
        ⟨config.authenticator, config.handshakeTimeout⟩ h := by
  have fresh : Stands config (now + config.handshakeTimeout) wire.sent
      ⟨config.authenticator, config.handshakeTimeout⟩
      ⟨config, wire, now, now + config.handshakeTimeout⟩ :=
    ⟨rfl, works, rfl, Nat.add_sub_cancel_left now _, rfl⟩
  exact ⟨_, fresh.sendOrFail _, fresh.transmitAnyway _⟩

/-- As long as it goes on, the handshake sends what is called for. -/
theorem Stands.goes (stands : Stands config deadline sent s h) (goes : s.Goes m out t) :
    ∃ h', h.take m = (h', .waiting) ∧ Stands config deadline (sent ++ out) t h' := by
  cases goes with
  | ping s data => exact ⟨_, rfl, stands.transmitAnyway (.ping data)⟩
  | @challenge a left method signature extra answer accepted =>
    have known : h.config.authenticator = some a := stands.authenticator
    let after : Handshake :=
      { h with
        config := { h.config with authenticator := some (a.afterwards method extra) }
        now := h.now + a.delay method extra }
    have turned : Stands config deadline sent
        ⟨some (a.afterwards method extra), left - a.delay method extra⟩ after :=
      { config := by simp only [after, stands.config]
        works := stands.works
        sent := stands.sent
        deadline := stands.deadline
        left := by
          have left : deadline - h.now = left := stands.left
          simp only [after]
          omega }
    refine ⟨_, ?_, turned.transmitAnyway (.message (.authenticate signature answer))⟩
    rw [← turned.sendOrFail]
    simp only [take, arrive, receive, receiveChallenge, known, accepted, after]
  | @elapse a left time inTime =>
    have left : deadline - h.now = left := stands.left
    have early : ¬ h.deadline ≤ h.now + time := by rw [stands.deadline]; omega
    refine ⟨{ h with now := h.now + time }, if_neg early, ?_⟩
    rw [List.append_nil]
    exact
      { config := stands.config
        works := stands.works
        sent := stands.sent
        deadline := stands.deadline
        left := by dsimp only; omega }
  | serve s => exact ⟨h, rfl, by rwa [List.append_nil]⟩
  | poll s number => exact ⟨h, rfl, by rwa [List.append_nil]⟩
  | act s number a => exact ⟨h, rfl, by rwa [List.append_nil]⟩

/-- The handshake is decided with this, and nothing is sent after these items. -/
structure Settles (config : Config) (deadline : Nat) (sent : List StreamItem)
    (a : Option Authenticator) (m : Move) (h : Handshake) (verdict : Verdict) : Prop where
  decides : ∃ said, h.wire.sent = sent ++ said ∧ Decides config.realm.text a m verdict said
  closed : ∀ f, verdict = .failed f → h.wire.closed = true
  config : h.config = { config with authenticator := a }
  deadline : h.deadline = deadline

/-- An attempt is given up, and at most an ABORT is said about it. -/
theorem Stands.fails (stands : Stands config deadline (sent ++ said) s h)
    (operation : (f.context? "operation").getD Operation.join.name = Operation.join.name)
    (target : (f.context? "target").getD config.realm.text = config.realm.text)
    (unwelcome : ∀ id details, ¬ Welcomes s.authenticator id details m)
    (kind : f.kind = .illegalOperation ∧ Refuses s.authenticator m ∨
      f.kind = .network ∧ ¬ Refuses s.authenticator m)
    (last : said = [] ∨ ∃ reason text, said = [.message (Message.abortWith reason text)]) :
    ∃ h' verdict, h.fail f = (h', verdict) ∧
      Settles config deadline sent s.authenticator m h' verdict := by
  refine ⟨_, _, rfl, ⟨said, stands.sent, ?_⟩, fun _ _ => rfl, stands.config, stands.deadline⟩
  refine decides_failed unwelcome ?_ (by simpa using kind) last
  rw [stands.realm]
  exact Failure.ofJoin_during operation target

/-- The router is told why, and the attempt is given up. -/
theorem Stands.aborts (stands : Stands config deadline sent s h) (complaint : Complaint)
    (text : String) (bare : f.context = [])
    (unwelcome : ∀ id details, ¬ Welcomes s.authenticator id details m)
    (kind : f.kind = .illegalOperation ∧ Refuses s.authenticator m ∨
      f.kind = .network ∧ ¬ Refuses s.authenticator m) :
    ∃ h' verdict, (h.sayAbort complaint text).fail f = (h', verdict) ∧
      Settles config deadline sent s.authenticator m h' verdict :=
  (stands.transmitAnyway _).fails (by simp [Failure.context?, bare])
    (by simp [Failure.context?, bare]) unwelcome kind (Or.inr ⟨_, _, rfl⟩)

/-- Nothing is said to the router, and the attempt is given up. -/
theorem Stands.breaks (stands : Stands config deadline sent s h) (problem : String)
    (unwelcome : ∀ id details, ¬ Welcomes s.authenticator id details m)
    (allowed : ¬ Refuses s.authenticator m) :
    ∃ h' verdict, h.failWith problem = (h', verdict) ∧
      Settles config deadline sent s.authenticator m h' verdict := by
  have silent : Stands config deadline (sent ++ []) s h := by rwa [List.append_nil]
  exact silent.fails rfl rfl unwelcome (Or.inr ⟨rfl, allowed⟩) (Or.inl rfl)

theorem Stands.receives_welcome (stands : Stands config deadline sent s h) (id : Id)
    (details : Dictionary) :
    ∃ h' verdict, h.receiveWelcome id details = (h', verdict) ∧
      Settles config deadline sent s.authenticator
        (.arrive (.item (.message (.welcome id details)))) h' verdict := by
  have known := stands.authenticator
  have joins : (∀ x ∈ s.authenticator, x.verifyWelcome id details = .ok ()) →
      Settles config deadline sent s.authenticator
        (.arrive (.item (.message (.welcome id details)))) h (.joined id details) := fun accepted =>
    ⟨⟨[], by rw [stands.sent, List.append_nil], decides_joined _ (.welcome accepted)⟩, by simp,
      stands.config, stands.deadline⟩
  cases present : s.authenticator with
  | none =>
    rw [present] at known joins
    exact ⟨h, _, by simp only [receiveWelcome, known], joins (by simp)⟩
  | some x =>
    cases verified : x.verifyWelcome id details with
    | ok u =>
      rw [present] at known joins
      refine ⟨h, _, ?_, joins (by simpa using verified)⟩
      simp only [receiveWelcome, known, verified]
    | error description =>
      have refused : h.receiveWelcome id details =
          h.refuse (.authenticationFailed description) (.welcome id details) := by
        rw [present] at known
        simp only [receiveWelcome, known, verified]
      rw [refused, ← present]
      refine stands.aborts .authenticationFailed _ rfl ?_ (Or.inl ⟨rfl, ?_⟩)
      · rintro id' details' ⟨accepted⟩
        simp [accepted x present] at verified
      · rw [present]
        exact .welcome verified

theorem Stands.receives_challenge (stands : Stands config deadline sent s h) {method : String}
    {extra : Dictionary} (stops : s.Stops (.arrive (.item (.message (.challenge method extra))))) :
    ∃ h' verdict, h.receiveChallenge method extra = (h', verdict) ∧
      Settles config deadline sent s.authenticator
        (.arrive (.item (.message (.challenge method extra)))) h' verdict := by
  have unwelcome : ∀ id details, ¬ Welcomes s.authenticator id details
      (.arrive (.item (.message (.challenge method extra)))) := nofun
  have known := stands.authenticator
  obtain ⟨present, left⟩ := s
  cases present with
  | none =>
    have refused : h.receiveChallenge method extra =
        h.refuse .noAuthenticator (.challenge method extra) := by
      simp only [receiveChallenge, known]
    rw [refused]
    exact stands.aborts .authenticationFailed _ rfl unwelcome
      (Or.inl ⟨rfl, .unanswerable method extra⟩)
  | some x =>
    cases answered : x.answer method extra with
    | ok answer => exact absurd (.challenge left answered) (stops _ _)
    | error description =>
      have refused : h.receiveChallenge method extra =
          h.refuse (.authenticationFailed description) (.challenge method extra) := by
        simp only [receiveChallenge, known, answered]
      rw [refused]
      exact stands.aborts .authenticationFailed _ rfl unwelcome (Or.inl ⟨rfl, .challenge answered⟩)

theorem Stands.receives_abort (stands : Stands config deadline sent s h) (details : Dictionary)
    (reason : Uri) (payload : Payload) :
    ∃ h' verdict, h.fail (Failure.ofAbort h.realm (.abort details reason payload)) = (h', verdict) ∧
      Settles config deadline sent s.authenticator
        (.arrive (.item (.message (.abort details reason payload)))) h' verdict := by
  obtain ⟨a, left⟩ := s
  have silent : Stands config deadline (sent ++ []) ⟨a, left⟩ h := by rwa [List.append_nil]
  have named := Failure.ofJoin_ofAbort h.realm details reason payload
  rw [stands.realm] at named ⊢
  refine silent.fails (by rw [named.operation, Option.getD_some])
    (by rw [named.target, Option.getD_some]) nofun ?_ (Or.inl rfl)
  rw [Failure.kind_ofAbort]
  by_cases violation : reason.text = "wamp.error.protocol_violation"
  · exact Or.inr ⟨if_pos violation, fun | .abort _ _ _ other => other violation⟩
  · exact Or.inl ⟨if_neg violation, .abort _ details payload violation⟩

/-- What does not let the handshake go on decides it. -/
theorem Stands.stops (stands : Stands config deadline sent s h) (stops : s.Stops m) :
    ∃ h' verdict, h.take m = (h', verdict) ∧
      Settles config deadline sent s.authenticator m h' verdict := by
  obtain ⟨a, left⟩ := s
  cases m with
  | serve => exact absurd (.serve _) (stops _ _)
  | poll number => exact absurd (.poll _ number) (stops _ _)
  | act number action => exact absurd (.act _ number action) (stops _ _)
  | elapse time =>
    have late : ¬ time < left := fun inTime => stops _ _ (.elapse a inTime)
    have still : deadline - h.now = left := stands.left
    have reached : h.deadline ≤ h.now + time := by rw [stands.deadline]; omega
    have later : Stands config deadline sent ⟨a, 0⟩ { h with now := h.now + time } :=
      { stands with left := by dsimp only; omega }
    have expired : h.take (.elapse time) = { h with now := h.now + time }.expire := if_pos reached
    rw [expired]
    exact later.aborts .protocolViolation _ rfl nofun (Or.inr ⟨rfl, nofun⟩)
  | arrive came =>
    cases came with
    | failed description => exact stands.breaks description nofun nofun
    | ended => exact stands.breaks "transport closed" nofun nofun
    | item i =>
      cases i with
      | ping data => exact absurd (.ping _ data) (stops _ _)
      | message m =>
        cases m with
        | welcome id details => exact stands.receives_welcome id details
        | challenge method extra => exact stands.receives_challenge stops
        | abort details reason payload => exact stands.receives_abort details reason payload
        | _ => exact stands.aborts .protocolViolation _ rfl nofun (Or.inr ⟨rfl, nofun⟩)

/-! ### Runs -/

/-- An attempt goes on for as long as it can. -/
theorem Stands.attend (stands : Stands config deadline sent s h) (moves : List Move) :
    ∃ before replies t, s.Exchange before replies t ∧
      ((∃ h', h.attend moves = ((h', .waiting), []) ∧ moves = before ∧
          Stands config deadline (sent ++ replies) t h') ∨
        ∃ h' verdict last rest, h.attend moves = ((h', verdict), rest) ∧
          moves = before ++ last :: rest ∧ t.Stops last ∧
          Settles config deadline (sent ++ replies) t.authenticator last h' verdict) := by
  induction moves generalizing s h sent with
  | nil => exact ⟨[], [], s, .done s, Or.inl ⟨h, rfl, rfl, by rwa [List.append_nil]⟩⟩
  | cons m rest ih =>
    by_cases stops : s.Stops m
    · obtain ⟨h', verdict, taken, settles⟩ := stands.stops stops
      obtain ⟨said, -, decides⟩ := settles.decides
      refine ⟨[], [], s, .done s, Or.inr ⟨h', verdict, m, rest, ?_, rfl, stops, ?_⟩⟩
      · rw [Handshake.attend, taken]
        cases verdict with
        | waiting => exact absurd rfl decides.decided
        | joined id details => rfl
        | failed f => rfl
      · rwa [List.append_nil]
    · obtain ⟨out, t, goes⟩ : ∃ out t, s.Goes m out t := by simpa [Standing.Stops] using stops
      obtain ⟨h', taken, there⟩ := stands.goes goes
      have onward : h.attend (m :: rest) = h'.attend rest := by rw [Handshake.attend, taken]
      obtain ⟨before, replies, u, exchange, came⟩ := ih there
      refine ⟨m :: before, out ++ replies, u, .next goes exchange, ?_⟩
      rw [onward, ← List.append_assoc]
      rcases came with ⟨h', attended, all, stands⟩ | ⟨h', verdict, last, left, attended, split, how⟩
      · exact Or.inl ⟨h', attended, congrArg (m :: ·) all, stands⟩
      · exact Or.inr ⟨h', verdict, last, left, attended, congrArg (m :: ·) split, how⟩

end

end Handshake

namespace Stage

theorem run_unjoined (wire : Wire) (lifecycle : Option Lifecycle) (moves : List Move) :
    (unjoined wire lifecycle).run (moves.map .moves) = unjoined wire lifecycle := by
  induction moves with
  | nil => rfl
  | cons m rest ih => exact ih

/-- Nothing of what comes after the handshake is decided is lost on the session. -/
theorem run_attend (h : Handshake) (moves : List Move) :
    (joining h).run (moves.map .moves) =
      (proceed (h.attend moves).1).run ((h.attend moves).2.map .moves) := by
  induction moves generalizing h with
  | nil => rfl
  | cons m rest ih =>
    have onward : (joining h).run ((m :: rest).map .moves) =
        (proceed (h.take m)).run (rest.map .moves) := rfl
    rw [onward, Handshake.attend]
    rcases h.take m with ⟨h', _ | ⟨id, details⟩ | f⟩
    · exact ih h'
    · rfl
    · rfl

theorem run_join {config : Config} (valid : config.problem? = none) (wire : Wire) (now : Nat)
    (moves : List Move) :
    (begin config wire now).run (moves.map .moves) =
      (proceed (Handshake.join config wire now moves).1).run
        ((Handshake.join config wire now moves).2.map .moves) := by
  rw [begin, valid, Handshake.join]
  dsimp only
  rcases Handshake.start config wire now with ⟨h, _ | ⟨id, details⟩ | f⟩
  · exact run_attend h moves
  · rfl
  · rfl

/-- What comes of a handshake in the life of the session. -/
theorem run_of_join {config : Config} (valid : config.problem? = none) {wire : Wire} {now : Nat}
    {moves rest : List Move} {h : Handshake} {verdict : Verdict} {a : Option Authenticator}
    (joined : Handshake.join config wire now moves = ((h, verdict), rest))
    (kept : h.config = { config with authenticator := a }) :
    (∀ id details, verdict = .joined id details → ∃ c : Client,
      (begin config wire now).run (moves.map .moves) = (Stage.joined c).run (rest.map .moves) ∧
        c.id = id ∧ c.realm = config.realm ∧ c.details = details ∧ c.session.wire = h.wire ∧
        c.session.toLifecycle = ⟨.established, [.connecting, .handshaking, .established], []⟩) ∧
    ∀ f, verdict = .failed f →
      (begin config wire now).run (moves.map .moves) =
        unjoined h.wire (some ⟨.closed, [.connecting, .handshaking, .closed], []⟩) := by
  have lived := run_join valid wire now moves
  rw [joined] at lived
  constructor
  · rintro id details rfl
    exact ⟨_, lived, rfl, (congrArg Config.realm kept :), rfl, rfl, rfl⟩
  · rintro f rfl
    exact lived.trans (run_unjoined _ _ rest)

/-- What an attempt to join a realm comes to, over a wire that works. HELLO is said, then the router
is answered until something decides or nothing more comes. Until then everything is taken in, and
after that nothing. -/
theorem attempt_comes_out {config : Config} (valid : config.problem? = none) {wire : Wire}
    (works : wire.Works) (now : Nat) (moves : List Move) :
    ∃ h verdict rest before replies s,
      Handshake.join config wire now moves = ((h, verdict), rest) ∧
      Handshake.Standing.Exchange ⟨config.authenticator, config.handshakeTimeout⟩ before replies s ∧
      h.deadline = now + config.handshakeTimeout ∧
      (verdict = .waiting ∧ moves = before ∧ rest = [] ∧
          h.wire.sent = wire.sent ++ config.hello :: replies ∨
        ∃ last said, moves = before ++ last :: rest ∧ s.Stops last ∧
          Handshake.Decides config.realm.text s.authenticator last verdict said ∧
          h.wire.sent = wire.sent ++ config.hello :: replies ++ said) ∧
      (∀ id details, verdict = .joined id details → ∃ c : Client,
        (begin config wire now).run (moves.map .moves) = (joined c).run (rest.map .moves) ∧
          c.id = id ∧ c.realm = config.realm ∧ c.details = details ∧ c.session.wire = h.wire ∧
          c.session.toLifecycle =
            ⟨.established, [.connecting, .handshaking, .established], []⟩) ∧
      ∀ f, verdict = .failed f → h.wire.closed = true ∧
        (begin config wire now).run (moves.map .moves) =
          unjoined h.wire (some ⟨.closed, [.connecting, .handshaking, .closed], []⟩) := by
  obtain ⟨h₀, started, stands⟩ := Handshake.stands_start config works now
  have joined : Handshake.join config wire now moves = h₀.attend moves := by
    rw [Handshake.join, started]
  obtain ⟨before, replies, s, exchange, came⟩ := stands.attend moves
  rw [List.append_assoc, List.singleton_append] at came
  rcases came with
    ⟨h, attended, all, stands⟩ | ⟨h, verdict, last, rest, attended, split, stops, how⟩
  · have lived := run_of_join valid (joined.trans attended) stands.config
    exact ⟨h, .waiting, [], before, replies, s, joined.trans attended, exchange, stands.deadline,
      Or.inl ⟨rfl, all, rfl, stands.sent⟩, lived.1, fun f failed => nomatch failed⟩
  · have lived := run_of_join valid (joined.trans attended) how.config
    obtain ⟨said, sent, decides⟩ := how.decides
    refine ⟨h, verdict, rest, before, replies, s, joined.trans attended, exchange, how.deadline,
      Or.inr ⟨last, said, split, stops, decides, ?_⟩, lived.1, fun f failed =>
        ⟨how.closed f failed, lived.2 f failed⟩⟩
    rw [sent]

/-- With a ticket, after a ping and a challenge. -/
theorem attempt_comes_out_ticket :
    let config := { Config.default with
      realm := ⟨"realm1"⟩, authenticator := some (Authenticator.ticket "alice" "secret") }
    let wire := Wire.fresh fun _ => none
    config.problem? = none ∧ wire.Works ∧
      ∃ c : Client, (begin config wire 0).run
        [.moves (.arrive (.item (.ping [7]))),
          .moves (.arrive (.item (.message (.challenge "ticket" [])))),
          .moves (.arrive (.item (.message (.welcome Id.max []))))] = joined c ∧ c.id = Id.max := by
  intro config wire
  have valid : config.problem? = none := by decide
  have works : wire.Works := ⟨rfl, fun _ => rfl⟩
  obtain ⟨h, verdict, rest, before, replies, s, joined, -, -, -, lived, -⟩ :=
    attempt_comes_out valid works 0
      [.arrive (.item (.ping [7])), .arrive (.item (.message (.challenge "ticket" []))),
        .arrive (.item (.message (.welcome Id.max [])))]
  have welcome : verdict = .joined Id.max [] := (congrArg (fun x => x.1.2) joined).symm
  have all : rest = [] := (congrArg Prod.snd joined).symm
  obtain ⟨c, same, id, -⟩ := lived Id.max [] welcome
  subst all
  exact ⟨valid, works, c, same, id⟩

end Stage

end WampClient
