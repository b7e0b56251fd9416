import WampClient.Session.Basic
import Mathlib.Data.List.Basic

/-! The end of a session. Everyone who waits is told once, and the same; what is only fed just
ends; nothing is kept that could still bring something about. -/
namespace WampClient

/-- Whether the peer has replied with something that was not asked for. -/
def Failure.isUnexpected (f : Failure) : Bool :=
  match f.cause with
  | .unexpectedReply _ _ _ => true
  | _ => false

/-- What is told of the end of a session: a failure of the network, in which no reply is found
fault with and which does not say what was attempted. -/
structure Failure.Ends (f : Failure) : Prop where
  network : f.kind = .network
  expected : f.isUnexpected = false
  bare : f.context = []

/-- What is put in for a target when the session ends with a failure. -/
def Target.lastPosts (f : Failure) : Target → List (Box × Post)
  | .reply (some box) _ => [(box, .reply (.error f))]
  | .reply none _ => []
  | .call box => [(box, .outcome (.error f))]
  | .feed _ => []
  | .interrupt _ => []

namespace Session

/-! ### Putting into boxes -/

/-- The entries that reach their boxes. -/
def arriving (s : Session) (entries : List (Box × Post)) : List (Box × Post) :=
  entries.filter fun e => !s.gone.contains e.1

theorem mem_arriving {s : Session} {entries : List (Box × Post)} {e : Box × Post} :
    e ∈ s.arriving entries ↔ e ∈ entries ∧ e.1 ∉ s.gone := by
  simp [arriving]

theorem post_eq (s : Session) (box : Box) (p : Post) :
    s.post box p = { s with posts := s.posts ++ s.arriving [(box, p)] } := by
  by_cases gone : box ∈ s.gone <;> simp [post, arriving, gone]

@[simp] theorem post_router (s : Session) (box : Box) (p : Post) :
    (s.post box p).router = s.router := by
  rw [post_eq]

@[simp] theorem post_interrupts (s : Session) (box : Box) (p : Post) :
    (s.post box p).interrupts = s.interrupts := by
  rw [post_eq]

@[simp] theorem post_gone (s : Session) (box : Box) (p : Post) :
    (s.post box p).gone = s.gone := by
  rw [post_eq]

@[simp] theorem post_phase (s : Session) (box : Box) (p : Post) :
    (s.post box p).phase = s.phase := by
  rw [post_eq]

theorem answer_eq (s : Session) (box : Option Box) (p : Post) :
    s.answer box p =
      { s with posts := s.posts ++ s.arriving (box.toList.map fun box => (box, p)) } := by
  cases box with
  | none => simp [answer, arriving]
  | some box => exact post_eq s box p

@[simp] theorem answer_router (s : Session) (box : Option Box) (p : Post) :
    (s.answer box p).router = s.router := by
  rw [answer_eq]

@[simp] theorem answer_interrupts (s : Session) (box : Option Box) (p : Post) :
    (s.answer box p).interrupts = s.interrupts := by
  rw [answer_eq]

@[simp] theorem answer_gone (s : Session) (box : Option Box) (p : Post) :
    (s.answer box p).gone = s.gone := by
  rw [answer_eq]

@[simp] theorem answer_phase (s : Session) (box : Option Box) (p : Post) :
    (s.answer box p).phase = s.phase := by
  rw [answer_eq]

theorem foldl_post (s : Session) (entries : List (Box × Post)) :
    entries.foldl (fun s e => s.post e.1 e.2) s =
      { s with posts := s.posts ++ s.arriving entries } := by
  induction entries generalizing s with
  | nil => simp [arriving]
  | cons e rest ih =>
    rw [List.foldl_cons, ih, post_eq]
    simp only [arriving, List.append_assoc, ← List.filter_append, List.singleton_append]

/-! ### What is told at the end -/

/-- What those who wait are told when the session ends with a failure: whoever waits for a reply
or for a result gets the failure, and whoever waits for the close an answer. -/
def lastPosts (s : Session) (f : Failure) : List (Box × Post) :=
  (s.router.routes.flatMap fun x => x.handler.lastPosts f) ++
    s.closeWaiters.map fun box => (box, .left)

theorem bidFarewell_eq (s : Session) (f : Failure) :
    s.bidFarewell f =
      { s with posts := s.posts ++
          s.arriving (s.router.routes.filterMap fun x => x.handler.farewell f) } :=
  foldl_post s _

theorem enter_of_may {s : Session} {next : Phase} (may : s.phase.mayEnter next = true) :
    s.enter next = { s with phase := next, published := s.published ++ [next] } := by
  rw [enter, Lifecycle.enter, if_pos may]

theorem enter_of_not {s : Session} {next : Phase} (mayNot : ¬ s.phase.mayEnter next = true) :
    s.enter next = { s with ignored := s.ignored ++ [(s.phase, next)] } := by
  rw [enter, Lifecycle.enter, if_neg mayNot]

theorem enter_closed {s : Session} (live : s.phase ≠ .closed) :
    s.enter .closed = { s with phase := .closed, published := s.published ++ [.closed] } := by
  refine enter_of_may ?_
  cases h : s.phase <;> simp_all [Phase.mayEnter]

theorem farewells_eq (s : Session) (f : Failure) :
    (s.router.routes.filterMap fun x => x.handler.farewell f) ++
      s.closeWaiters.map (fun box => (box, .left)) = s.lastPosts f := by
  rw [lastPosts, List.filterMap_eq_flatMap_toList]
  congr 2
  funext x
  rcases x.handler with ⟨_ | box, change⟩ | box | feed | cell <;> rfl

theorem terminate_eq {s : Session} (live : s.phase ≠ .closed) (f : Failure) :
    s.terminate f =
      { s with
        phase := .closed
        published := s.published ++ [.closed]
        wire := s.wire.close
        router := s.router.clear
        interrupts := []
        deadline := none
        closeWaiters := []
        posts := s.posts ++ s.arriving (s.lastPosts f) } := by
  have waiters : ∀ t : Session, t.closeWaiters.foldl (fun s box => s.post box .left) t =
      { t with posts := t.posts ++ t.arriving (t.closeWaiters.map fun box => (box, .left)) } := by
    intro t
    rw [← foldl_post, List.foldl_map]
  rw [terminate, if_neg live, bidFarewell_eq]
  dsimp only
  rw [enter_closed (by exact live), waiters]
  simp only [arriving, ← farewells_eq, List.filter_append, List.append_assoc]

theorem terminate_closed {s : Session} (closed : s.phase = .closed) (f : Failure) :
    s.terminate f = s := if_pos closed

/-! ### What leads to the end -/

/-- A message is handed around, unless it ends the session or belongs to the handshake; then it
confirms nothing. -/
theorem receive_cases (s : Session) (m : Message) :
    m.confirmsGone = false ∧
        ((∃ details reason, m = .goodbye details reason ∧ s.phase = .established ∧
            s.receive m = s.partFrom reason m) ∨
          (∃ f, Failure.Ends f ∧ s.receive m = s.terminate f) ∨
          s.receive m = s.report late m) ∨
      s.receive m = s.distribute m := by
  cases m with
  | goodbye details reason =>
    by_cases opened : s.phase = .established
    · exact Or.inl ⟨rfl, Or.inl ⟨details, reason, rfl, opened, if_pos opened⟩⟩
    · by_cases leaving : s.phase = .closing
      · refine Or.inl ⟨rfl, Or.inr (Or.inl ⟨Failure.sessionClosed, ⟨rfl, rfl, rfl⟩, ?_⟩)⟩
        exact (if_neg opened).trans (if_pos leaving)
      · exact Or.inr ((if_neg opened).trans (if_neg leaving))
  | abort details reason payload =>
    exact Or.inl ⟨rfl, Or.inr (Or.inl ⟨_, ⟨rfl, rfl, rfl⟩, rfl⟩)⟩
  | hello realm details => exact Or.inl ⟨rfl, Or.inr (Or.inr rfl)⟩
  | welcome id details => exact Or.inl ⟨rfl, Or.inr (Or.inr rfl)⟩
  | challenge method extra => exact Or.inl ⟨rfl, Or.inr (Or.inr rfl)⟩
  | authenticate signature extra => exact Or.inl ⟨rfl, Or.inr (Or.inr rfl)⟩
  | _ => exact Or.inr rfl

/-- The session that sets out to leave, before it says so. -/
def settingOut (s : Session) (box : Option Box) : Session :=
  { s with
    phase := .closing
    published := s.published ++ [.closing]
    closeWaiters := s.closeWaiters ++ box.toList
    deadline := some (s.now + s.closeTimeout) }

theorem startLeaving_of_established {s : Session} (opened : s.phase = .established)
    (box : Option Box) :
    s.startLeaving box = (s.settingOut box).sendOwn CloseReason.closeRealm.goodbye := by
  have may : s.phase.mayEnter .closing = true := by simp [opened, Phase.mayEnter]
  rw [startLeaving, opened]
  dsimp only
  rw [enter_of_may (by exact may)]
  rfl

theorem startLeaving_of_closing {s : Session} (leaving : s.phase = .closing) (box : Option Box) :
    s.startLeaving box = { s with closeWaiters := s.closeWaiters ++ box.toList } := by
  rw [startLeaving, leaving]

theorem startLeaving_cases (s : Session) (box : Option Box) :
    s.phase = .established ∧
        s.startLeaving box = (s.settingOut box).sendOwn CloseReason.closeRealm.goodbye ∨
      s.phase = .closing ∧
        s.startLeaving box = { s with closeWaiters := s.closeWaiters ++ box.toList } ∨
      s.startLeaving box = s.answer box .left := by
  cases phase : s.phase with
  | established => exact Or.inl ⟨rfl, startLeaving_of_established phase box⟩
  | closing => exact Or.inr (Or.inl ⟨rfl, startLeaving_of_closing phase box⟩)
  | _ => exact Or.inr (Or.inr (by rw [startLeaving, phase]))

theorem elapse_of_due {s : Session} {time due : Nat} (waits : s.deadline = some due)
    (reached : due ≤ s.now + time) :
    s.elapse time =
      ({ s with now := s.now + time } : Session).terminate Failure.sessionClosed := by
  simp [elapse, waits, reached]

theorem elapse_cases (s : Session) (time : Nat) :
    s.elapse time = { s with now := s.now + time } ∨
      s.elapse time =
        ({ s with now := s.now + time } : Session).terminate Failure.sessionClosed := by
  unfold elapse
  dsimp only
  split
  · exact Or.inl rfl
  · split
    · exact Or.inr rfl
    · exact Or.inl rfl

/-- The session has ended with the failure: everyone who waited was told once, nothing was put in
anywhere else, nothing is left, and no failure after it changes that. -/
structure Concluded (s : Session) (f : Failure) (t : Session) : Prop where
  kind : f.kind = .network
  told : t.posts = s.posts ++ s.arriving (s.lastPosts f)
  gone : t.gone = s.gone
  signals : t.signals = s.signals
  phase : t.phase = .closed
  wire : t.wire.closed = true
  routes : t.router.routes = []
  index : t.router.index = []
  interrupts : t.interrupts = []
  deadline : t.deadline = none
  closeWaiters : t.closeWaiters = []
  silent : ∀ box, t.feeds box = false
  deaf : ∀ cell, t.listens cell = false
  final : ∀ g, t.terminate g = t

theorem concluded_terminate {s : Session} (live : s.phase ≠ .closed) {f : Failure}
    (kind : f.kind = .network) : Concluded s f (s.terminate f) := by
  rw [terminate_eq live]
  exact { kind, told := rfl, gone := rfl, signals := rfl, phase := rfl, wire := rfl, routes := rfl,
          index := rfl, interrupts := rfl, deadline := rfl, closeWaiters := rfl,
          silent := fun _ => rfl, deaf := fun _ => rfl, final := fun _ => rfl }

end Session

end WampClient
