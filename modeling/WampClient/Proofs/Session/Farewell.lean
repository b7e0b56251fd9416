import WampClient.Client.Begin
import WampClient.Proofs.Session.Sound

/-! Whatever ends a session, and at whatever moment, everyone who waits is told of the one failure,
once, and nothing is left over. -/
namespace WampClient.Session

/-- A session at any moment of its life, also in the middle of a step. -/
inductive Work.Reached : Work → Prop where
  | established (wire : Wire) (now closeTimeout : Nat) :
      Reached ⟨established wire now closeTimeout, []⟩
  | prepared {s : Session} (input : Input) : Reached ⟨s, []⟩ → Reached ⟨s.prepared input, []⟩
  | part {input : Input} {w w' : Work} (part : Part input w w') : Reached w → Reached w'

theorem Work.Reached.sound {w : Work} (reached : w.Reached) : w.session.Sound := by
  induction reached with
  | established wire now closeTimeout => exact sound_established wire now closeTimeout
  | prepared input _ ih => exact ih.prepared input
  | part part _ ih => exact ih.part part

theorem Work.Reached.parts {input : Input} {w w' : Work} (reached : w.Reached)
    (parts : Parts input w w') : w'.Reached := by
  induction parts with
  | refl => exact reached
  | tail _ part ih => exact .part part ih

theorem Work.Reached.step {s : Session} (reached : Reached ⟨s, []⟩) (input : Input) :
    Reached ⟨s.step input, []⟩ :=
  (reached.prepared input).parts (parts_step reached.sound.tidy input)

theorem Work.Reached.run {s : Session} (reached : Reached ⟨s, []⟩) (inputs : List Input) :
    Reached ⟨s.run inputs, []⟩ := by
  induction inputs generalizing s with
  | nil => exact reached
  | cons input rest ih => exact ih (reached.step input)

/-! ### Changes that nobody who waits could tell -/

theorem Concluded.congr {s s' t : Session} {f : Failure} (concluded : Concluded s' f t)
    (posts : s'.posts = s.posts) (last : s'.lastPosts f = s.lastPosts f)
    (gone : s'.gone = s.gone) (signals : s'.signals = s.signals) : Concluded s f t :=
  { concluded with
    told := by rw [concluded.told, posts, last, arriving, arriving, gone]
    gone := concluded.gone.trans gone
    signals := concluded.signals.trans signals }

theorem flatMap_lastPosts_filter {routes : List (Route Target)} {route : Handle} (f : Failure)
    (own : ∀ x ∈ routes, x.handle = route → ∃ cell, x.handler = .interrupt cell) :
    ((routes.filter fun x => x.handle ≠ route).flatMap fun x => x.handler.lastPosts f) =
      routes.flatMap fun x => x.handler.lastPosts f := by
  induction routes with
  | nil => rfl
  | cons x rest ih =>
    have later := ih fun y hy => own y (List.mem_cons_of_mem _ hy)
    by_cases same : x.handle = route
    · obtain ⟨cell, handler⟩ := own x List.mem_cons_self same
      simpa [List.filter_cons, same, handler, Target.lastPosts] using later
    · simpa [List.filter_cons, same] using later

/-- The route of an invocation's interrupts is nobody's who waits. -/
theorem lastPosts_retiring {s : Session} (sound : s.Sound) (m : Message) (f : Failure) :
    (s.retiring m).lastPosts f = s.lastPosts f := by
  rcases retiring_cases s m with same | ⟨request, route, known, retired⟩
  · rw [same]
  · have own := sound.interrupts _ (Assoc.mem_of_get? known)
    rw [retired, lastPosts, lastPosts, eraseRoute, Router.routes_erase,
      flatMap_lastPosts_filter f own]

/-! ### What ends a session -/

section

variable {s : Session}

theorem concluded_ended (live : s.phase ≠ .closed) :
    Concluded s (Failure.of .transportClosed) (s.step (.arrival .ended)) := by
  rw [step, if_neg live]
  exact concluded_terminate live rfl

theorem concluded_failed (live : s.phase ≠ .closed) (description : String) :
    Concluded s (Failure.of (.transportFailed description))
      (s.step (.arrival (.failed description))) := by
  rw [step, if_neg live]
  have sent := alike_transmit s
    (.message (Message.abortWith Complaint.protocolViolation.uri description))
  exact (concluded_terminate (mt sent.phase live) rfl).congr rfl rfl rfl rfl

theorem concluded_abort (live : s.phase ≠ .closed) (details : Dictionary) (reason : Uri)
    (payload : Payload) :
    Concluded s (((Failure.of (.abortedByPeer reason)).withReason reason).withSource
        (.abort details reason payload))
      (s.step (.arrival (.item (.message (.abort details reason payload))))) := by
  rw [step, if_neg live]
  exact concluded_terminate live rfl

/-- The answer to GOODBYE may get out or not. -/
theorem concluded_goodbye (established : s.phase = .established) (details : Dictionary)
    (reason : Uri) :
    Concluded s (((Failure.of (.closedByPeer reason)).withReason reason).withSource
        (.goodbye details reason))
      (s.step (.arrival (.item (.message (.goodbye details reason))))) := by
  have live : s.phase ≠ .closed := by simp [established]
  have parting : s.step (.arrival (.item (.message (.goodbye details reason)))) =
      s.partFrom reason (.goodbye details reason) := by
    rw [step, if_neg live]
    exact if_pos established
  have entered : s.enter .closing =
      { s with phase := .closing, published := s.published ++ [.closing] } :=
    enter_of_may (by rw [established]; rfl)
  rw [parting, partFrom, entered]
  exact (concluded_terminate (by simp [transmitAnyway, transmit]) rfl).congr rfl rfl rfl rfl

theorem concluded_goodbye_closing (closing : s.phase = .closing) (details : Dictionary)
    (reason : Uri) :
    Concluded s Failure.sessionClosed
      (s.step (.arrival (.item (.message (.goodbye details reason))))) := by
  have live : s.phase ≠ .closed := by simp [closing]
  have ends : s.step (.arrival (.item (.message (.goodbye details reason)))) =
      s.terminate Failure.sessionClosed := by
    simp [step, arrive, receive, closing]
  rw [ends]
  exact concluded_terminate live rfl

theorem concluded_elapse (live : s.phase ≠ .closed) {time deadline : Nat}
    (waits : s.deadline = some deadline) (reached : deadline ≤ s.now + time) :
    Concluded s Failure.sessionClosed (s.step (.elapse time)) := by
  have ends : s.step (.elapse time) =
      { s with now := s.now + time }.terminate Failure.sessionClosed :=
    (if_neg live).trans (elapse_of_due waits reached)
  rw [ends]
  exact (concluded_terminate (by exact live) rfl).congr rfl rfl rfl rfl

theorem retiring_untold (s : Session) (m : Message) :
    (s.retiring m).posts = s.posts ∧ (s.retiring m).gone = s.gone ∧
      (s.retiring m).signals = s.signals := by
  rcases retiring_cases s m with same | ⟨request, route, -, retired⟩
  · rw [same]
    exact ⟨rfl, rfl, rfl⟩
  · rw [retired]
    exact ⟨rfl, rfl, rfl⟩

theorem concluded_sendOrTerminate (sound : s.Sound) (live : s.phase ≠ .closed) {m : Message}
    {t : Session} {f : Failure} (failed : s.sendOrTerminate m = (t, .error f)) :
    (∃ description, f = sendFailure m description) ∧ Concluded s f t := by
  rw [sendOrTerminate_eq] at failed
  rcases sent : (s.retiring m).transmit (.message m) with ⟨u, trouble⟩
  rw [sent] at failed
  cases trouble with
  | none => simp at failed
  | some description =>
    obtain ⟨rfl, rfl⟩ : u.terminate (sendFailure m description) = t ∧
        sendFailure m description = f := by simpa using failed
    refine ⟨⟨description, rfl⟩, ?_⟩
    obtain rfl : ((s.retiring m).transmit (.message m)).1 = u := by rw [sent]
    have still : (s.retiring m).phase ≠ .closed := by rwa [phase_retiring]
    obtain ⟨posts, gone, signals⟩ := retiring_untold s m
    exact (concluded_terminate (by exact still) rfl).congr posts (lastPosts_retiring sound m _) gone
      signals

end

/-- Whatever ends a session ends it for everyone: the end of the stream, a failure of the stream,
an ABORT, a GOODBYE, the deadline for the peer's GOODBYE, or a message that does not get out. The
failure carries the reason and the message of an ABORT, and of the GOODBYE of a peer that leaves of
its own accord, whether or not it can be answered. -/
theorem ending_concludes {w : Work} (reached : w.Reached) (live : w.session.phase ≠ .closed) :
    let s := w.session
    Concluded s (Failure.of .transportClosed) (s.step (.arrival .ended)) ∧
    (∀ description, Concluded s (Failure.of (.transportFailed description))
      (s.step (.arrival (.failed description)))) ∧
    (∀ details reason payload,
      let m := Message.abort details reason payload
      Concluded s (((Failure.of (.abortedByPeer reason)).withReason reason).withSource m)
        (s.step (.arrival (.item (.message m))))) ∧
    (s.phase = .established → ∀ details reason,
      let m := Message.goodbye details reason
      Concluded s (((Failure.of (.closedByPeer reason)).withReason reason).withSource m)
        (s.step (.arrival (.item (.message m))))) ∧
    (s.phase = .closing → ∀ details reason,
      Concluded s Failure.sessionClosed
        (s.step (.arrival (.item (.message (.goodbye details reason)))))) ∧
    (∀ time deadline, s.deadline = some deadline → deadline ≤ s.now + time →
      Concluded s Failure.sessionClosed (s.step (.elapse time))) ∧
    (∀ m t f, s.sendOrTerminate m = (t, .error f) →
      (∃ description, f = Failure.of (.sendFailed m.name description)) ∧ Concluded s f t) :=
  ⟨concluded_ended live, concluded_failed live, concluded_abort live, concluded_goodbye,
    concluded_goodbye_closing, fun _ _ => concluded_elapse live,
    fun _ _ _ => concluded_sendOrTerminate reached.sound live⟩

/-- One call, which nobody has answered yet. -/
def oneCall : List Input :=
  [.command (.request (.call Id.min [] ⟨"a"⟩ default) (Client.callKeys Id.min) (.call 0) none)]

/-- The end of the stream while a call waits. -/
theorem ending_concludes_call :
    let s := (established (Wire.fresh fun _ => none) 0 1000).run oneCall
    let t := s.step (.arrival .ended)
    s.phase ≠ .closed ∧ Concluded s (Failure.of .transportClosed) t ∧
      t.postsTo 0 = [.outcome (.error (Failure.of .transportClosed))] := by
  intro s t
  have live : s.phase ≠ .closed := by decide
  have reached : Work.Reached ⟨s, []⟩ := (Work.Reached.established _ _ _).run oneCall
  exact ⟨live, (ending_concludes reached live).1, rfl⟩

/-- Once the client has said GOODBYE, the reason that the peer gives in its own is told nobody. -/
theorem closing_goodbye_gives_no_reason :
    let s := (established (Wire.fresh fun _ => none) 0 1000).run
      (oneCall ++ [.command (.close none)])
    let t := s.step (.arrival (.item (.message (.goodbye [] CloseReason.systemShutdown.uri))))
    s.phase = .closing ∧ t.postsTo 0 = [.outcome (.error Failure.sessionClosed)] ∧
      ¬ ∃ f : Failure, f.reason = some CloseReason.systemShutdown.uri ∧
        .outcome (.error f) ∈ t.postsTo 0 := by
  intro s t
  have told : t.postsTo 0 = [.outcome (.error Failure.sessionClosed)] := rfl
  refine ⟨by decide, told, ?_⟩
  rintro ⟨f, reason, there⟩
  rw [told, List.mem_singleton] at there
  obtain rfl : f = Failure.sessionClosed := by simpa using there
  exact nomatch reason

end WampClient.Session
