import WampClient.Proofs.Session.Sendings

/-! What a session sends on its own account, and what it sends because it was asked to. On its own
account it answers pings and turns invocations away, and it takes leave; everything else that goes
out was asked for in so many words, and a request goes out only while the session is established. -/
namespace WampClient

/-- What a session may say without having been asked. -/
def Message.isOwn : Message → Bool
  | .goodbye .. => true
  | .abort .. => true
  | .error .. => true
  | _ => false

def StreamItem.isOwn : StreamItem → Bool
  | .message m => m.isOwn
  | .ping _ => true

namespace Session

variable {s t : Session} {out : List StreamItem} {m : Message} {input : Input}

/-- What goes out in a step: things that the session says on its own account, or the message that
it was asked to send. -/
inductive Says (s : Session) (input : Input) (t : Session) : Prop where
  | own (out : List StreamItem) (sent : t.wire.sent = s.wire.sent ++ out)
      (own : ∀ i ∈ out, i.isOwn = true)
  | asked {c : Command} {m : Message} (input : input = .command c) (asks : c.message? = some m)
      (sent : t.wire.sent = s.wire.sent ++ [.message m])
      (opened : s.phase = .established ∨ s.phase = .closing ∧ ∃ answer, c = .send m answer)

theorem says_own (emits : s.Emits t out) (own : ∀ i ∈ out, i.isOwn = true) : s.Says input t := by
  obtain ⟨done, sent, part, -⟩ := emits.sent
  exact .own done sent fun i there => own i (part.subset there)

theorem says_asked {c : Command} (emits : s.Emits t [.message m]) (asks : c.message? = some m)
    (opened : s.phase = .established ∨ s.phase = .closing ∧ ∃ answer, c = .send m answer) :
    s.Says (.command c) t := by
  obtain ⟨done, sent, part, -⟩ := emits.sent
  rcases List.sublist_singleton.mp part with rfl | rfl
  · exact .own [] sent (by simp)
  · exact .asked rfl asks sent opened

theorem own_rejections (es : List Errand) : ∀ i ∈ rejections es, i.isOwn = true := by
  intro i there
  obtain ⟨e, -, due⟩ := List.mem_flatMap.mp there
  cases e with
  | turnAway request => exact List.mem_singleton.mp due ▸ rfl
  | _ => exact nomatch due

theorem own_refusals (m : Message) : ∀ i ∈ refusals m, i.isOwn = true := by
  intro i there
  cases m with
  | invocation request registration details payload => exact List.mem_singleton.mp there ▸ rfl
  | _ => exact nomatch there

theorem says_distribute (m : Message) : s.Says input (s.distribute m) := by
  obtain ⟨done, sent, part, -⟩ := (emits_distribute s m).sent
  refine .own done sent fun i there => ?_
  rcases List.mem_append.mp (part.subset there) with rejected | refused
  · exact own_rejections _ i rejected
  · split at refused
    · exact nomatch refused
    · exact own_refusals m i refused

theorem says_startLeaving (box : Option Box) : s.Says input (s.startLeaving box) := by
  rcases startLeaving_cases s box with ⟨opened, same⟩ | ⟨-, same⟩ | same <;> rw [same]
  · have left := (emits_settingOut opened box).trans (emits_sendOwn _ CloseReason.closeRealm.goodbye)
    exact says_own left (by simp [StreamItem.isOwn, Message.isOwn, CloseReason.goodbye])
  · exact .own [] (List.append_nil _).symm (by simp)
  · exact says_own (emits_answer ⟨by simp, by simp, by simp [Post.failure?]⟩ box) (by simp)

/-- As long as it is established, a session sends what it is asked to send, or ends. -/
theorem emits_of_established {c : Command} (asks : c.message? = some m)
    (opened : s.phase = .established) : s.Emits (s.step (.command c)) [.message m] := by
  have heeds : ∀ box, Input.command c ≠ .forget box := fun _ same => nomatch same
  cases course_step s heeds with
  | handed came => exact nomatch came
  | sends asked message emits table =>
    obtain rfl := Input.command.inj asked
    rwa [← Option.some.inj (message.symm.trans asks)]
  | minds out emits silent table late =>
    exact absurd opened (late c rfl (Option.isSome_iff_exists.mpr ⟨m, asks⟩))

theorem says_command (c : Command) (live : s.phase ≠ .closed) :
    s.Says (.command c) (s.step (.command c)) := by
  by_cases opened : s.phase = .established
  · cases asks : c.message? with
    | some m => exact says_asked (emits_of_established asks opened) asks (Or.inl opened)
    | none =>
      rw [step, if_neg live]
      cases c with
      | removeRoute route => exact .own [] (List.append_nil _).symm (by simp)
      | close box => exact says_startLeaving box
      | _ => cases asks
  · have still : ∀ (box : Option Box) (p : Post), s.Says (.command c) (s.answer box p) :=
      fun box p => .own [] (by rw [answer_eq, List.append_nil]) (by simp)
    rw [step, if_neg live]
    cases c with
    | send m box =>
      rw [obey]
      split
      next goes =>
        have leaving := goes.resolve_left opened
        obtain ⟨emits, -⟩ := sendOrTerminate_cases s m
        have told : ((s.sendOrTerminate m).1.answer box (.sent (s.sendOrTerminate m).2)).wire =
            (s.sendOrTerminate m).1.wire := by rw [answer_eq]
        cases says_asked (c := .send m box) emits rfl (Or.inr ⟨leaving, box, rfl⟩) with
        | own out sent own => exact .own out (told ▸ sent) own
        | asked is asks sent goes => exact .asked is asks (told ▸ sent) goes
      next => exact still box _
    | request m keys target box =>
      rw [obey_request_late opened]
      exact still box _
    | removeRoute route => exact .own [] (List.append_nil _).symm (by simp)
    | close box => exact says_startLeaving box

theorem says_arrive (a : Arrival) : s.Says input (s.arrive a) := by
  rcases a with (m | data) | description | -
  · rw [arrive]
    rcases receive_cases s m with
      ⟨-, ⟨details, reason, -, -, same⟩ | ⟨f, expected, same⟩ | same⟩ | same <;> rw [same]
    · exact says_own (emits_partFrom s reason m) (by simp [StreamItem.isOwn, Message.isOwn,
        CloseReason.goodbye])
    · exact says_own (emits_terminate expected) (by simp)
    · exact says_own (emits_report late m) (by simp)
    · exact says_distribute m
  · rcases emits_transmitAnyway s (.ping data) with sent | sent
    · exact says_own sent (by simp [StreamItem.isOwn])
    · exact says_own sent (by simp)
  · exact says_own (emits_parting s _ ⟨rfl, rfl, rfl⟩) (by simp [StreamItem.isOwn, Message.isOwn,
      Message.abortWith])
  · exact says_own (emits_terminate ⟨rfl, rfl, rfl⟩) (by simp)

theorem says_step (s : Session) (input : Input) : s.Says input (s.step input) := by
  have still : s.Says input s := .own [] (List.append_nil _).symm (by simp)
  cases input with
  | forget box => exact .own [] (List.append_nil _).symm (by simp)
  | arrival a =>
    rw [step]
    split
    · exact still
    · exact says_arrive a
  | command c =>
    by_cases closed : s.phase = .closed
    · rwa [step, if_pos closed]
    · exact says_command c closed
  | elapse time =>
    rw [step]
    split
    · exact still
    · exact says_own (emits_elapse s time) (by simp)
  | orphaned =>
    rw [step]
    split
    · exact still
    · exact says_startLeaving none

end Session

end WampClient
