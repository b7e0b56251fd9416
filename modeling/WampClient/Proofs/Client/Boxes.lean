import WampClient.Proofs.Client.History
import WampClient.Proofs.Session.Sendings

/-! Which moves give out boxes. Only operations that begin get boxes; what goes on, ends or is given
up gets none. And an operation that begins lets go of nothing, so that no move does both. -/
namespace WampClient

def Message.cancels : Message → Bool
  | .cancel .. => true
  | _ => false

def Command.cancels (command : Command) : Bool := command.message?.any Message.cancels

namespace Client

variable {c d : Client} {m : Move}

/-! ### Letting go -/

theorem nextBox_release (c : Client) (t : Ticket) : (c.release t).nextBox = c.nextBox := by
  have call : ∀ t : CallTicket, (c.release (.call t)).nextBox = c.nextBox := by
    intro t
    rw [release_call]
    cases t.settled <;> rfl
  cases t with
  | call t => exact call t
  | results t => exact call t
  | feed t =>
    rw [release_feed]
    split <;> rfl
  | invocation t =>
    rw [release_invocation]
    split <;> rfl

theorem nextBox_releases (c : Client) (ts : List Ticket) :
    (ts.foldl release c).nextBox = c.nextBox := by
  induction ts generalizing c with
  | nil => rfl
  | cons t rest ih => exact (ih _).trans (nextBox_release c t)

theorem nextBox_keep (c : Client) (name : String) (t : Ticket) :
    (c.keep name t).nextBox = c.nextBox := by
  rw [keep_eq]
  cases c.ticket? name with
  | none => rfl
  | some old => exact nextBox_release _ old

theorem nextBox_dropTicket (c : Client) (name : String) :
    (c.dropTicket name).nextBox = c.nextBox := by
  unfold dropTicket
  split
  · rfl
  · exact nextBox_release _ _

theorem nextBox_desists {number : Nat} (desists : c.Desists number d) :
    d.nextBox = c.nextBox := by
  cases desists with
  | released found =>
    rw [nextBox_releases, forgetAll_eq]
    rfl
  | kept found lent =>
    rw [nextBox_keep, forgetAll_eq]
    rfl

/-! ### Going on -/

theorem nextBox_takeItem (c : Client) (name : String) (t : FeedTicket) (keep : Option String)
    (p : Option Post) : (c.takeItem name t keep p).1.nextBox = c.nextBox := by
  rw [takeItem.eq_def]
  split
  · dsimp only
    split
    · rw [nextBox_keep, nextBox_keep]
    · rw [nextBox_release, nextBox_keep]
  · exact nextBox_keep _ _ _
  · exact nextBox_keep _ _ _

theorem nextBox_advance {w : Waiting} {next : Waiting ⊕ Outcome}
    (moved : c.advance w = some (d, next)) : d.nextBox = c.nextBox := by
  have mapped : ∀ {α : Type} {answer : Option α} {f : α → Client × (Waiting ⊕ Outcome)},
      answer.map f = some (d, next) → (∀ a, (f a).1.nextBox = c.nextBox) →
        d.nextBox = c.nextBox := by
    intro α answer f moved kept
    obtain ⟨a, -, same⟩ := Option.map_eq_some_iff.mp moved
    rw [← kept a, same]
  cases w with
  | call request procedure accepted box keep =>
    refine mapped moved fun answer => ?_
    cases answer with
    | error f => rfl
    | ok route =>
      cases keep with
      | none => rfl
      | some name => exact nextBox_keep _ _ _
  | lastOutcome t =>
    have ended : ∀ result, some ((c.settleCall t result).1, Sum.inr (c.settleCall t result).2) =
        some (d, next) → d.nextBox = c.nextBox := by
      intro result same
      obtain ⟨rfl, -⟩ := Prod.mk.inj (Option.some.inj same)
      exact nextBox_release _ _
    rw [advance] at moved
    dsimp only at moved
    split at moved
    · exact ended _ moved
    · split at moved
      · exact ended _ moved
      · split at moved
        · simp at moved
        · exact ended _ moved
  | nextOutcome name t stream =>
    rw [advance] at moved
    split at moved
    · obtain ⟨rfl, -⟩ := Prod.mk.inj (Option.some.inj moved)
      cases stream with
      | false => exact nextBox_keep _ _ _
      | true => exact nextBox_release c (.results t)
    · exact mapped moved fun came => nextBox_keep _ _ _
  | enrolment kind name pattern accepted reply box =>
    refine mapped moved fun answer => ?_
    cases judgeEnrolment kind pattern box answer with
    | ok t => exact nextBox_keep _ _ _
    | error f => rfl
  | publication topic accepted reply => exact mapped moved fun _ => rfl
  | sent box operation target back outcome =>
    refine mapped moved fun result => ?_
    cases back with
    | none => rfl
    | some e => exact nextBox_keep _ _ _
  | departure name t accepted reply => exact mapped moved fun _ => nextBox_keep _ _ _
  | nextItem name t keep => exact mapped moved fun p => nextBox_takeItem _ _ _ _ _
  | leave box => exact mapped moved fun _ => rfl
  | ending =>
    rw [advance] at moved
    split at moved
    · obtain ⟨rfl, -⟩ := Prod.mk.inj (Option.some.inj moved)
      rfl
    · simp at moved
  | cancellation name t =>
    rw [advance] at moved
    split at moved
    · obtain ⟨rfl, -⟩ := Prod.mk.inj (Option.some.inj moved)
      exact nextBox_keep _ _ _
    · split at moved
      · simp at moved
      · obtain ⟨rfl, -⟩ := Prod.mk.inj (Option.some.inj moved)
        exact nextBox_keep _ _ _

theorem nextBox_poll (c : Client) (number : Nat) : (c.poll number).nextBox = c.nextBox := by
  rw [poll]
  split
  · rfl
  · split
    · rfl
    next d waiting moved =>
      have same := nextBox_advance moved
      exact same
    next d outcome moved =>
      have same := nextBox_advance moved
      exact same

/-! ### Beginning -/

/-- No box is given out, or the session is left alone and asked for one thing. -/
inductive Opens (c d : Client) : Prop where
  | none (boxes : d.nextBox = c.nextBox)
  | one {command : Command} (session : d.session = c.session)
      (queue : d.commands = c.commands ++ [command]) (other : command.cancels = false)

theorem opens_whenEstablished (number : Nat) (operation : Operation) (target : String)
    {go : Client → Client} (goes : c.Opens (go c)) :
    c.Opens (c.whenEstablished number operation target go) :=
  whenEstablished_keeps (P := c.Opens) goes (.none rfl)

theorem opens_unlessInvalid {result : Except InvalidUri Client}
    (opens : ∀ d, result = .ok d → c.Opens d) : c.Opens (c.unlessInvalid result).1 := by
  cases result with
  | ok d => exact opens d rfl
  | error e => exact .none rfl

theorem opens_enrol (c : Client) (number : Nat) (kind : FeedKind) (pattern : UriPattern)
    (options : EnrolOptions) (name : String) :
    c.Opens (c.enrol number kind pattern options name) := by
  refine opens_whenEstablished _ _ _ (.one rfl rfl ?_)
  cases kind <;> rfl

theorem opens_onSession (c : Client) (number : Nat) (a : SessionAction) :
    c.Opens (c.onSession number a).1 := by
  cases a with
  | call uri payload options keep =>
    refine opens_unlessInvalid fun d made => ?_
    obtain ⟨procedure, -, same⟩ := ok_of_bind made
    obtain rfl := Except.ok.inj same
    exact opens_whenEstablished _ _ _ (.one rfl rfl rfl)
  | enrol kind uri options keep =>
    refine opens_unlessInvalid fun d made => ?_
    cases options with
    | none =>
      obtain ⟨pattern, -, same⟩ := ok_of_bind made
      obtain rfl := Except.ok.inj same
      exact opens_enrol c number kind _ _ keep
    | some options =>
      obtain ⟨pattern, -, same⟩ := ok_of_bind made
      obtain rfl := Except.ok.inj same
      exact opens_enrol c number kind _ _ keep
  | publish uri payload options =>
    refine opens_unlessInvalid fun d made => ?_
    obtain ⟨topic, -, same⟩ := ok_of_bind made
    obtain rfl := Except.ok.inj same
    refine opens_whenEstablished _ _ _ ?_
    dsimp only
    split
    · exact .one rfl rfl rfl
    · exact .one rfl rfl rfl
  | leave =>
    rw [onSession, leave]
    split
    · exact .none rfl
    · exact .one rfl rfl rfl
  | awaitEnd => exact .none rfl
  | inspect => exact .none rfl
  | drop =>
    rw [onSession]
    split <;> exact .none rfl

theorem opens_answer (c : Client) (number : Nat) (name : String) {t : InvocationTicket}
    {m : Message} {final : Bool} (answers : m.cancels = false) :
    c.Opens (c.answer number name t m final) := by
  unfold answer
  split
  · exact .none rfl
  · split
    · exact .none rfl
    · exact .one rfl rfl answers

theorem opens_onTicket (c : Client) (number : Nat) (name : String) (t : Ticket) {a : TicketAction}
    (other : ∀ mode, a ≠ .cancel mode) : c.Opens (c.onTicket number name t a).1 := by
  rw [onTicket.eq_def]
  split
  case h_6 => exact absurd rfl (other _)
  case h_2 => exact .none (nextBox_dropTicket c name)
  case h_7 => exact .none (nextBox_keep _ _ _)
  case h_8 t =>
    unfold depart
    split
    · exact .none rfl
    · dsimp only
      split
      · refine .one rfl rfl ?_
        cases kind : t.kind <;> rfl
      · exact .none (nextBox_keep _ _ _)
  case h_9 => split <;> exact .none rfl
  case h_10 => split <;> exact .none rfl
  case h_11 => exact opens_answer c number name rfl
  case h_12 => exact opens_answer c number name rfl
  case h_13 =>
    refine opens_unlessInvalid fun d made => ?_
    obtain ⟨e, -, same⟩ := ok_of_bind made
    obtain rfl := Except.ok.inj same
    exact opens_answer c number name rfl
  all_goals exact .none rfl

/-- Asking for a call to be canceled: at most this once. -/
theorem cancel_eq (c : Client) (number : Nat) (name : String) (t : CallTicket) (mode : CancelMode) :
    c.cancel number name t mode = if t.settled || t.cancelSent then c.conclude number .done else
      ((c.takeOut name).sendFor number false (.cancel t.id [("mode", .string mode.name)]) .cancel
        t.procedure.text (some (name, .call { t with cancelSent := true })) .done) := rfl

theorem opens_move (own : c.input? m = none)
    (other : ∀ number name mode, m ≠ .act number (.onTicket name (.cancel mode))) :
    c.Opens (c.move m) := by
  cases m with
  | arrive a => simp [input?] at own
  | elapse time => simp [input?] at own
  | serve =>
    rw [move, serve]
    split
    · exact .none rfl
    · exact .none rfl
  | poll number => exact .none (nextBox_poll c number)
  | act number a =>
    rw [move]
    split
    · exact .none rfl
    · cases a with
      | onSession a =>
        rw [act]
        split
        · exact opens_onSession c number a
        · exact .none rfl
      | onTicket name a =>
        rw [act]
        split
        · refine opens_onTicket c number name _ fun mode same => ?_
          exact other number name mode (same ▸ rfl)
        · exact .none rfl
      | abandon number =>
        rw [act]
        split
        next abandoned => exact .none (nextBox_desists (desists_of_abandon abandoned))
        next => exact .none rfl
      | desist number =>
        rw [act]
        split
        next desisted => exact .none (nextBox_desists (desists_of_desist desisted))
        next => exact .none rfl

/-- No move gives out boxes and changes anything about the session. -/
theorem session_or_boxes (own : c.input? m = none) :
    (c.move m).session = c.session ∨ (c.move m).nextBox = c.nextBox := by
  by_cases cancels : ∃ number name mode, m = .act number (.onTicket name (.cancel mode))
  · obtain ⟨number, name, mode, rfl⟩ := cancels
    left
    rw [move, act]
    split
    · rfl
    · split
      next t found =>
        cases t with
        | call t =>
          change (c.cancel number name t mode).session = c.session
          rw [cancel_eq]
          split <;> rfl
        | _ => rfl
      next => rfl
  · rw [not_exists] at cancels
    have other : ∀ number name mode, m ≠ .act number (.onTicket name (.cancel mode)) :=
      fun number name mode same => cancels number ⟨name, mode, same⟩
    cases opens_move own other with
    | none boxes => exact Or.inr boxes
    | one session queue other => exact Or.inl session

end Client

end WampClient
