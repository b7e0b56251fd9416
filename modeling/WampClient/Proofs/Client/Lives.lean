import WampClient.Client.Stage
import WampClient.Proofs.Client.Drawing

/-! The life of a session, from the moment in which it sets out to join its realm. Whatever happens,
in whatever order, it comes through its phases as it may and takes leave of the realm once at
most. -/
namespace WampClient

/-! ### While the realm is being joined -/

namespace Handshake

variable {h h' : Handshake}

/-- The handshake goes on to say something, and does not take leave. -/
def Speaks (h h' : Handshake) : Prop :=
  ∃ said, h'.wire.sent = h.wire.sent ++ said ∧ ∀ i ∈ said, i.isGoodbye = false

theorem Speaks.refl (h : Handshake) : h.Speaks h := ⟨[], by rw [List.append_nil], by simp⟩

theorem speaks_transmitAnyway (h : Handshake) {i : StreamItem} (other : i.isGoodbye = false) :
    h.Speaks (h.transmitAnyway i) := by
  rcases h.wire.sent_send i with same | sent
  · exact ⟨[], by rw [List.append_nil]; exact same, by simp⟩
  · exact ⟨[i], sent, by simpa using other⟩

theorem speaks_aborting (h : Handshake) (complaint : Complaint) (text : String) (f : Failure) :
    h.Speaks ((h.sayAbort complaint text).fail f).1 := speaks_transmitAnyway h rfl

theorem speaks_sendOrFail (h : Handshake) {m : Message} (other : m.isGoodbye = false) :
    h.Speaks (h.sendOrFail m).1 := by
  have sent := speaks_transmitAnyway h (i := .message m) other
  unfold sendOrFail
  unfold transmitAnyway at sent
  rcases went : h.wire.send (.message m) with ⟨wire, trouble⟩
  rw [went] at sent
  cases trouble with
  | none => exact sent
  | some description => exact sent

theorem speaks_receive (h : Handshake) (m : Message) : h.Speaks (h.receive m).1 := by
  cases m with
  | welcome id details =>
    unfold receive receiveWelcome
    dsimp only
    split
    · exact .refl h
    · split
      · exact .refl h
      · exact speaks_aborting h _ _ _
  | challenge method extra =>
    unfold receive receiveChallenge
    dsimp only
    split
    · exact speaks_aborting h _ _ _
    · split
      · exact speaks_sendOrFail _ rfl
      · exact speaks_aborting h _ _ _
  | abort details reason payload => exact .refl h
  | _ => exact speaks_aborting h _ _ _

theorem speaks_take (h : Handshake) (m : Move) : h.Speaks (h.take m).1 := by
  cases m with
  | arrive a =>
    cases a with
    | item i =>
      cases i with
      | message m => exact speaks_receive h m
      | ping data => exact speaks_transmitAnyway h rfl
    | failed description => exact .refl h
    | ended => exact .refl h
  | elapse time =>
    unfold take elapse
    dsimp only
    split
    · exact speaks_aborting _ _ _ _
    · exact .refl h
  | _ => exact .refl h

end Handshake

namespace Client

variable {c d : Client} {cmds : List Command}

/-- No command that waits has a GOODBYE sent in so many words. -/
def Polite (c : Client) : Prop := ∀ command ∈ c.commands, command.saysGoodbye = false

theorem Polite.draws (polite : c.Polite) (draws : c.Draws d) : d.Polite := by
  obtain ⟨new, commands, polite', -⟩ := draws
  intro command there
  rw [commands] at there
  exact (List.mem_append.mp there).elim (polite command) (polite' command)

theorem Polite.moves (polite : c.Polite) (moves : c.Moves cmds d) : d.Polite := by
  cases moves with
  | takes input outer heeds => exact polite
  | serves next => exact fun command there => polite command (next ▸ List.mem_cons_of_mem _ there)
  | acts parts => exact polite.draws (Parts.draws parts)
  | polls polls => exact polite.draws polls.draws

theorem grows_act (c : Client) (number : Nat) (a : Action) : c.Grows (c.move (.act number a)) := by
  rw [move]
  split
  · exact Grows.refl c
  next free =>
    have fresh : ∀ task ∈ c.tasks, task.number ≠ number := by simpa using free
    exact Parts.grows (parts_act fresh a)

theorem Grows.outward (grows : c.Grows d) : d.session.outward = c.session.outward := by
  obtain ⟨boxes, same⟩ := grows.session
  rw [same]
  rfl

end Client

namespace Stage

variable {leave : Option CloseReason} {s : Stage} {happenings : List Happening}

/-- The session as it is seen from outside. One that was never begun is at its beginning. -/
def front (s : Stage) : Front := ⟨s.lifecycle?.getD .begun, s.wire.sent⟩

/-- Why an established session takes leave of its realm with what happens: it takes up a command to
close, or nobody is left who could give one, or the peer says GOODBYE. -/
def leave? : Stage → Happening → Option CloseReason
  | .joined c, .moves .serve => c.commands.head?.bind fun command => (Input.command command).leave?
  | .joined _, .moves (.arrive a) => (Input.arrival a).leave?
  | .joined _, .orphaned => Input.orphaned.leave?
  | _, _ => none

/-- The commands that wait, if there is a client, take no leave in so many words. -/
def Polite : Stage → Prop
  | .joined c => c.Polite
  | _ => True

/-! ### What is seen -/

theorem front_proceed (h : Handshake) (verdict : Verdict) :
    (proceed (h, verdict)).front = ⟨verdict.lifecycle, h.wire.sent⟩ := by
  cases verdict <;> rfl

theorem path_said {l : Lifecycle} {sent said : List StreamItem}
    (other : ∀ i ∈ said, i.isGoodbye = false) :
    Front.Path leave ⟨l, sent⟩ ⟨l, sent ++ said⟩ := by
  induction said generalizing sent with
  | nil =>
    rw [List.append_nil]
  | cons i rest ih =>
    have first : Front.Step leave ⟨l, sent⟩ ⟨l, sent ++ [i]⟩ :=
      .speaks l sent (other i List.mem_cons_self)
    have later : Front.Path leave ⟨l, sent ++ [i]⟩ ⟨l, sent ++ [i] ++ rest⟩ :=
      ih fun j there => other j (List.mem_cons_of_mem _ there)
    rw [List.append_assoc] at later
    exact .head first later

theorem path_verdict (verdict : Verdict) (sent : List StreamItem) :
    Front.Path leave ⟨.joining, sent⟩ ⟨verdict.lifecycle, sent⟩ := by
  cases verdict with
  | waiting => exact .refl
  | joined id details =>
    have joins : Front.Step leave ⟨.joining, sent⟩ ⟨Lifecycle.joining.enter .established, sent⟩ :=
      .enters sent rfl
    exact .single joins
  | failed f =>
    have ends : Front.Step leave ⟨.joining, sent⟩ ⟨Lifecycle.joining.enter .closed, sent⟩ :=
      .enters sent rfl
    exact .single ends

theorem path_proceed {h : Handshake} {out : Handshake × Verdict} (speaks : h.Speaks out.1) :
    Front.Path leave ⟨.joining, h.wire.sent⟩ (proceed out).front := by
  obtain ⟨said, sent, other⟩ := speaks
  rw [front_proceed, sent]
  exact (path_said other).trans (path_verdict _ _)

theorem path_begin (config : Config) (wire : Wire) (now : Nat) :
    Front.Path leave ⟨.begun, wire.sent⟩ (begin config wire now).front := by
  unfold begin
  split
  · exact .refl
  · have sets : Front.Step leave ⟨.begun, wire.sent⟩
        ⟨Lifecycle.begun.enter .handshaking, wire.sent⟩ := .enters wire.sent rfl
    exact .head sets (path_proceed
      (h := ⟨config, wire, now, now + config.handshakeTimeout⟩)
      (Handshake.speaks_sendOrFail _ rfl))

theorem path_joined (c : Client) (polite : c.Polite) (m : Move) :
    Front.Path ((joined c).leave? (.moves m)) (joined c).front (joined (c.move m)).front := by
  cases m with
  | arrive a => exact Session.path_step c.session (by simp)
  | elapse time =>
    have path : Front.Path (Input.elapse time).leave? c.session.front
        (c.session.step (.elapse time)).front := Session.path_step c.session (by simp)
    exact path
  | serve =>
    rcases waiting : c.commands with _ | ⟨command, rest⟩
    · have same : c.move .serve = c := by rw [Client.move, Client.serve, waiting]
      rw [same]
    · have served : c.move .serve =
          { c with session := c.session.step (.command command), commands := rest } := by
        rw [Client.move, Client.serve, waiting]
      have called : (joined c).leave? (.moves .serve) = (Input.command command).leave? := by
        rw [leave?, waiting]
        rfl
      rw [served, called]
      refine Session.path_step c.session fun other same => ?_
      obtain rfl := Input.command.inj same
      exact polite command (waiting ▸ List.mem_cons_self)
  | poll number =>
    have same : (joined (c.move (.poll number))).front = (joined c).front :=
      Session.front_congr (Client.polls c number).grows.outward
    rw [same]
  | act number a =>
    have same : (joined (c.move (.act number a))).front = (joined c).front :=
      Session.front_congr (Client.grows_act c number a).outward
    rw [same]

/-- Whatever happens is seen as a path. -/
theorem path_happen (s : Stage) (polite : s.Polite) (h : Happening) :
    Front.Path (s.leave? h) s.front (s.happen h).front := by
  cases s with
  | unjoined wire lifecycle => cases h <;> exact .refl
  | joining hs =>
    cases h with
    | moves m => exact path_proceed (Handshake.speaks_take hs m)
    | orphaned => exact .refl
    | abandoned => exact .refl
  | joined c =>
    cases h with
    | moves m => exact path_joined c polite m
    | orphaned =>
      have path : Front.Path Input.orphaned.leave? c.session.front
          (c.session.step .orphaned).front := Session.path_step c.session (by simp)
      exact path
    | abandoned => exact .refl

theorem polite_proceed (out : Handshake × Verdict) : (proceed out).Polite := by
  obtain ⟨h, _ | ⟨id, details⟩ | f⟩ := out
  · trivial
  · exact fun command there => nomatch there
  · trivial

theorem Polite.happen (polite : s.Polite) (h : Happening) : (s.happen h).Polite := by
  cases s with
  | unjoined wire lifecycle => cases h <;> trivial
  | joining hs =>
    cases h with
    | moves m => exact polite_proceed (hs.take m)
    | orphaned => trivial
    | abandoned => trivial
  | joined c =>
    cases h with
    | moves m => exact Client.Polite.moves polite (c.moves m)
    | orphaned => exact polite
    | abandoned => exact polite

theorem polite_begin (config : Config) (wire : Wire) (now : Nat) :
    (begin config wire now).Polite := by
  unfold begin
  split
  · trivial
  · exact polite_proceed _

/-! ### Runs -/

theorem run_append (s : Stage) (before after : List Happening) :
    s.run (before ++ after) = (s.run before).run after := List.foldl_append

theorem Polite.run (polite : s.Polite) (happenings : List Happening) :
    (s.run happenings).Polite := by
  induction happenings generalizing s with
  | nil => exact polite
  | cons h rest ih => exact ih (polite.happen h)

/-- A session that has a life keeps it, and one that has none gets none. -/
theorem lived_happen (s : Stage) (h : Happening) :
    (s.happen h).lifecycle?.isSome = s.lifecycle?.isSome := by
  cases s with
  | unjoined wire lifecycle => cases h <;> rfl
  | joining hs =>
    cases h with
    | moves m =>
      have taken : (joining hs).happen (.moves m) = proceed (hs.take m) := rfl
      rw [taken]
      rcases hs.take m with ⟨h', _ | ⟨id, details⟩ | f⟩ <;> rfl
    | orphaned => rfl
    | abandoned => rfl
  | joined c => cases h <;> rfl

theorem lived_run (s : Stage) (happenings : List Happening) :
    (s.run happenings).lifecycle?.isSome = s.lifecycle?.isSome := by
  induction happenings generalizing s with
  | nil => rfl
  | cons h rest ih => exact (ih _).trans (lived_happen s h)

theorem front_of_lifecycle {l : Lifecycle} (lives : s.lifecycle? = some l) :
    s.front.lifecycle = l := by
  rw [front, lives, Option.getD_some]

theorem continues_run (polite : s.Polite) (happenings : List Happening) :
    s.front.lifecycle.Continues (s.run happenings).front.lifecycle := by
  induction happenings generalizing s with
  | nil => exact .refl _
  | cons h rest ih => exact (path_happen s polite h).continues.trans (ih (polite.happen h))

theorem lawful_run (polite : s.Polite) (lawful : s.front.lifecycle.Lawful)
    (happenings : List Happening) : (s.run happenings).front.lifecycle.Lawful := by
  induction happenings generalizing s with
  | nil => exact lawful
  | cons h rest ih => exact ih (polite.happen h) ((path_happen s polite h).lawful lawful)

/-- Leave is taken once at most, and for a reason. -/
theorem goodbyes_run (polite : s.Polite) (silent : s.front.goodbyes = [])
    (happenings : List Happening) :
    (s.run happenings).front.goodbyes = [] ∨
      Phase.established.rank < (s.run happenings).front.lifecycle.phase.rank ∧
        ∃ before h after reason, happenings = before ++ h :: after ∧
          (s.run before).leave? h = some reason ∧
            (s.run happenings).front.goodbyes = [.message reason.goodbye] := by
  induction happenings using List.reverseRecOn with
  | nil => exact Or.inl silent
  | append_singleton earlier h ih =>
    have path := path_happen (s.run earlier) (polite.run earlier) h
    have all : s.run (earlier ++ [h]) = (s.run earlier).happen h := run_append s earlier [h]
    rw [all]
    rcases path.goodbyes with same | ⟨low, high, reason, called, said⟩
    · rw [same]
      refine ih.imp_right fun ⟨high, before, h', after, reason, split, called, said⟩ => ?_
      refine ⟨Nat.lt_of_lt_of_le high path.continues.onward, before, h', after ++ [h], reason, ?_,
        called, said⟩
      rw [split, List.append_assoc, List.cons_append]
    · rcases ih with none' | ⟨beyond, -⟩
      · rw [none', List.nil_append] at said
        exact Or.inr ⟨high, earlier, h, [], reason, rfl, called, said⟩
      · exact absurd low (Nat.not_le_of_lt beyond)

/-- Whatever happens to a session from the moment in which it sets out to join its realm, it comes
through its phases as it may, gets on with each one and never leaves the last; it is never to enter
one that it could not; and it takes leave of the realm once at most, because it is asked to, or is
left alone, or the peer does so. -/
theorem life_gets_on (config : Config) (fate : Nat → Option String) (now : Nat)
    (happenings : List Happening) :
    let life := (begin config (Wire.fresh fate) now).run
    (∀ l, (life happenings).lifecycle? = some l → l.Lawful ∧
      l.published.Pairwise fun p q => p.rank < q.rank) ∧
    (∀ before after, happenings = before ++ after → ∀ l, (life before).lifecycle? = some l →
      ∃ l', (life happenings).lifecycle? = some l' ∧ l.Continues l') ∧
    ((life happenings).wire.sent.filter StreamItem.isGoodbye = [] ∨
      ∃ before h after reason, happenings = before ++ h :: after ∧
        (life before).leave? h = some reason ∧
          (life happenings).wire.sent.filter StreamItem.isGoodbye = [.message reason.goodbye]) := by
  intro life
  have polite := polite_begin config (Wire.fresh fate) now
  have started : Front.Path none ⟨.begun, []⟩ (begin config (Wire.fresh fate) now).front :=
    path_begin config (Wire.fresh fate) now
  refine ⟨fun l lives => ?_, ?_, ?_⟩
  · have lawful := lawful_run polite (started.lawful Lifecycle.lawful_begun) happenings
    rw [front_of_lifecycle lives] at lawful
    exact ⟨lawful, lawful.advances⟩
  · rintro before after rfl l lives
    have lived : (life (before ++ after)).lifecycle?.isSome := by
      have known : (life before).lifecycle?.isSome := by rw [lives]; rfl
      rwa [lived_run] at known ⊢
    obtain ⟨l', lives'⟩ := Option.isSome_iff_exists.mp lived
    have continues := continues_run (polite.run before) after
    rw [← run_append, front_of_lifecycle lives, front_of_lifecycle lives'] at continues
    exact ⟨l', lives', continues⟩
  · have silent : (begin config (Wire.fresh fate) now).front.goodbyes = [] := by
      rcases started.goodbyes with same | ⟨-, -, reason, called, -⟩
      · exact same
      · exact nomatch called
    exact (goodbyes_run polite silent happenings).imp_right And.right

end Stage

end WampClient
