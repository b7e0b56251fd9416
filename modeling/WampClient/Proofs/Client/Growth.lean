import WampClient.Proofs.Client.Parts
import WampClient.Proofs.Session.Apart

/-! What a client does between the steps of its session. It may let go of boxes and queue up
commands, each of which has boxes of its own; the one that somebody waits on comes right after the
box of the acceptance. -/
namespace WampClient

def Command.answer? : Command → Option Box
  | .send _ answer => answer
  | .request _ _ _ answer => answer
  | .removeRoute _ => none
  | .close answer => answer

theorem Command.feeds_of_waiter {command : Command} {b : Box} (waits : command.waiter? = some b) :
    command.feeds b = true := by
  cases command with
  | request m keys target answer =>
    have own : target.waiter? = some b := waits
    rcases target with ⟨own', change⟩ | own' | feed | cell <;>
      simp_all [Target.waiter?, Command.feeds, Target.feeds]
  | _ => simp [Command.waiter?] at waits

namespace Client

variable {c d e : Client}

/-- How often somebody waits on the box because of these commands. -/
def asking (commands : List Command) (b : Box) : Nat :=
  commands.countP fun command => command.waiter? == some b

/-- How many of these commands have something put into the box. -/
def feeding (commands : List Command) (b : Box) : Nat :=
  commands.countP fun command => command.feeds b

theorem asking_le_feeding (commands : List Command) (b : Box) :
    asking commands b ≤ feeding commands b :=
  List.countP_mono_left fun _ _ waits => Command.feeds_of_waiter (by simpa using waits)

/-- Commands that were issued while the boxes from `first` up to `next` were given out. -/
structure Issued (first next : Box) (commands : List Command) : Prop where
  fresh : ∀ command ∈ commands, ∀ b, command.feeds b = true → first ≤ b ∧ b < next
  follows : ∀ command ∈ commands, ∀ b a, command.waiter? = some b → command.answer? = some a →
    b = a + 1
  single : ∀ b, feeding commands b ≤ 1

theorem Issued.born {first next : Box} {commands : List Command}
    (issued : Issued first next commands) {command : Command} (there : command ∈ commands) {b : Box}
    (waits : command.waiter? = some b) : first ≤ b ∧ b < next :=
  issued.fresh command there b (Command.feeds_of_waiter waits)

structure Grows (c d : Client) : Prop where
  session : ∃ boxes, d.session = { c.session with gone := boxes ++ c.session.gone }
  boxes : c.nextBox ≤ d.nextBox
  commands : ∃ new, d.commands = c.commands ++ new ∧ Issued c.nextBox d.nextBox new

theorem issued_nil (first next : Box) : Issued first next [] :=
  ⟨by simp, by simp, fun _ => Nat.zero_le _⟩

theorem asking_pos {commands : List Command} {b : Box} :
    0 < asking commands b ↔ ∃ command ∈ commands, command.waiter? = some b := by
  simp [asking, List.countP_pos_iff]

theorem feeding_pos {commands : List Command} {b : Box} :
    0 < feeding commands b ↔ ∃ command ∈ commands, command.feeds b = true := by
  simp [feeding, List.countP_pos_iff]

theorem asking_append (before after : List Command) (b : Box) :
    asking (before ++ after) b = asking before b + asking after b := List.countP_append

theorem feeding_append (before after : List Command) (b : Box) :
    feeding (before ++ after) b = feeding before b + feeding after b := List.countP_append

theorem Issued.append {first middle next : Box} {before after : List Command}
    (one : Issued first middle before) (two : Issued middle next after) (le : first ≤ middle)
    (le' : middle ≤ next) : Issued first next (before ++ after) where
  fresh command there b feeds := by
    rcases List.mem_append.mp there with there | there
    · obtain ⟨low, high⟩ := one.fresh command there b feeds
      exact ⟨low, Nat.lt_of_lt_of_le high le'⟩
    · obtain ⟨low, high⟩ := two.fresh command there b feeds
      exact ⟨Nat.le_trans le low, high⟩
  follows command there :=
    (List.mem_append.mp there).elim (one.follows command) (two.follows command)
  single b := by
    rw [feeding_append]
    have first' := one.single b
    have second := two.single b
    by_contra both
    obtain ⟨command, there, feeds⟩ := feeding_pos.mp (show 0 < feeding before b by omega)
    obtain ⟨command', there', feeds'⟩ := feeding_pos.mp (show 0 < feeding after b by omega)
    have high := (one.fresh command there b feeds).2
    have low := (two.fresh command' there' b feeds').1
    exact absurd high (Nat.not_lt_of_le low)

theorem Grows.trans (one : c.Grows d) (two : d.Grows e) : c.Grows e where
  session := by
    obtain ⟨boxes, same⟩ := one.session
    obtain ⟨boxes', same'⟩ := two.session
    exact ⟨boxes' ++ boxes, by rw [same', same]; simp⟩
  boxes := Nat.le_trans one.boxes two.boxes
  commands := by
    obtain ⟨new, same, issued⟩ := one.commands
    obtain ⟨new', same', issued'⟩ := two.commands
    exact ⟨new ++ new', by rw [same', same, List.append_assoc],
      issued.append issued' one.boxes two.boxes⟩

theorem grows_quiet (session : d.session = c.session) (commands : d.commands = c.commands)
    (boxes : c.nextBox ≤ d.nextBox) : c.Grows d :=
  ⟨⟨[], by rw [session]; rfl⟩, boxes, [], by rw [commands, List.append_nil], issued_nil _ _⟩

theorem Grows.refl (c : Client) : c.Grows c := grows_quiet rfl rfl (Nat.le_refl _)

/-- A command is issued with new boxes, if it has any. -/
theorem grows_command {command : Command} (session : d.session = c.session)
    (boxes : c.nextBox ≤ d.nextBox) (commands : d.commands = c.commands ++ [command])
    (fresh : ∀ b, command.feeds b = true → c.nextBox ≤ b ∧ b < d.nextBox)
    (follows : ∀ b a, command.waiter? = some b → command.answer? = some a → b = a + 1) :
    c.Grows d := by
  refine ⟨⟨[], by rw [session]; rfl⟩, boxes, _, commands, ?_, ?_, fun b => List.countP_le_length⟩
  · intro other there
    rw [List.mem_singleton.mp there]
    exact fresh
  · intro other there
    rw [List.mem_singleton.mp there]
    exact follows

theorem grows_issue (c : Client) (command : Command) (idle : ∀ b, command.feeds b = false) :
    c.Grows (c.issue command) :=
  grows_command rfl (Nat.le_refl _) rfl (fun b feeds => by simp [idle b] at feeds)
    fun b _ waits _ => absurd (Command.feeds_of_waiter waits) (by simp [idle b])

/-- A request is issued with two new boxes, and maybe more. -/
theorem grows_request {m : Message} {keys : List RouteKey} {target : Target} {more : Nat}
    (session : d.session = c.session) (boxes : d.nextBox = c.nextBox + 2 + more)
    (commands : d.commands = c.commands ++ [.request m keys target (some c.nextBox)])
    (waits : target.waiter? = some (c.nextBox + 1))
    (fresh : ∀ b, target.feeds b = true → ∃ place ≤ more, b = c.nextBox + 1 + place) :
    c.Grows d := by
  have between : ∀ n place : Nat, place ≤ more → n ≤ n + 1 + place ∧ n + 1 + place < n + 2 + more :=
    fun n place le => by omega
  have later : ∀ n : Nat, n ≤ n + 2 + more ∧ n < n + 2 + more := fun n => by omega
  refine grows_command session (boxes ▸ (later _).1) commands ?_ ?_
  · rw [boxes]
    intro b feeds
    rcases Bool.or_eq_true_iff.mp feeds with own | feeds
    · obtain rfl : c.nextBox = b := by simpa using own
      exact ⟨Nat.le_refl _, (later _).2⟩
    · obtain ⟨place, le, rfl⟩ := fresh b feeds
      exact between _ place le
  · intro b a waits' answers
    have own : target.waiter? = some b := waits'
    rw [← Option.some.inj answers, Option.some.inj (own.symm.trans waits)]

/-- A command is issued with one new box. -/
theorem grows_asking {command : Command} (session : d.session = c.session)
    (boxes : d.nextBox = c.nextBox + 1) (commands : d.commands = c.commands ++ [command])
    (fresh : ∀ b, command.feeds b = true → c.nextBox = b) (idle : command.waiter? = none) :
    c.Grows d := by
  refine grows_command session (boxes ▸ Nat.le_succ _) commands (fun b feeds => ?_)
    fun b a waits => by simp [idle] at waits
  obtain rfl := fresh b feeds
  exact ⟨Nat.le_refl _, boxes ▸ Nat.lt_succ_self _⟩

theorem grows_forget (c : Client) (box : Box) : c.Grows (c.forget box) :=
  ⟨⟨[box], rfl⟩, Nat.le_refl _, [], by simp [forget], issued_nil _ _⟩

theorem grows_drawId (c : Client) : c.Grows c.drawId.2 := grows_quiet rfl rfl (Nat.le_refl _)

theorem grows_conclude (c : Client) (number : Nat) (outcome : Outcome) :
    c.Grows (c.conclude number outcome) := grows_quiet rfl rfl (Nat.le_refl _)

/-! ### Parts of a move -/

theorem grows_sendFor (c : Client) (number : Nat) (onSession : Bool) (m : Message)
    (operation : Operation) (target : String) (back : Option (String × Ticket))
    (outcome : Outcome) :
    c.Grows (c.sendFor number onSession m operation target back outcome) := by
  refine grows_asking rfl rfl rfl (fun b feeds => ?_) rfl
  simpa [Command.feeds, newBox] using feeds

theorem grows_whenEstablished (c : Client) (number : Nat) (operation : Operation)
    (target : String) {go : Client → Client} (goes : c.Grows (go c)) :
    c.Grows (c.whenEstablished number operation target go) :=
  whenEstablished_keeps (P := c.Grows) goes (grows_conclude c number _)

theorem grows_call (c : Client) (number : Nat) (procedure : Uri) (payload : Payload)
    (options : CallOptions) (keep : Option String) :
    c.Grows (c.call number procedure payload options keep) := by
  refine grows_whenEstablished c number _ _ ?_
  refine grows_request rfl rfl rfl rfl fun b feeds => ⟨0, Nat.le_refl 0, ?_⟩
  have own : c.nextBox + 1 = b := by simpa [Target.feeds] using feeds
  exact own.symm

theorem grows_enrol (c : Client) (number : Nat) (kind : FeedKind) (pattern : UriPattern)
    (options : EnrolOptions) (name : String) :
    c.Grows (c.enrol number kind pattern options name) := by
  refine grows_whenEstablished c number _ _ ?_
  refine grows_request rfl rfl rfl rfl fun b feeds => ?_
  have own : c.nextBox + 1 = b ∨ c.nextBox + 2 = b := by simpa [Target.feeds] using feeds
  rcases own with rfl | rfl
  · exact ⟨0, Nat.zero_le 1, rfl⟩
  · exact ⟨1, Nat.le_refl 1, rfl⟩

theorem grows_publish (c : Client) (number : Nat) (topic : Uri) (payload : Payload)
    (options : PublishOptions) : c.Grows (c.publish number topic payload options) := by
  refine grows_whenEstablished c number _ _ ?_
  dsimp only
  split
  · refine grows_request rfl rfl rfl rfl fun b feeds => ⟨0, Nat.le_refl 0, ?_⟩
    have own : c.nextBox + 1 = b := by simpa [Target.feeds, newBox, drawId] using feeds
    exact own.symm
  · exact (grows_drawId c).trans (grows_sendFor _ number true _ .publish topic.text none _)

theorem grows_leave (c : Client) (number : Nat) : c.Grows (c.leave number) := by
  unfold leave
  split
  · exact grows_conclude c number _
  · refine grows_asking rfl rfl rfl (fun b feeds => ?_) rfl
    simpa [Command.feeds, newBox] using feeds

theorem grows_departing (c : Client) (number : Nat) (name : String) (t : FeedTicket) :
    c.Grows (c.departing number name t) := by
  refine grows_request rfl rfl rfl rfl fun b feeds => ⟨0, Nat.le_refl 0, ?_⟩
  have own : c.nextBox + 1 = b := by simpa [Target.feeds] using feeds
  exact own.symm

theorem grows_departDetached (c : Client) (t : FeedTicket) : c.Grows (c.departDetached t) := by
  refine (grows_drawId c).trans ?_
  unfold departDetached
  exact grows_issue _ _ fun _ => rfl

theorem grows_release (c : Client) (t : Ticket) : c.Grows (c.release t) := by
  have call : ∀ t : CallTicket, c.Grows (c.release (.call t)) := by
    intro t
    rw [release_call]
    refine Grows.trans ?_ (grows_forget _ _)
    split
    · exact Grows.refl c
    · exact grows_issue c _ fun _ => rfl
  cases t with
  | call t => exact call t
  | results t => exact call t
  | feed t =>
    rw [release_feed]
    refine Grows.trans ?_ (grows_forget _ _)
    split
    · exact Grows.refl c
    · exact grows_departDetached c t
  | invocation t =>
    rw [release_invocation]
    split
    · exact Grows.refl c
    · exact grows_issue c _ fun _ => rfl

variable {w w' : Work}

theorem grows_forgetAll (c : Client) (boxes : List Box) : c.Grows (boxes.foldl forget c) := by
  induction boxes generalizing c with
  | nil => exact Grows.refl c
  | cons box rest ih => exact (grows_forget c box).trans (ih _)

theorem grows_without (c : Client) (number : Nat) : c.Grows (c.without number) :=
  grows_quiet rfl rfl (Nat.le_refl _)

theorem Part.grows (part : Part w w') : w.client.Grows w'.client := by
  cases part with
  | concluded number outcome => exact grows_conclude _ number outcome
  | called fresh procedure payload options keep =>
    exact grows_call _ _ procedure payload options keep
  | enrolled fresh kind pattern options name => exact grows_enrol _ _ kind pattern options name
  | published fresh topic payload options => exact grows_publish _ _ topic payload options
  | left fresh => exact grows_leave _ _
  | dropped =>
    exact (grows_issue _ (.close none) fun _ => rfl).trans (grows_quiet rfl rfl (Nat.le_refl _))
  | released t => exact grows_release _ t
  | canceled fresh name more first mode => exact grows_sendFor _ _ false _ _ _ _ _
  | answered fresh name first answers => exact grows_sendFor _ _ false _ _ _ _ _
  | departed fresh name first live => exact grows_departing _ _ name _
  | gaveUp there => exact (grows_without _ _).trans (grows_forgetAll _ _)
  | _ => exact grows_quiet rfl rfl (Nat.le_refl _)

theorem Parts.grows (parts : Parts w w') : w.client.Grows w'.client := by
  induction parts with
  | refl => exact Grows.refl _
  | tail _ part ih => exact ih.trans part.grows

theorem Resumes.grows {tasks : List Task} {v : Waiting} {outcome : Outcome}
    (resumes : c.Resumes tasks v outcome w) : c.Grows w.client := by
  have quiet : c.Grows { c with tasks } := grows_quiet rfl rfl (Nat.le_refl _)
  cases resumes with
  | resumed yields => exact quiet
  | refused bare own => exact quiet.trans (grows_forget _ _)
  | @settled t waits =>
    have released := grows_release { c with tasks } (.call { t with settled := true })
    exact quiet.trans released
  | ceased waits => exact quiet.trans (grows_issue _ _ fun _ => rfl)

theorem Polls.grows {number : Nat} (polls : c.Polls number d) : c.Grows d := by
  cases polls with
  | still none' => exact Grows.refl c
  | turned found moved waits was => exact grows_quiet rfl rfl (Nat.le_refl _)
  | ended found moved resumes parts => exact resumes.grows.trans parts.grows

end Client

end WampClient
