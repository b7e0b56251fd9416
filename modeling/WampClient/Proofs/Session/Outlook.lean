import WampClient.Proofs.Session.Apart
import WampClient.Proofs.Session.Sound

/-! A box that one route alone can put something into. What the rest of a session does leaves the
box alone: it neither puts anything in nor gives the route back once it is gone, and the session's
end puts in what is due to the route. -/
namespace WampClient

/-- What a session looks like to someone who waits on a box: what lies in the box, whether more may
be put in, and whether the session is over. -/
structure Outlook where
  posts : List Post
  fed : Bool
  closed : Bool

/-- What is put into the box for a target when the session ends with a failure. -/
def Target.lastPostsTo (b : Box) (f : Failure) (t : Target) : List Post :=
  (t.lastPosts f).filterMap fun e => if e.1 = b then some e.2 else none

namespace Outlook

/-- After the end of a session in which the target alone feeds the box. A session ends once. -/
def ended (o : Outlook) (b : Box) (t : Target) (f : Failure) : Outlook :=
  if o.closed then o else ⟨o.posts ++ if o.fed then t.lastPostsTo b f else [], false, true⟩

/-- Once the route has been taken out, if it has. -/
def withdrawnIf (o : Outlook) (gives : Bool) : Outlook := { o with fed := o.fed && !gives }

@[simp] theorem withdrawnIf_false (o : Outlook) : o.withdrawnIf false = o := by
  simp [withdrawnIf]

theorem withdrawnIf_or (o : Outlook) (p q : Bool) :
    o.withdrawnIf (p || q) = (o.withdrawnIf p).withdrawnIf q := by
  simp [withdrawnIf, Bool.and_assoc]

/-- It makes no difference which comes first, the end or the loss of the route, where the route is
due nothing. -/
theorem withdrawnIf_ended (o : Outlook) {b : Box} {t : Target} (f : Failure) {gives : Bool}
    (free : (∀ f, t.lastPostsTo b f = []) ∨ gives = false) :
    (o.ended b t f).withdrawnIf gives = (o.withdrawnIf gives).ended b t f := by
  rcases free with free | rfl
  · cases h : o.closed <;> simp [ended, withdrawnIf, h, free f]
  · simp

theorem ended_ended (o : Outlook) (b : Box) (t : Target) (f g : Failure) :
    (o.ended b t f).ended b t g = o.ended b t f := by
  unfold ended
  split
  · rfl
  · rfl

end Outlook

theorem Target.lastPostsTo_of_not_feeds {b : Box} {t : Target} (silent : t.feeds b = false)
    (f : Failure) : t.lastPostsTo b f = [] := by
  rcases t with ⟨_ | own, change⟩ | own | feed | cell <;>
    simp_all [lastPostsTo, lastPosts, feeds]

/-- Where one route at most feeds the box, only that one is due something in it. -/
theorem flatMap_lastPostsTo {x : Route Target} {b : Box} {routes : List (Route Target)}
    (ordered : routes.Pairwise fun y z => y.handle < z.handle)
    (only : ∀ y ∈ routes, y.handler.feeds b = true → y = x) (f : Failure) :
    (routes.flatMap fun y => y.handler.lastPostsTo b f) =
      if routes.any (fun y => y.handler.feeds b) then x.handler.lastPostsTo b f else [] := by
  induction routes with
  | nil => rfl
  | cons y rest ih =>
    obtain ⟨least, ordered⟩ := List.pairwise_cons.mp ordered
    have others := ih ordered fun z hz => only z (List.mem_cons_of_mem _ hz)
    rw [List.flatMap_cons, others, List.any_cons]
    cases mine : y.handler.feeds b with
    | false => simp [Target.lastPostsTo_of_not_feeds mine]
    | true =>
      obtain rfl := only y List.mem_cons_self mine
      have alone : rest.any (fun z => z.handler.feeds b) = false := by
        refine List.any_eq_false.mpr fun z hz feeds => ?_
        have same := only z (List.mem_cons_of_mem _ hz) feeds
        exact absurd (congrArg Route.handle same).symm (Nat.ne_of_lt (least z hz))
      simp [alone]

namespace Session

def outlook (s : Session) (b : Box) : Outlook := ⟨s.postsTo b, s.feeds b, s.phase == .closed⟩

/-- Nothing in the session but the route can put anything into the box, and someone still looks
into it. The route may be there or not. -/
structure Sole (x : Route Target) (b : Box) (s : Session) : Prop where
  sound : s.Sound
  routes : ∀ y ∈ s.router.routes, y.handler.feeds b = true → y = x
  waiters : b ∉ s.closeWaiters
  heard : b ∉ s.gone

/-- A session has become a later one in which the box shows what is said here, or what the end of
the session makes of that. -/
structure Becomes (x : Route Target) (b : Box) (o : Outlook) (s t : Session) : Prop where
  sole : t.Sole x b
  back : x ∈ t.router.routes → x ∈ s.router.routes
  gone : t.gone = s.gone
  handles : s.router.lastHandle ≤ t.router.lastHandle
  look : t.outlook b = o ∨ ∃ f, f.kind = .network ∧ t.outlook b = o.ended b x.handler f

/-- The box is let alone, unless the session ends. -/
abbrev Calm (x : Route Target) (b : Box) (s t : Session) : Prop := Becomes x b (s.outlook b) s t

variable {x : Route Target} {b : Box} {o : Outlook} {s t u : Session}

theorem Becomes.after {p : Outlook} (one : Becomes x b o s t) (two : Becomes x b p t u) :
    Becomes x b p s u where
  sole := two.sole
  back there := one.back (two.back there)
  gone := two.gone.trans one.gone
  handles := Nat.le_trans one.handles two.handles
  look := two.look

/-- What happens before the session ends comes first, and what happens after it changes nothing,
unless the route is due something at the end. -/
theorem Becomes.withdraws (one : Becomes x b o s t) {gives : Bool}
    (two : Becomes x b ((t.outlook b).withdrawnIf gives) t u)
    (free : (∀ f, x.handler.lastPostsTo b f = []) ∨ gives = false) :
    Becomes x b (o.withdrawnIf gives) s u := by
  refine { one.after two with look := ?_ }
  rcases one.look with same | ⟨f, network, ended⟩
  · rw [← same]
    exact two.look
  · refine Or.inr ⟨f, network, ?_⟩
    have late : (o.ended b x.handler f).withdrawnIf gives =
        (o.withdrawnIf gives).ended b x.handler f := Outlook.withdrawnIf_ended o f free
    rcases two.look with same | ⟨g, -, ended'⟩
    · rw [same, ended, late]
    · rw [ended', ended, late, Outlook.ended_ended]

theorem Becomes.trans (one : Becomes x b o s t) (two : Calm x b t u) : Becomes x b o s u := by
  have later : Becomes x b ((t.outlook b).withdrawnIf false) t u := by
    rwa [Outlook.withdrawnIf_false]
  have both := one.withdraws later (Or.inr rfl)
  rwa [Outlook.withdrawnIf_false] at both

/-- As long as the session lives, nothing has happened but what is said. -/
theorem Becomes.look_of_live (becomes : Becomes x b o s t) (live : t.phase ≠ .closed) :
    t.outlook b = o := by
  rcases becomes.look with same | ⟨f, -, ended⟩
  · exact same
  · have still : (o.ended b x.handler f).closed = false := by
      rw [← ended]
      simpa [outlook] using live
    unfold Outlook.ended at ended still
    split at ended
    · exact ended
    next once =>
      rw [if_neg once] at still
      simp at still

/-! ### What a box shows -/

theorem postsTo_append {entries : List (Box × Post)} (posts : t.posts = s.posts ++ entries) :
    t.postsTo b = s.postsTo b ++ entries.filterMap fun e => if e.1 = b then some e.2 else none := by
  rw [postsTo, postsTo, posts, List.filterMap_append]

theorem mem_postsTo {p : Post} : p ∈ s.postsTo b ↔ (b, p) ∈ s.posts := by
  simp [postsTo]

theorem postsTo_congr (posts : t.posts = s.posts) : t.postsTo b = s.postsTo b := by
  rw [postsTo, postsTo, posts]

theorem feeds_eq_true : s.feeds b = true ↔ s.phase ≠ .closed ∧
    ((∃ y ∈ s.router.routes, y.handler.feeds b = true) ∨ b ∈ s.closeWaiters) := by
  simp [feeds]

theorem outlook_congr (posts : t.postsTo b = s.postsTo b)
    (routes : ∀ y, y.handler.feeds b = true → (y ∈ t.router.routes ↔ y ∈ s.router.routes))
    (waiters : b ∈ t.closeWaiters ↔ b ∈ s.closeWaiters)
    (phase : t.phase = .closed ↔ s.phase = .closed) : t.outlook b = s.outlook b := by
  have closed : (t.phase == .closed) = (s.phase == .closed) := by
    rw [Bool.eq_iff_iff, beq_iff_eq, beq_iff_eq]
    exact phase
  have fed : t.feeds b = s.feeds b := by
    rw [Bool.eq_iff_iff, feeds_eq_true, feeds_eq_true, waiters, ne_eq, ne_eq, phase]
    refine and_congr_right fun _ => or_congr_left (exists_congr fun y => ?_)
    exact and_congr_left (routes y)
  rw [outlook, outlook, posts, closed, fed]

/-- As long as the session is not over, the box is fed exactly while the route is there. -/
theorem Sole.feeds_iff (sole : s.Sole x b) (mine : x.handler.feeds b = true) :
    s.feeds b = true ↔ s.phase ≠ .closed ∧ x ∈ s.router.routes := by
  rw [feeds_eq_true]
  refine and_congr_right fun _ => ⟨fun fed => ?_, fun there => Or.inl ⟨x, there, mine⟩⟩
  rcases fed with ⟨y, there, feeds⟩ | waits
  · rwa [← sole.routes y there feeds]
  · exact absurd waits sole.waiters

theorem Sole.not_feeds (sole : s.Sole x b) (absent : x ∉ s.router.routes) :
    ∀ y ∈ s.router.routes, y.handler.feeds b = false := by
  intro y there
  by_contra feeds
  exact absent (sole.routes y there (by simpa using feeds) ▸ there)

/-! ### Small changes -/

/-- Nothing that concerns the box has changed. -/
theorem Sole.calm (sole : s.Sole x b) (sound : t.Sound) (posts : t.postsTo b = s.postsTo b)
    (routes : ∀ y, y.handler.feeds b = true → (y ∈ t.router.routes ↔ y ∈ s.router.routes))
    (back : x ∈ t.router.routes → x ∈ s.router.routes)
    (waiters : b ∈ t.closeWaiters ↔ b ∈ s.closeWaiters)
    (phase : t.phase = .closed ↔ s.phase = .closed) (gone : t.gone = s.gone)
    (handles : s.router.lastHandle ≤ t.router.lastHandle) : Calm x b s t where
  sole := {
    sound := sound
    routes := fun y there feeds => sole.routes y ((routes y feeds).mp there) feeds
    waiters := fun waits => sole.waiters (waiters.mp waits)
    heard := by rw [gone]; exact sole.heard }
  back := back
  gone := gone
  handles := handles
  look := Or.inl (outlook_congr posts routes waiters phase)

theorem Sole.calm_quiet (sole : s.Sole x b) (router : t.router = s.router)
    (interrupts : t.interrupts = s.interrupts) (posts : t.postsTo b = s.postsTo b)
    (waiters : b ∈ t.closeWaiters ↔ b ∈ s.closeWaiters)
    (phase : t.phase = .closed ↔ s.phase = .closed) (gone : t.gone = s.gone) : Calm x b s t :=
  sole.calm (sole.sound.congr router interrupts) posts (fun y _ => by rw [router])
    (fun there => by rwa [← router]) waiters phase gone (Nat.le_of_eq (by rw [router]))

theorem Sole.calm_refl (sole : s.Sole x b) : Calm x b s s :=
  sole.calm_quiet rfl rfl rfl Iff.rfl Iff.rfl rfl

/-- What is put into one box does not get into another. -/
theorem postsTo_answer {box : Option Box} (other : box ≠ some b) (p : Post) :
    (s.answer box p).postsTo b = s.postsTo b := by
  have none' : (s.arriving (box.toList.map fun box => (box, p))).filterMap
      (fun e => if e.1 = b then some e.2 else none) = [] := by
    refine List.filterMap_eq_nil_iff.mpr fun e he => ?_
    obtain ⟨own, there, rfl⟩ := List.mem_map.mp (mem_arriving.mp he).1
    have mine : own ≠ b := fun same => other (same ▸ Option.mem_toList.mp there)
    simp [mine]
  rw [answer_eq, postsTo_append rfl, none', List.append_nil]

theorem Sole.calm_answer (sole : s.Sole x b) {box : Option Box} (other : box ≠ some b) (p : Post) :
    Calm x b s (s.answer box p) := by
  have waiters : (s.answer box p).closeWaiters = s.closeWaiters := by rw [answer_eq]
  exact sole.calm_quiet (answer_router _ _ _) (answer_interrupts _ _ _) (postsTo_answer other p)
    (by rw [waiters]) (by rw [answer_phase]) (answer_gone _ _ _)

theorem Sole.calm_post (sole : s.Sole x b) {box : Box} (other : box ≠ b) (p : Post) :
    Calm x b s (s.post box p) :=
  sole.calm_answer (fun same => other (Option.some.inj same)) p

/-- The route stays, if it is there at all. -/
theorem Sole.calm_eraseRoute (sole : s.Sole x b) (route : Handle)
    (other : x ∈ s.router.routes → x.handler.feeds b = true → x.handle ≠ route) :
    Calm x b s (s.eraseRoute route) := by
  refine sole.calm (sole.sound.erase route) rfl (fun y feeds => ?_)
    (fun there => (mem_routes_eraseRoute.mp there).1) Iff.rfl Iff.rfl rfl
    (Nat.le_of_eq (lastHandle_eraseRoute s route).symm)
  rw [mem_routes_eraseRoute]
  refine ⟨And.left, fun there => ⟨there, ?_⟩⟩
  obtain rfl := sole.routes y there feeds
  exact other there feeds

/-- A route is added that does not feed the box. -/
theorem Sole.calm_add (sole : s.Sole x b) (keys : List RouteKey) {target : Target}
    (silent : target.feeds b = false) (mine : x.handler.feeds b = true) :
    Calm x b s { s with router := (s.router.add keys target).1 } := by
  have old : ∀ y, y.handler.feeds b = true →
      (y ∈ (s.router.add keys target).1.routes ↔ y ∈ s.router.routes) := by
    intro y feeds
    rw [mem_routes_add]
    refine or_iff_left fun new => ?_
    rw [new] at feeds
    simp [silent] at feeds
  exact sole.calm (sole.sound.add keys target) rfl old (old x mine).mp Iff.rfl Iff.rfl rfl
    (Nat.le_succ _)

/-- The routes of interrupts are not the one that feeds the box. -/
theorem Sole.calm_eraseInterrupt (sole : s.Sole x b) {e : Id × Handle} (known : e ∈ s.interrupts) :
    Calm x b s (s.eraseRoute e.2) := by
  refine sole.calm_eraseRoute _ fun there feeds same => ?_
  obtain ⟨cell, own⟩ := sole.sound.interrupts e known x there same
  simp [own, Target.feeds] at feeds

/-! ### The end -/

theorem Sole.outlook_terminate (sole : s.Sole x b) (f : Failure) :
    (s.terminate f).outlook b = (s.outlook b).ended b x.handler f := by
  by_cases closed : s.phase = .closed
  · rw [terminate_closed closed]
    simp [Outlook.ended, outlook, closed]
  have due : (s.arriving (s.lastPosts f)).filterMap
      (fun e => if e.1 = b then some e.2 else none) =
        if s.router.routes.any (fun y => y.handler.feeds b) then x.handler.lastPostsTo b f
        else [] := by
    have arrives : (s.arriving (s.lastPosts f)).filterMap
        (fun e => if e.1 = b then some e.2 else none) =
          (s.lastPosts f).filterMap fun e => if e.1 = b then some e.2 else none := by
      rw [arriving, List.filterMap_filter]
      refine List.filterMap_congr fun e _ => ?_
      by_cases mine : e.1 = b <;> simp [mine, sole.heard]
    have leaves : (s.closeWaiters.map fun box => (box, Post.left)).filterMap
        (fun e => if e.1 = b then some e.2 else none) = [] := by
      refine List.filterMap_eq_nil_iff.mpr fun e he => ?_
      obtain ⟨own, there, rfl⟩ := List.mem_map.mp he
      have other : own ≠ b := fun same => sole.waiters (same ▸ there)
      simp [other]
    rw [arrives, lastPosts, List.filterMap_append, leaves, List.append_nil,
      List.filterMap_flatMap]
    exact flatMap_lastPostsTo sole.sound.tidy.ordered sole.routes f
  have fed : s.feeds b = s.router.routes.any (fun y => y.handler.feeds b) := by
    have waiters : s.closeWaiters.contains b = false := by simpa using sole.waiters
    have live : (s.phase != .closed) = true := by simpa using closed
    rw [feeds, waiters, live, Bool.true_and, Bool.or_false]
  rw [terminate_eq closed, outlook, postsTo_append rfl, due, ← fed]
  simp [Outlook.ended, outlook, closed, feeds]

theorem Sole.calm_terminate (sole : s.Sole x b) {f : Failure} (kind : f.kind = .network) :
    Calm x b s (s.terminate f) := by
  by_cases closed : s.phase = .closed
  · rw [terminate_closed closed]
    exact sole.calm_refl
  have look := sole.outlook_terminate f
  have parts : Parts .orphaned ⟨s, []⟩ ⟨s.terminate f, []⟩ := parts_terminate kind
  have sound : (s.terminate f).Sound := sole.sound.parts parts
  rw [terminate_eq closed] at look sound ⊢
  exact {
    sole := ⟨sound, fun _ there => absurd there List.not_mem_nil, List.not_mem_nil, sole.heard⟩
    back := fun there => absurd there List.not_mem_nil
    gone := rfl
    handles := Nat.le_refl _
    look := Or.inr ⟨f, kind, look⟩ }

/-! ### Sending -/

theorem Sole.calm_transmit (sole : s.Sole x b) (i : StreamItem) : Calm x b s (s.transmit i).1 :=
  sole.calm_quiet rfl rfl rfl Iff.rfl Iff.rfl rfl

theorem Sole.calm_retiring (sole : s.Sole x b) (m : Message) : Calm x b s (s.retiring m) := by
  rcases retiring_cases s m with same | ⟨request, route, known, retired⟩
  · rw [same]
    exact sole.calm_refl
  · rw [retired]
    have erased := sole.calm_eraseInterrupt (Assoc.mem_of_get? known)
    refine erased.trans (erased.sole.calm ((sole.sound.forgetInterrupt request).erase route) rfl
      (fun _ _ => Iff.rfl) id Iff.rfl Iff.rfl rfl (Nat.le_refl _))

theorem Sole.calm_sendOrTerminate (sole : s.Sole x b) (m : Message) :
    Calm x b s (s.sendOrTerminate m).1 := by
  have retired := sole.calm_retiring m
  have sent := retired.trans (retired.sole.calm_transmit (.message m))
  rcases sendOrTerminate_left s m with left | ⟨description, left⟩
  · rwa [left]
  · rw [left]
    exact sent.trans (sent.sole.calm_terminate rfl)

theorem Sole.calm_report (sole : s.Sole x b) (description : String) (m : Message) :
    Calm x b s (s.report description m) :=
  sole.calm_quiet rfl rfl rfl Iff.rfl Iff.rfl rfl

theorem Sole.calm_noteUnmatched (sole : s.Sole x b) (m : Message) :
    Calm x b s (s.noteUnmatched m) := by
  cases m with
  | invocation request registration details payload =>
    have sent := sole.calm_sendOrTerminate (Message.rejection request)
    exact sent.trans (sent.sole.calm_report _ _)
  | _ => exact sole.calm_report _ _

theorem Sole.calm_enter_closing (sole : s.Sole x b) : Calm x b s (s.enter .closing) := by
  by_cases may : s.phase.mayEnter .closing = true
  · have live : s.phase ≠ .closed := by
      intro closed
      simp [closed, Phase.mayEnter] at may
    rw [enter_of_may may]
    exact sole.calm_quiet rfl rfl rfl Iff.rfl (by simp [live]) rfl
  · rw [enter_of_not may]
    exact sole.calm_quiet rfl rfl rfl Iff.rfl Iff.rfl rfl

end Session

end WampClient
