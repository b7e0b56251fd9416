import WampClient.Proofs.Session.Provenance

/-! The bookkeeping of interrupts. The table of interrupts and the routes that take INTERRUPT
describe each other, whatever a session does, as long as nobody takes a route out that he was not
told of: the handles in the table are told to nobody. -/
namespace WampClient

/-- A command as a program's session and tickets give it, to whom these routes were told: it waits
with a target that takes no INTERRUPT, and takes out no other route than one of these. -/
structure Command.Modest (told : Handle → Prop) (c : Command) : Prop where
  removes : ∀ h, c.removes h = true → told h
  waits : ∀ m keys target answer, c = .request m keys target answer →
    (∀ cell, target ≠ .interrupt cell) ∧
      ∀ key ∈ keys, key.kind ≠ .message MessageType.interrupt.code

def Input.Modest (told : Handle → Prop) : Input → Prop
  | .command c => c.Modest told
  | _ => True

theorem Input.Modest.removes {told : Handle → Prop} {input : Input} (modest : input.Modest told)
    {h : Handle} (removes : input.removes h = true) : told h := by
  cases input with
  | command c => exact Command.Modest.removes modest h removes
  | _ => exact nomatch removes

theorem Message.kind_enrolledKey {m : Message} {key : RouteKey} (own : m.enrolledKey? = some key) :
    key.kind ≠ .message MessageType.interrupt.code := by
  cases m with
  | registered request registration =>
    rw [← Option.some.inj own]
    simp [RouteKey.ofReply, MessageType.code]
  | subscribed request subscription =>
    rw [← Option.some.inj own]
    simp [RouteKey.ofReply, MessageType.code]
  | _ => exact nomatch own

namespace Session

/-- Somebody was told of the route. -/
def Told (s : Session) (h : Handle) : Prop := ∃ e ∈ s.posts, e.2.route? = some h

/-- The route that takes the interrupts of an invocation to a cell. -/
def interruptRoute (request : Id) (h : Handle) (cell : Cell) : Route Target :=
  ⟨h, [RouteKey.ofReply .interrupt request], .interrupt cell⟩

/-- The table of interrupts and the routes that take INTERRUPT describe each other, and only the
session itself takes such a route out. -/
structure Indexed (s : Session) : Prop where
  distinct : (s.interrupts.map Prod.fst).Nodup
  routed : ∀ r h, Assoc.get? r s.interrupts = some h →
    ∃ cell, interruptRoute r h cell ∈ s.router.routes
  indexed : ∀ x ∈ s.router.routes, ∀ cell, x.handler = .interrupt cell →
    ∃ r, x = interruptRoute r x.handle cell ∧ Assoc.get? r s.interrupts = some x.handle
  deaf : ∀ x ∈ s.router.routes, (∀ cell, x.handler ≠ .interrupt cell) →
    ∀ key ∈ x.keys, key.kind ≠ .message MessageType.interrupt.code
  hidden : ∀ r h, Assoc.get? r s.interrupts = some h → ¬ s.Told h
  removes : ∀ x ∈ s.router.routes, ∀ h, x.handler.removes h = true → s.Told h

theorem indexed_established (wire : Wire) (now closeTimeout : Nat) :
    (established wire now closeTimeout).Indexed :=
  ⟨List.nodup_nil, by simp [established, Assoc.get?], by simp [established, Router.empty],
    by simp [established, Router.empty], by simp [established, Assoc.get?],
    by simp [established, Router.empty]⟩

variable {s t : Session} {input : Input} {w w' : Work} {r : Id} {h : Handle}

theorem Told.mono (told : s.Told h) (posts : s.posts <+: t.posts) : t.Told h := by
  obtain ⟨e, there, known⟩ := told
  exact ⟨e, posts.subset there, known⟩

/-! ### Which handles are in the table -/

theorem Indexed.ne_of_told (indexed : s.Indexed) (told : s.Told h) (r : Id) :
    Assoc.get? r s.interrupts ≠ some h := fun known => indexed.hidden r h known told

theorem Indexed.ne_of_route (indexed : s.Indexed) (sound : s.Sound) {x : Route Target}
    (there : x ∈ s.router.routes) (other : ∀ cell, x.handler ≠ .interrupt cell) (r : Id) :
    Assoc.get? r s.interrupts ≠ some x.handle := by
  intro known
  obtain ⟨cell, among⟩ := indexed.routed r _ known
  have same := Router.eq_of_handle_eq sound.tidy.ordered there among rfl
  exact other cell (by rw [same]; rfl)

theorem Sound.ne_next (sound : s.Sound) (r : Id) :
    Assoc.get? r s.interrupts ≠ some (s.router.lastHandle + 1) := fun known =>
  absurd (sound.bounded _ (Assoc.mem_of_get? known)) (Nat.not_succ_le_self _)

/-- A handle is in the table once. -/
theorem Indexed.eq_of_handle (indexed : s.Indexed) (sound : s.Sound) {r' : Id}
    (known : Assoc.get? r s.interrupts = some h) (known' : Assoc.get? r' s.interrupts = some h) :
    r = r' := by
  obtain ⟨cell, among⟩ := indexed.routed r h known
  obtain ⟨cell', among'⟩ := indexed.routed r' h known'
  have same := Router.eq_of_handle_eq sound.tidy.ordered among among' rfl
  simpa [interruptRoute, RouteKey.ofReply] using congrArg Route.keys same

/-! ### What keeps the bookkeeping -/

/-- More is put into boxes, and no route of the table is told with it. -/
theorem Indexed.tell (indexed : s.Indexed) (router : t.router = s.router)
    (interrupts : t.interrupts = s.interrupts) (posts : s.posts <+: t.posts)
    (told : ∀ h, t.Told h → s.Told h ∨ ∀ r, Assoc.get? r s.interrupts ≠ some h) : t.Indexed := by
  obtain ⟨distinct, routed, own, deaf, hidden, removes⟩ := indexed
  refine ⟨interrupts ▸ distinct, ?_, ?_, router ▸ deaf, ?_, ?_⟩
  · rwa [interrupts, router]
  · rwa [interrupts, router]
  · intro r h known told'
    rw [interrupts] at known
    exact (told h told').elim (hidden r h known) fun apart => apart r known
  · rw [router]
    exact fun x there h taken => (removes x there h taken).mono posts

theorem Indexed.congr (indexed : s.Indexed) (router : t.router = s.router)
    (interrupts : t.interrupts = s.interrupts) (posts : t.posts = s.posts) : t.Indexed :=
  indexed.tell router interrupts (posts ▸ List.prefix_rfl) fun h told => Or.inl <| by
    rwa [Told, posts] at told

theorem told_post {box : Box} {p : Post} (told : (s.post box p).Told h) :
    s.Told h ∨ p.route? = some h := by
  obtain ⟨e, there, known⟩ := told
  rcases mem_posts_post.mp there with old | ⟨rfl, -⟩
  · exact Or.inl ⟨e, old, known⟩
  · exact Or.inr known

theorem Indexed.post (indexed : s.Indexed) (box : Box) {p : Post}
    (apart : ∀ h, p.route? = some h → ∀ r, Assoc.get? r s.interrupts ≠ some h) :
    (s.post box p).Indexed :=
  indexed.tell (post_router _ _ _) (post_interrupts _ _ _) (posts_prefix_post _ _ _) fun h told =>
    (told_post told).imp_right (apart h)

theorem Indexed.answer (indexed : s.Indexed) (box : Option Box) {p : Post}
    (apart : ∀ h, p.route? = some h → ∀ r, Assoc.get? r s.interrupts ≠ some h) :
    (s.answer box p).Indexed := by
  cases box with
  | none => exact indexed
  | some box => exact indexed.post box apart

theorem Indexed.add (indexed : s.Indexed) {keys : List RouteKey} {target : Target}
    (other : ∀ cell, target ≠ .interrupt cell)
    (deaf : ∀ key ∈ keys, key.kind ≠ .message MessageType.interrupt.code)
    (removes : ∀ h, target.removes h = true → s.Told h) :
    { s with router := (s.router.add keys target).1 }.Indexed where
  distinct := indexed.distinct
  routed r h known := by
    obtain ⟨cell, there⟩ := indexed.routed r h known
    exact ⟨cell, mem_routes_add.mpr (Or.inl there)⟩
  indexed x there cell own := by
    rcases mem_routes_add.mp there with old | rfl
    · exact indexed.indexed x old cell own
    · exact absurd own (other cell)
  deaf x there own := by
    rcases mem_routes_add.mp there with old | rfl
    · exact indexed.deaf x old own
    · exact deaf
  hidden := indexed.hidden
  removes x there := by
    rcases mem_routes_add.mp there with old | rfl
    · exact indexed.removes x old
    · exact removes

theorem Indexed.erase (indexed : s.Indexed)
    (apart : ∀ r, Assoc.get? r s.interrupts ≠ some h) : (s.eraseRoute h).Indexed where
  distinct := indexed.distinct
  routed r g known := by
    obtain ⟨cell, there⟩ := indexed.routed r g known
    exact ⟨cell, mem_routes_eraseRoute.mpr ⟨there, fun same => apart r (same ▸ known)⟩⟩
  indexed x there := indexed.indexed x (mem_routes_eraseRoute.mp there).1
  deaf x there := indexed.deaf x (mem_routes_eraseRoute.mp there).1
  hidden := indexed.hidden
  removes x there := indexed.removes x (mem_routes_eraseRoute.mp there).1

/-- An entry is taken out of the table, and its route with it. -/
theorem Indexed.retired (indexed : s.Indexed) (sound : s.Sound)
    (known : Assoc.get? r s.interrupts = some h) :
    ({ s with interrupts := Assoc.erase r s.interrupts }.eraseRoute h).Indexed := by
  have others : ∀ q g, Assoc.get? q (Assoc.erase r s.interrupts) = some g →
      q ≠ r ∧ Assoc.get? q s.interrupts = some g := by
    intro q g found
    by_cases same : q = r
    · simp [same] at found
    · exact ⟨same, by rwa [Assoc.get?_erase_of_ne _ same] at found⟩
  refine ⟨Assoc.nodup_erase r indexed.distinct, fun q g found => ?_, fun x there cell own => ?_,
    fun x there => indexed.deaf x (mem_routes_eraseRoute.mp there).1,
    fun q g found => indexed.hidden q g (others q g found).2,
    fun x there => indexed.removes x (mem_routes_eraseRoute.mp there).1⟩
  · obtain ⟨other, before⟩ := others q g found
    obtain ⟨cell, there⟩ := indexed.routed q g before
    refine ⟨cell, mem_routes_eraseRoute.mpr ⟨there, fun same => other ?_⟩⟩
    obtain rfl : g = h := same
    exact indexed.eq_of_handle sound before known
  · obtain ⟨old, apart⟩ := mem_routes_eraseRoute.mp there
    obtain ⟨q, same, found⟩ := indexed.indexed x old cell own
    have other : q ≠ r := by
      rintro rfl
      exact apart (Option.some.inj (found.symm.trans known))
    exact ⟨q, same, (Assoc.get?_erase_of_ne _ other).trans found⟩

theorem interrupts_watch (s : Session) (request : Id) (cell : Cell) :
    (s.watch request cell).interrupts =
      Assoc.alter request (fun _ => some (s.router.lastHandle + 1)) s.interrupts := by
  rcases watch_eq s request cell with watched | ⟨previous, -, watched⟩ <;> rw [watched] <;> rfl

theorem posts_watch (s : Session) (request : Id) (cell : Cell) :
    (s.watch request cell).posts = s.posts := by
  rcases watch_eq s request cell with watched | ⟨previous, -, watched⟩ <;> rw [watched] <;> rfl

/-- The new route takes the place of the one that took the interrupts before. -/
theorem mem_routes_watch (sound : s.Sound) (request : Id) (cell : Cell) {x : Route Target} :
    x ∈ (s.watch request cell).router.routes ↔
      x ∈ s.router.routes ∧ Assoc.get? request s.interrupts ≠ some x.handle ∨
        x = interruptRoute request (s.router.lastHandle + 1) cell := by
  cases known : Assoc.get? request s.interrupts with
  | none =>
    rw [watch_of_none known]
    refine mem_routes_add.trans (or_congr_left ?_)
    simp
  | some previous =>
    have old : previous ≠ s.router.lastHandle + 1 :=
      fun same => sound.ne_next request (same ▸ known)
    rw [watch_of_some known, mem_routes_eraseRoute]
    have added : x ∈ (s.watching request cell).router.routes ↔
        x ∈ s.router.routes ∨ x = interruptRoute request (s.router.lastHandle + 1) cell :=
      mem_routes_add
    rw [added, or_and_right]
    refine or_congr (and_congr_right fun _ => ?_) (and_iff_left_of_imp ?_)
    · simp [eq_comm]
    · rintro rfl
      exact old.symm

theorem Indexed.watch (indexed : s.Indexed) (sound : s.Sound) (telling : s.Telling) (request : Id)
    (cell : Cell) : (s.watch request cell).Indexed := by
  have mine : Assoc.get? request (s.watch request cell).interrupts =
      some (s.router.lastHandle + 1) := by
    rw [interrupts_watch, Assoc.get?_alter_self]
  have others : ∀ r, r ≠ request →
      Assoc.get? r (s.watch request cell).interrupts = Assoc.get? r s.interrupts := by
    intro r other
    rw [interrupts_watch, Assoc.get?_alter_of_ne _ _ other]
  have told : ∀ h, (s.watch request cell).Told h ↔ s.Told h := fun h => by
    rw [Told, Told, posts_watch]
  have unknown : ¬ s.Told (s.router.lastHandle + 1) := fun ⟨e, there, known⟩ =>
    absurd (telling.bounded e there _ known) (Nat.not_succ_le_self _)
  refine ⟨?_, fun r h known => ?_, fun x there c own => ?_, fun x there own => ?_,
    fun r h known => ?_, fun x there h taken => ?_⟩
  · rw [interrupts_watch]
    exact Assoc.nodup_alter _ _ indexed.distinct
  · by_cases same : r = request
    · subst same
      obtain rfl := Option.some.inj (mine.symm.trans known)
      exact ⟨cell, (mem_routes_watch sound r cell).mpr (Or.inr rfl)⟩
    · rw [others r same] at known
      obtain ⟨c, there⟩ := indexed.routed r h known
      refine ⟨c, (mem_routes_watch sound request cell).mpr (Or.inl ⟨there, fun known' => same ?_⟩)⟩
      exact indexed.eq_of_handle sound known known'
  · rcases (mem_routes_watch sound request cell).mp there with ⟨old, apart⟩ | rfl
    · obtain ⟨r, same, known⟩ := indexed.indexed x old c own
      have other : r ≠ request := by
        rintro rfl
        exact apart known
      exact ⟨r, same, (others r other).trans known⟩
    · obtain rfl : cell = c := Target.interrupt.inj own
      exact ⟨request, rfl, mine⟩
  · rcases (mem_routes_watch sound request cell).mp there with ⟨old, -⟩ | rfl
    · exact indexed.deaf x old own
    · exact absurd rfl (own cell)
  · rw [told]
    by_cases same : r = request
    · subst same
      obtain rfl := Option.some.inj (mine.symm.trans known)
      exact unknown
    · exact indexed.hidden r h ((others r same).symm.trans known)
  · rw [told]
    rcases (mem_routes_watch sound request cell).mp there with ⟨old, -⟩ | rfl
    · exact indexed.removes x old h taken
    · exact nomatch taken

/-! ### Steps -/

/-- The bookkeeping is in order in the middle of a step, and what is put off will leave it so. -/
structure Work.Indexed (w : Work) : Prop where
  sound : w.session.Sound
  telling : w.session.Telling
  session : w.session.Indexed
  errands : ∀ e ∈ w.errands, ∀ h, e.removes h = true → w.session.Told h

theorem Work.Indexed.part (indexed : w.Indexed) (part : Part input w w')
    (other : ∀ m keys target box, input ≠ .command (.request m keys target box))
    (asks : ∀ h, input.removes h = true → w.session.Told h) : w'.Indexed := by
  obtain ⟨sound, telling, session, errands⟩ := indexed
  have posts := part.posts_prefix
  -- whatever is put off was put off before, or comes from a route
  have errands' : ∀ e ∈ w'.errands, ∀ h, e.removes h = true → w'.session.Told h := by
    intro e there h removes
    cases e with
    | handOver box m change =>
      refine Told.mono ?_ posts
      rcases part.errand_origin there with ⟨change', old, rfl | ⟨rfl, -⟩⟩ | ⟨x, old, waits, -⟩
      · exact errands _ old h removes
      · simp [Errand.removes, Target.removes] at removes
      · exact session.removes x old h (waits ▸ (Bool.and_eq_true_iff.mp removes).2)
    | watch request cell => cases removes
    | turnAway request => cases removes
  refine ⟨sound.part part, part.telling telling other, ?_, errands'⟩
  cases part with
  | quiet alike => exact session.congr alike.router alike.interrupts alike.posts
  | posted box more plain => exact session.post box fun h known => by cases plain.symm.trans known
  | accepted asked => exact absurd asked (other _ _ _ _)
  | removed asked =>
    refine session.erase (session.ne_of_told (asks _ ?_))
    simp [asked, Input.removes, Command.removes]
  | forgotten asked => exact session.congr rfl rfl rfl
  | replied m there waits takes =>
    exact session.erase (session.ne_of_route sound there (by simp [waits]))
  | settled m there waits takes last =>
    exact (session.erase (session.ne_of_route sound there (by simp [waits]))).post _
      fun h known => by cases known
  | dropped there waits gone =>
    exact session.erase (session.ne_of_route sound there (by simp [waits]))
  | deferred e other => exact session
  | @enrolled s es box m feed key confirms heard =>
    have added : { s with router := (s.router.add [key] (.feed feed)).1 }.Indexed :=
      session.add (by simp) (by simpa using Message.kind_enrolledKey confirms)
        (by simp [Target.removes])
    refine added.answer box fun h known => ?_
    rw [← Option.some.inj known]
    exact sound.ne_next
  | @disowned s es box m feed key confirms gone =>
    have added : { s with router := (s.router.add [key] (.feed feed)).1 }.Indexed :=
      session.add (by simp) (by simpa using Message.kind_enrolledKey confirms)
        (by simp [Target.removes])
    exact added.erase sound.ne_next
  | @withdrawn s es box m route confirms =>
    refine session.erase (session.ne_of_told (errands _ List.mem_cons_self route ?_))
    simp [Errand.removes, confirms, Target.removes]
  | unchanged box idle => exact session
  | handedOver box m => exact session.answer box fun h known => by cases known
  | watched request cell => exact session.watch sound telling request cell
  | skipped request => exact session
  | retired known => exact session.retired sound known
  | terminated live kind =>
    rw [terminate_eq live]
    exact ⟨List.nodup_nil, by simp [Assoc.get?], by simp [Router.clear], by simp [Router.clear],
      by simp [Assoc.get?], by simp [Router.clear]⟩

theorem Work.Indexed.parts (indexed : w.Indexed) (parts : Parts input w w')
    (other : ∀ m keys target box, input ≠ .command (.request m keys target box))
    (asks : ∀ h, input.removes h = true → w.session.Told h) : w'.Indexed := by
  have all : w'.Indexed ∧ w.session.posts <+: w'.session.posts := by
    induction parts with
    | refl => exact ⟨indexed, List.prefix_rfl⟩
    | tail _ part ih =>
      exact ⟨ih.1.part part other fun h removes => (asks h removes).mono ih.2,
        ih.2.trans part.posts_prefix⟩
  exact all.1

/-- Sending a message adds nothing to the table. -/
theorem get?_interrupts_sendOrTerminate (m : Message)
    (known : Assoc.get? r (s.sendOrTerminate m).1.interrupts = some h) :
    Assoc.get? r s.interrupts = some h := by
  have retired : Assoc.get? r (s.retiring m).interrupts = some h →
      Assoc.get? r s.interrupts = some h := by
    rcases retiring_cases s m with same | ⟨request, route, -, retired⟩
    · rw [same]
      exact id
    · rw [retired]
      intro known
      by_cases own : r = request
      · simp [own] at known
      · rwa [interrupts_eraseRoute, Assoc.get?_erase_of_ne _ own] at known
  refine retired ?_
  rcases sendOrTerminate_left s m with left | ⟨description, left⟩
  · rwa [left] at known
  · rw [left] at known
    by_cases live : ((s.retiring m).transmit (.message m)).1.phase = .closed
    · rwa [terminate_closed live] at known
    · rw [terminate_eq live] at known
      cases known

theorem Indexed.request (indexed : s.Indexed) (sound : s.Sound) (telling : s.Telling)
    (live : s.phase = .established) {m : Message} {keys : List RouteKey} {target : Target}
    {answer : Option Box} (modest : (Command.request m keys target answer).Modest s.Told) :
    (s.obey (.request m keys target answer)).Indexed := by
  obtain ⟨other, deaf⟩ := modest.waits m keys target answer rfl
  let t : Session := { s with router := (s.router.add keys target).1 }
  have added : t.Indexed := indexed.add other deaf modest.removes
  have telling' : t.Telling :=
    telling.congr (Nat.le_succ _) fun e there h known => there
  have parts : Parts .orphaned ⟨t, []⟩ ⟨(t.sendOrTerminate m).1, []⟩ := parts_sendOrTerminate m
  have start : Work.Indexed ⟨t, []⟩ := ⟨sound.add keys target, telling', added, by simp⟩
  have sent := start.parts parts (by simp) (by simp [Input.removes])
  have apart : ∀ r, Assoc.get? r (t.sendOrTerminate m).1.interrupts ≠
      some (s.router.lastHandle + 1) := fun r known =>
    sound.ne_next r (get?_interrupts_sendOrTerminate (s := t) m known)
  rw [obey_request live]
  rcases went : t.sendOrTerminate m with ⟨u, result⟩
  rw [went] at sent apart
  cases result with
  | ok _ =>
    refine sent.session.answer answer fun h known => ?_
    rw [← Option.some.inj known]
    exact apart
  | error f => exact (sent.session.erase apart).answer answer fun h known => by cases known

theorem Indexed.step (indexed : s.Indexed) (sound : s.Sound) (telling : s.Telling)
    (modest : input.Modest s.Told) : (s.step input).Indexed := by
  by_cases asks : ∃ m keys target answer, input = .command (.request m keys target answer)
  · obtain ⟨m, keys, target, answer, rfl⟩ := asks
    rw [Session.step]
    split
    · exact indexed
    · by_cases live : s.phase = .established
      · exact indexed.request sound telling live modest
      · rw [obey_request_late live]
        exact indexed.answer answer fun h known => by cases known
  · have other : ∀ m keys target answer, input ≠ .command (.request m keys target answer) :=
      fun m keys target answer same => asks ⟨m, keys, target, answer, same⟩
    have same : s.prepared input = s := by
      rcases prepared_cases s input with same | ⟨m, keys, target, answer, rfl, -⟩
      · exact same
      · exact absurd rfl (other m keys target answer)
    have parts := parts_step sound.tidy input
    rw [same] at parts
    have start : Work.Indexed ⟨s, []⟩ := ⟨sound, telling, indexed, by simp⟩
    exact (start.parts parts other fun h removes => modest.removes removes).session

theorem Work.Indexed.step (indexed : Work.Indexed ⟨s, []⟩) (modest : input.Modest s.Told) :
    Work.Indexed ⟨s.step input, []⟩ :=
  ⟨indexed.sound.step input, indexed.telling.step indexed.sound input,
    indexed.session.step indexed.sound indexed.telling modest, by simp⟩

/-- A route that is no newer than these was there before. -/
theorem Parts.route_old (parts : Parts input w w') {x : Route Target}
    (there : x ∈ w'.session.router.routes) (old : x.handle ≤ w.session.router.lastHandle) :
    x ∈ w.session.router.routes := by
  induction parts with
  | refl => exact there
  | tail before part ih =>
    rcases part.route_origin there with there | ⟨⟨new, -⟩, -⟩
    · exact ih there
    · rw [new] at old
      exact absurd (Parts.lastHandle_le before) (Nat.not_le_of_lt old)

theorem route_old_step (sound : s.Sound) {x : Route Target}
    (there : x ∈ (s.step input).router.routes) (old : x.handle ≤ s.router.lastHandle) :
    x ∈ s.router.routes := by
  have among := (parts_step sound.tidy input).route_old there
    (Nat.le_trans old (lastHandle_prepared s input))
  rcases prepared_cases s input with same | ⟨m, keys, target, box, -, -, added⟩
  · exact same ▸ among
  · rw [added] at among
    rcases mem_routes_add.mp among with among | rfl
    · exact among
    · exact absurd old (Nat.not_succ_le_self _)

/-! ### INTERRUPT -/

theorem ofMessage_interrupt (r : Id) (options : Dictionary) :
    RouteKey.ofMessage (.interrupt r options) = RouteKey.ofReply .interrupt r := rfl

/-- INTERRUPT is taken by the route that the table has for the invocation, and by no other. -/
theorem Indexed.takes_iff (indexed : s.Indexed) (sound : s.Sound) {x : Route Target}
    (there : x ∈ s.router.routes) :
    x.takes (RouteKey.ofReply .interrupt r) = true ↔
      Assoc.get? r s.interrupts = some x.handle := by
  have covers : ∀ (q : Id) (h : Handle) (cell : Cell),
      (interruptRoute q h cell).takes (RouteKey.ofReply .interrupt r) = true ↔ q = r := by
    intro q h cell
    simp [interruptRoute, Route.takes, RouteKey.covers, RouteKey.ofReply]
  constructor
  · intro takes
    by_cases shows : ∃ cell, x.handler = .interrupt cell
    · obtain ⟨cell, own⟩ := shows
      obtain ⟨q, same, known⟩ := indexed.indexed x there cell own
      rw [same] at takes
      rwa [(covers q x.handle cell).mp takes] at known
    · obtain ⟨key, among, takes⟩ := List.any_eq_true.mp takes
      have kind := indexed.deaf x there (fun cell own => shows ⟨cell, own⟩) key among
      exact absurd (eq_of_beq (Bool.and_eq_true_iff.mp takes).1) kind
  · intro known
    obtain ⟨cell, among⟩ := indexed.routed r _ known
    rw [Router.eq_of_handle_eq sound.tidy.ordered there among rfl]
    exact (covers r _ cell).mpr rfl

theorem Indexed.mem_matching (indexed : s.Indexed) (sound : s.Sound) :
    h ∈ s.router.matching (RouteKey.ofReply .interrupt r) ↔
      Assoc.get? r s.interrupts = some h := by
  rw [sound.tidy.mem_matching_iff]
  constructor
  · rintro ⟨x, there, rfl, takes⟩
    exact (indexed.takes_iff sound there).mp takes
  · intro known
    obtain ⟨cell, there⟩ := indexed.routed r h known
    exact ⟨_, there, rfl, (indexed.takes_iff sound there).mpr known⟩

/-- INTERRUPT goes to one route at most. -/
theorem Indexed.matching_interrupt (indexed : s.Indexed) (sound : s.Sound) (r : Id) :
    s.router.matching (RouteKey.ofReply .interrupt r) = (Assoc.get? r s.interrupts).toList := by
  cases known : Assoc.get? r s.interrupts with
  | none =>
    refine List.eq_nil_iff_forall_not_mem.mpr fun h called => ?_
    rw [indexed.mem_matching sound, known] at called
    exact nomatch called
  | some h =>
    obtain ⟨cell, there⟩ := indexed.routed r h known
    obtain ⟨before, after, split, first, last⟩ := Router.matching_split sound.tidy there
      (by simp [interruptRoute, RouteKey.ofReply]) ((indexed.takes_iff sound there).mpr known)
    have only : ∀ g ∈ before ++ h :: after, g = h := fun g called => by
      have called' : g ∈ s.router.matching (RouteKey.ofReply .interrupt r) := split ▸ called
      rw [indexed.mem_matching sound, known] at called'
      exact (Option.some.inj called').symm
    have none' : before = [] := List.eq_nil_iff_forall_not_mem.mpr fun g called =>
      first (only g (List.mem_append_left _ called) ▸ called)
    have none'' : after = [] := List.eq_nil_iff_forall_not_mem.mpr fun g called =>
      last (only g (List.mem_append_right _ (List.mem_cons_of_mem _ called)) ▸ called)
    rw [split, none', none'']
    rfl

/-- Where interrupts of an invocation are shown. -/
def cell? (s : Session) (r : Id) : Option Cell :=
  ((Assoc.get? r s.interrupts).bind s.router.route?).bind fun x => match x.handler with
    | .interrupt cell => some cell
    | _ => none

theorem Indexed.cell?_of_known (indexed : s.Indexed) (sound : s.Sound)
    (known : Assoc.get? r s.interrupts = some h) :
    ∃ cell, s.cell? r = some cell ∧ interruptRoute r h cell ∈ s.router.routes := by
  obtain ⟨cell, there⟩ := indexed.routed r h known
  have found : s.router.route? h = some (interruptRoute r h cell) :=
    sound.tidy.route?_eq_some_iff.mpr ⟨there, rfl⟩
  exact ⟨cell, by simp [cell?, known, found, interruptRoute], there⟩

/-- INTERRUPT is shown where the table says, and nothing else comes of it; if the table does not
have the invocation, it is reported. -/
theorem Indexed.step_interrupt (indexed : s.Indexed) (sound : s.Sound) (live : s.phase ≠ .closed)
    (r : Id) (options : Dictionary) :
    s.step (.arrival (.item (.message (.interrupt r options)))) =
      match s.cell? r with
      | some cell =>
        { s with signals := s.signals ++ [(cell, Message.interruptMode options)] }
      | none => s.report unmatched (.interrupt r options) := by
  have stepped : s.step (.arrival (.item (.message (.interrupt r options)))) =
      s.distribute (.interrupt r options) := if_neg live
  have called := indexed.matching_interrupt sound r
  have handed : s.distributed (.interrupt r options) =
      (Assoc.get? r s.interrupts).toList.foldl
        (Router.visit (Target.deliver s.gone (.interrupt r options)))
        (s.router, false, ⟨[], [], s.nextCell, []⟩) := by
    rw [distributed, Router.dispatch, ofMessage_interrupt, called]
  rw [stepped, distribute_eq, handedAround, handed]
  cases known : Assoc.get? r s.interrupts with
  | none =>
    have none' : s.cell? r = none := by simp [cell?, known]
    rw [none']
    simp [noteUnmatched, carrying]
  | some h =>
    obtain ⟨cell, shown, there⟩ := indexed.cell?_of_known sound known
    have visited := visit_deliver sound.tidy there s.gone (.interrupt r options) false
      ⟨[], [], s.nextCell, []⟩
    rw [shown, Option.toList_some, List.foldl_cons, List.foldl_nil]
    rw [show (interruptRoute r h cell).handle = h from rfl] at visited
    rw [visited]
    simp [interruptRoute, Target.deliver, Tray.signal, carrying]

end Session

end WampClient
