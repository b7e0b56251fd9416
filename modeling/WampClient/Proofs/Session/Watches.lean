import WampClient.Proofs.Session.Interrupts
import WampClient.Proofs.Session.Sendings

/-! Which invocation an INTERRUPT is for. Of the invocations that were queued under a request id the
table of interrupts has the last one, until a message goes out that settles the request. -/
namespace WampClient

/-- Where interrupts of the invocation with a request id are shown, if it is queued. -/
def Post.shows? (r : Id) : Post → Option Cell
  | .invocation i cell => if i.request = r then some cell else none
  | _ => none

theorem Post.Plain.shows {p : Post} (plain : p.Plain) (r : Id) : p.shows? r = none := by
  cases p with
  | invocation i cell => exact absurd rfl (plain.uncalled i cell)
  | _ => rfl

theorem Post.Plain.cell {p : Post} (plain : p.Plain) : p.cell? = none := by
  cases p with
  | invocation i cell => exact absurd rfl (plain.uncalled i cell)
  | _ => rfl

/-- What an errand makes of the entry of a request in the table: a new one for a cell, or none. -/
def Errand.mark? (r : Id) : Errand → Option (Option Cell)
  | .handOver _ _ _ => none
  | .watch q cell => if q = r then some (some cell) else none
  | .turnAway q => if q = r then some none else none

/-- Every invocation that is queued is to be watched. -/
theorem Target.shows_posts (r : Id) (gone : List Box) (m : Message) (cell : Cell) (t : Target) :
    (t.posts gone m cell).filterMap (fun e => e.2.shows? r) =
      ((t.errands gone m cell).filterMap (Errand.mark? r)).filterMap id := by
  cases t with
  | reply box change => rfl
  | call box =>
    simp only [posts, errands]
    split <;> rfl
  | feed f =>
    cases f with
    | invocations box =>
      cases m with
      | invocation request registration details payload =>
        by_cases here : box ∈ gone <;> by_cases mine : request = r <;>
          simp [posts, errands, here, mine, Post.shows?, Errand.mark?]
      | _ => rfl
    | events box =>
      cases m with
      | event subscription publication details payload =>
        simp only [posts, errands]
        split <;> rfl
      | _ => rfl
  | interrupt cell => rfl

/-- A message that settles a request takes its entry out of the table. -/
def StreamItem.mark? (r : Id) (i : StreamItem) : Option (Option Cell) :=
  if i.settles? = some r then some none else none

namespace Session

/-- The cells of the invocations with a request id that were queued, in order. -/
def queued (s : Session) (r : Id) : List Cell := s.posts.filterMap fun e => e.2.shows? r

/-- How many messages have gone out that settle a request. -/
def settlings (s : Session) (r : Id) : Nat := s.wire.sent.countP fun i => i.settles? == some r

variable {r : Id} {s t u : Session} {input : Input} {k l : Option (Option Cell)}
  {marks marks' : List (Option Cell)} {out : List StreamItem}

/-- What the table has for a request after the last thing that was done to its entry. -/
def Shows (r : Id) (s t : Session) : Option (Option Cell) → Prop
  | none => Assoc.get? r t.interrupts = Assoc.get? r s.interrupts
  | some none => Assoc.get? r t.interrupts = none
  | some (some cell) => ∃ h, Assoc.get? r t.interrupts = some h ∧
      ∀ x ∈ t.router.routes, x.handle = h → x.handler = .interrupt cell

theorem Shows.trans (first : Shows r s t k) (second : Shows r t u l) (sound : t.Sound)
    (old : ∀ x ∈ u.router.routes, x.handle ≤ t.router.lastHandle → x ∈ t.router.routes) :
    Shows r s u (l.or k) := by
  cases l with
  | some l => cases l <;> exact second
  | none =>
    have same : Assoc.get? r u.interrupts = Assoc.get? r t.interrupts := second
    cases k with
    | none => exact same.trans first
    | some k =>
      cases k with
      | none => exact same.trans first
      | some cell =>
        obtain ⟨h, known, shown⟩ := first
        refine ⟨h, same.trans known, fun x there mine => shown x (old x there ?_) mine⟩
        exact mine ▸ sound.bounded _ (Assoc.mem_of_get? known)

/-! ### What is put off -/

theorem interrupts_handOver (s : Session) (box : Option Box) (m : Message)
    (change : Option RouteChange) : (s.handOver box m change).interrupts = s.interrupts := by
  have changed : (s.changeRoutes m change).1.interrupts = s.interrupts := by
    rcases change with _ | feed | route
    · rfl
    · simp only [changeRoutes]
      split <;> rfl
    · simp only [changeRoutes]
      split <;> rfl
  rw [handOver]
  cases box with
  | none => exact changed
  | some box =>
    dsimp only
    split
    next =>
      cases (s.changeRoutes m change).2 with
      | none => exact changed
      | some route => exact changed
    next => rwa [post_interrupts]

theorem settles?_rejection (q : Id) : (Message.rejection q).settles? = some q := rfl

theorem shows_runErrand (sound : s.Sound) (e : Errand) (live : (s.runErrand e).phase ≠ .closed) :
    Shows r s (s.runErrand e) (e.mark? r) := by
  cases e with
  | handOver box m change =>
    exact congrArg (Assoc.get? r) (interrupts_handOver s box m change)
  | watch q cell =>
    have table : Assoc.get? r (s.watch q cell).interrupts =
        Assoc.get? r (Assoc.alter q (fun _ => some (s.router.lastHandle + 1)) s.interrupts) := by
      rw [interrupts_watch]
    by_cases mine : q = r
    · subst mine
      rw [Errand.mark?, if_pos rfl]
      refine ⟨s.router.lastHandle + 1, table.trans (Assoc.get?_alter_self _ _ _),
        fun x there own => ?_⟩
      rcases (mem_routes_watch sound q cell).mp there with ⟨old, -⟩ | rfl
      · exact absurd (own ▸ sound.tidy.bounded x old) (Nat.not_succ_le_self _)
      · rfl
    · rw [Errand.mark?, if_neg mine]
      exact table.trans (Assoc.get?_alter_of_ne _ _ (Ne.symm mine))
  | turnAway q =>
    have table := interrupts_sendOrTerminate (s := s) (m := Message.rejection q) live r
    rw [settles?_rejection] at table
    by_cases mine : q = r
    · rw [Errand.mark?, if_pos mine]
      exact table.trans (if_pos (congrArg some mine))
    · rw [Errand.mark?, if_neg mine]
      exact table.trans (if_neg fun same => mine (Option.some.inj same))

theorem shows_errands (sound : s.Sound) {es : List Errand}
    (live : (es.foldl runErrand s).phase ≠ .closed) :
    Shows r s (es.foldl runErrand s) (es.filterMap (Errand.mark? r)).getLast? := by
  induction es generalizing s with
  | nil => exact (rfl : Assoc.get? r s.interrupts = _)
  | cons e rest ih =>
    have parts : Parts .orphaned ⟨s, [e]⟩ ⟨s.runErrand e, []⟩ := parts_errands
    have sound' : (s.runErrand e).Sound := sound.parts parts
    have first := shows_runErrand (r := r) sound e ((emits_errands rest).live live)
    have later : Parts .orphaned ⟨s.runErrand e, rest⟩ ⟨rest.foldl runErrand (s.runErrand e), []⟩ :=
      parts_errands
    have both := first.trans (ih sound' live) sound' fun x there old =>
      Parts.route_old later there old
    have last : ((e :: rest).filterMap (Errand.mark? r)).getLast? =
        (rest.filterMap (Errand.mark? r)).getLast?.or (e.mark? r) := by
      cases mark : e.mark? r with
      | none => simp [mark]
      | some k => simp [mark, List.getLast?_cons]
    rw [last]
    exact both

theorem mark_rejections (es : List Errand) :
    (rejections es).countP (fun i => i.settles? == some r) =
      (es.filterMap (Errand.mark? r)).count none := by
  induction es with
  | nil => rfl
  | cons e rest ih =>
    cases e with
    | handOver box m change => exact ih
    | watch q cell =>
      by_cases mine : q = r
      · simpa [rejections, Errand.mark?, mine] using ih
      · simpa [rejections, Errand.mark?, mine] using ih
    | turnAway q =>
      have head : rejections (.turnAway q :: rest) =
          .message (Message.rejection q) :: rejections rest := rfl
      rw [head, List.countP_cons, ih]
      by_cases mine : q = r
      · simp [Errand.mark?, mine, StreamItem.settles?, settles?_rejection]
      · simp [Errand.mark?, mine, StreamItem.settles?, settles?_rejection]

/-! ### Steps -/

theorem queued_of_emits (emits : s.Emits t out) (r : Id) : t.queued r = s.queued r := by
  obtain ⟨put, posts, plain⟩ := emits.posts
  have none' : put.filterMap (fun e => e.2.shows? r) = [] :=
    List.filterMap_eq_nil_iff.mpr fun e he => (plain e he).shows r
  rw [queued, posts, List.filterMap_append, none', List.append_nil]
  rfl

theorem settlings_of_emits (emits : s.Emits t out) (live : t.phase ≠ .closed) (r : Id) :
    t.settlings r = s.settlings r + out.countP fun i => i.settles? == some r := by
  obtain ⟨done, sent, -, all⟩ := emits.sent
  rw [settlings, sent, List.countP_append, all live]
  rfl

/-- What is done to the entry of a request: in the order of the marks, a new entry is made for each
invocation that is queued, and it is taken out with each message that settles the request. -/
structure Tracks (r : Id) (s t : Session) (marks : List (Option Cell)) : Prop where
  queued : t.queued r = s.queued r ++ marks.filterMap id
  settled : t.phase ≠ .closed → t.settlings r = s.settlings r + marks.count none
  shows : t.phase ≠ .closed → Shows r s t marks.getLast?

theorem Tracks.refl (r : Id) (s : Session) : Tracks r s s [] :=
  ⟨(List.append_nil _).symm, fun _ => rfl, fun _ => rfl⟩

/-- A message that is sent makes a mark if it settles the request. -/
theorem tracks_sends {m : Message} (emits : s.Emits t [.message m])
    (table : t.phase ≠ .closed → ∀ r, Assoc.get? r t.interrupts =
      if m.settles? = some r then none else Assoc.get? r s.interrupts) :
    Tracks r s t ((StreamItem.message m).mark? r).toList := by
  have same := queued_of_emits emits r
  by_cases mine : m.settles? = some r
  · have mark : (StreamItem.message m).mark? r = some none := if_pos mine
    rw [mark]
    refine ⟨by rw [same]; simp, fun live => ?_, fun live => (table live r).trans (if_pos mine)⟩
    rw [settlings_of_emits emits live]
    simp [StreamItem.settles?, mine]
  · have mark : (StreamItem.message m).mark? r = none := if_neg mine
    rw [mark]
    refine ⟨by rw [same]; simp, fun live => ?_, fun live => (table live r).trans (if_neg mine)⟩
    rw [settlings_of_emits emits live]
    simp [StreamItem.settles?, mine]

theorem tracks_noteUnmatched (m : Message) : ∃ marks, Tracks r s (s.noteUnmatched m) marks := by
  have quiet : ∀ u : Session, u.posts = s.posts → u.wire = s.wire → u.interrupts = s.interrupts →
      Tracks r s u [] := fun u posts wire interrupts =>
    ⟨by simp [queued, posts], fun _ => by simp [settlings, wire],
      fun _ => congrArg (Assoc.get? r) interrupts⟩
  cases m with
  | invocation q registration details payload =>
    have emits := emits_noteUnmatched s (.invocation q registration details payload)
    refine ⟨_, tracks_sends emits fun live r => ?_⟩
    exact interrupts_sendOrTerminate (m := Message.rejection q) live r
  | _ => exact ⟨[], quiet _ rfl rfl rfl⟩

theorem Tracks.trans (first : Tracks r s t marks) (second : Tracks r t u marks')
    (sound : t.Sound) (phase : u.phase ≠ .closed → t.phase ≠ .closed)
    (old : ∀ x ∈ u.router.routes, x.handle ≤ t.router.lastHandle → x ∈ t.router.routes) :
    Tracks r s u (marks ++ marks') where
  queued := by
    rw [second.queued, first.queued, List.filterMap_append, List.append_assoc]
  settled live := by
    rw [second.settled live, first.settled (phase live), List.count_append, Nat.add_assoc]
  shows live := by
    rw [List.getLast?_append]
    exact (first.shows (phase live)).trans (second.shows live) sound old

theorem tracks_errands (sound : s.Sound) (m : Message) :
    let t := (s.distributed m).2.2.errands.foldl runErrand (s.handedAround m)
    Tracks r s t ((s.distributed m).2.2.errands.filterMap (Errand.mark? r)) := by
  intro t
  have emits : (s.handedAround m).Emits t _ := emits_errands (s.distributed m).2.2.errands
  obtain ⟨visits, trace, -⟩ := visited_handedAround sound m
  have posts : (s.handedAround m).posts = s.posts ++ visits.flatMap fun v =>
      v.1.handler.posts s.gone m v.2 := congrArg (s.posts ++ ·) trace.posts
  have errands : (s.distributed m).2.2.errands = visits.flatMap fun v =>
      v.1.handler.errands s.gone m v.2 := trace.errands
  have parts : Parts .orphaned ⟨s, []⟩ ⟨s.handedAround m, (s.distributed m).2.2.errands⟩ :=
    parts_dispatch sound.tidy m
  refine ⟨?_, fun live => ?_, fun live => ?_⟩
  · rw [queued_of_emits emits, queued, posts, List.filterMap_append, errands,
      List.filterMap_flatMap, List.filterMap_flatMap, List.filterMap_flatMap]
    refine congrArg (s.queued r ++ ·) (congrArg (visits.flatMap ·) (funext fun v => ?_))
    exact Target.shows_posts r s.gone m v.2 v.1.handler
  · rw [settlings_of_emits emits live, mark_rejections]
    rfl
  · have started : Shows r s (s.handedAround m) none := rfl
    have later : Parts .orphaned ⟨s.handedAround m, (s.distributed m).2.2.errands⟩ ⟨t, []⟩ :=
      parts_errands
    have sound' := sound.parts parts
    have both := started.trans (shows_errands (r := r) sound' live) sound' fun x there old =>
      Parts.route_old later there old
    rwa [Option.or_none] at both

theorem tracks_distribute (sound : s.Sound) (m : Message) :
    ∃ marks, Tracks r s (s.distribute m) marks := by
  have done := tracks_errands (r := r) sound m
  have parts : Parts .orphaned ⟨s, []⟩
      ⟨(s.distributed m).2.2.errands.foldl runErrand (s.handedAround m), []⟩ :=
    (parts_dispatch sound.tidy m).trans parts_errands
  rw [distribute_eq]
  dsimp only at done ⊢
  split
  · exact ⟨_, done⟩
  · let t := (s.distributed m).2.2.errands.foldl runErrand (s.handedAround m)
    have parts' : Parts .orphaned ⟨t, []⟩ ⟨t.noteUnmatched m, []⟩ := parts_noteUnmatched m
    obtain ⟨marks, noted⟩ := tracks_noteUnmatched (r := r) (s := t) m
    exact ⟨_, done.trans noted (sound.parts parts) (fun live => (emits_noteUnmatched _ m).live live)
      fun x there old => Parts.route_old parts' there old⟩

theorem tracks_step (sound : s.Sound) (r : Id) (input : Input) :
    ∃ marks, Tracks r s (s.step input) marks := by
  by_cases heeds : ∃ box, input = .forget box
  · obtain ⟨box, rfl⟩ := heeds
    exact ⟨[], (List.append_nil _).symm, fun _ => rfl, fun _ => rfl⟩
  · cases course_step s fun box same => heeds ⟨box, same⟩ with
    | handed came live same =>
      rw [same]
      exact tracks_distribute sound _
    | sends asked message emits table => exact ⟨_, tracks_sends emits table⟩
    | minds out emits silent table late =>
      refine ⟨[], by simp [queued_of_emits emits], fun live => ?_,
        fun live => congrArg (Assoc.get? r) (table live)⟩
      rw [settlings_of_emits emits live, List.countP_eq_zero.mpr]
      · rfl
      · intro i among settles
        have answers := StreamItem.answers?_of_settles? (eq_of_beq settles)
        exact nomatch (silent i among).symm.trans answers

theorem exists_latest (sound : s.Sound) {input : Input}
    (new : (s.step input).queued r ≠ s.queued r) :
    ∃ cell, ((s.step input).queued r).getLast? = some cell := by
  obtain ⟨marks, tracks⟩ := tracks_step sound r input
  refine Option.ne_none_iff_exists'.mp fun none' => new ?_
  have empty := tracks.queued.symm.trans (List.getLast?_eq_none_iff.mp none')
  rw [List.getLast?_eq_none_iff.mp none', (List.append_eq_nil_iff.mp empty).1]

/-! ### Runs -/

theorem closed_step (late : s.phase = .closed) (input : Input) :
    (s.step input).phase = .closed := by
  cases input with
  | forget box => exact late
  | _ => rwa [step_closed late (by simp)]

theorem closed_run (late : s.phase = .closed) (inputs : List Input) :
    (s.run inputs).phase = .closed := by
  induction inputs generalizing s with
  | nil => exact late
  | cons input rest ih => exact ih (closed_step late input)

/-- Nothing is done to the interrupts by a message that settles no invocation. -/
theorem keeps_of_send {m : Message} (plain : m.settles? = none) (box : Option Box)
    (live : (s.step (.command (.send m box))).phase ≠ .closed) :
    (s.step (.command (.send m box))).interrupts = s.interrupts ∧
      (s.step (.command (.send m box))).router = s.router := by
  have opened : s.phase ≠ .closed := fun late => live (closed_step late _)
  have obeyed : s.step (.command (.send m box)) = s.obey (.send m box) := if_neg opened
  rw [obeyed] at live ⊢
  by_cases sends : s.phase = .established ∨ s.phase = .closing
  · have sent : s.obey (.send m box) =
        (s.sendOrTerminate m).1.answer box (.sent (s.sendOrTerminate m).2) := if_pos sends
    rw [sent, answer_phase] at live
    rw [sent, answer_interrupts, answer_router, sendOrTerminate_of_plain plain live]
    exact ⟨rfl, rfl⟩
  · have refused : s.obey (.send m box) =
        s.answer box (.sent (.error Failure.sessionClosed)) := if_neg sends
    rw [refused, answer_interrupts, answer_router]
    exact ⟨rfl, rfl⟩

theorem run_append (s : Session) (before after : List Input) :
    s.run (before ++ after) = (s.run before).run after := List.foldl_append

theorem tracks_run (sound : s.Sound) (r : Id) (inputs : List Input) :
    ∃ marks, Tracks r s (s.run inputs) marks ∧ ∀ x ∈ (s.run inputs).router.routes,
      x.handle ≤ s.router.lastHandle → x ∈ s.router.routes := by
  induction inputs generalizing s with
  | nil => exact ⟨[], Tracks.refl r s, fun _ there _ => there⟩
  | cons input rest ih =>
    have sound' := sound.step input
    obtain ⟨marks, first⟩ := tracks_step sound r input
    obtain ⟨marks', later, old⟩ := ih sound'
    refine ⟨marks ++ marks', first.trans later sound' (fun live late => ?_) old,
      fun x there low => route_old_step sound (old x there ?_) low⟩
    · exact live (closed_run late rest)
    · exact Nat.le_trans low (lastHandle_step sound input)

/-- The cells of the invocations that were queued, in order. -/
def cells (s : Session) : List Cell := s.posts.filterMap fun e => e.2.cell?

theorem cells_of_emits (emits : s.Emits t out) : t.cells = s.cells := by
  obtain ⟨put, posts, plain⟩ := emits.posts
  have none' : put.filterMap (fun e => e.2.cell?) = [] :=
    List.filterMap_eq_nil_iff.mpr fun e he => (plain e he).cell
  rw [cells, posts, List.filterMap_append, none', List.append_nil]
  rfl

theorem cells_step (sound : s.Sound) (all : s.cells = List.range s.nextCell) (input : Input) :
    (s.step input).cells = List.range (s.step input).nextCell := by
  by_cases heeds : ∃ box, input = .forget box
  · obtain ⟨box, rfl⟩ := heeds
    exact all
  · cases course_step s fun box same => heeds ⟨box, same⟩ with
    | @handed m came live same =>
      have emits := emits_distribute s m
      obtain ⟨visits, trace, -⟩ := visited_handedAround sound m
      obtain ⟨n, next, new⟩ := trace.cells
      have around : (s.handedAround m).cells = s.cells ++ List.range' s.nextCell n := by
        have posts : (s.handedAround m).posts = s.posts ++ visits.flatMap fun v =>
            v.1.handler.posts s.gone m v.2 := congrArg (s.posts ++ ·) trace.posts
        rw [cells, posts, List.filterMap_append, new]
        rfl
      have more := List.range'_append_1 (s := 0) (m := s.nextCell) (n := n)
      rw [Nat.zero_add] at more
      rw [same, cells_of_emits emits, emits.cells, around, all, List.range_eq_range', more,
        List.range_eq_range']
      exact congrArg (List.range' 0) next.symm
    | sends asked message emits table => rw [cells_of_emits emits, emits.cells, all]
    | minds out emits silent table late => rw [cells_of_emits emits, emits.cells, all]

/-- Every invocation that was queued has a cell of its own. -/
theorem cells_run (sound : s.Sound) (all : s.cells = List.range s.nextCell) (inputs : List Input) :
    (s.run inputs).cells = List.range (s.run inputs).nextCell := by
  induction inputs generalizing s with
  | nil => exact all
  | cons input rest ih => exact ih (sound.step input) (cells_step sound all input)

/-- The commands carry no other routes than those that somebody was told of before. -/
def Modest (s : Session) : List Input → Prop
  | [] => True
  | input :: rest => input.Modest s.Told ∧ Modest (s.step input) rest

theorem Work.Indexed.run (indexed : Work.Indexed ⟨s, []⟩) {inputs : List Input}
    (modest : s.Modest inputs) : Work.Indexed ⟨s.run inputs, []⟩ := by
  induction inputs generalizing s with
  | nil => exact indexed
  | cons input rest ih => exact ih (indexed.step modest.1) modest.2

theorem modest_append {before after : List Input} (first : s.Modest before)
    (later : (s.run before).Modest after) : s.Modest (before ++ after) := by
  induction before generalizing s with
  | nil => exact later
  | cons input rest ih => exact ⟨first.1, ih first.2 later⟩

theorem Modest.append {before after : List Input} (modest : s.Modest (before ++ after)) :
    s.Modest before ∧ (s.run before).Modest after := by
  induction before generalizing s with
  | nil => exact ⟨trivial, modest⟩
  | cons input rest ih =>
    obtain ⟨first, later⟩ := ih modest.2
    exact ⟨⟨modest.1, first⟩, later⟩

theorem work_indexed_established (wire : Wire) (now closeTimeout : Nat) :
    Work.Indexed ⟨established wire now closeTimeout, []⟩ :=
  ⟨sound_established wire now closeTimeout, telling_established wire now closeTimeout,
    indexed_established wire now closeTimeout, by simp⟩

/-- Interrupts of an invocation are shown in the cell that was marked last. -/
theorem Tracks.cell? (tracks : Tracks r s t marks) (before : Work.Indexed ⟨s, []⟩)
    (after : Work.Indexed ⟨t, []⟩) (live : t.phase ≠ .closed)
    (old : ∀ x ∈ t.router.routes, x.handle ≤ s.router.lastHandle → x ∈ s.router.routes) :
    t.cell? r = marks.getLast?.getD (s.cell? r) := by
  have shows := tracks.shows live
  cases last : marks.getLast? with
  | none =>
    have same : Assoc.get? r t.interrupts = Assoc.get? r s.interrupts := by rwa [last] at shows
    cases known : Assoc.get? r s.interrupts with
    | none => simp [Session.cell?, same, known]
    | some h =>
      obtain ⟨cell, shown, there⟩ := after.session.cell?_of_known after.sound (same.trans known)
      obtain ⟨cell', shown', there'⟩ := before.session.cell?_of_known before.sound known
      have bound : h ≤ s.router.lastHandle := before.sound.bounded _ (Assoc.mem_of_get? known)
      have equal := Router.eq_of_handle_eq before.sound.tidy.ordered (old _ there bound) there' rfl
      obtain rfl : cell = cell' := Target.interrupt.inj (congrArg Route.handler equal)
      exact shown.trans shown'.symm
  | some mark =>
    cases mark with
    | none =>
      have gone : Assoc.get? r t.interrupts = none := by rwa [last] at shows
      simp [Session.cell?, gone]
    | some cell =>
      rw [last] at shows
      obtain ⟨h, known, own⟩ := shows
      obtain ⟨cell', shown, there⟩ := after.session.cell?_of_known after.sound known
      rw [shown, Target.interrupt.inj (own _ there rfl)]
      rfl

theorem Tracks.of_run (indexed : Work.Indexed ⟨s, []⟩) {inputs : List Input}
    (modest : s.Modest inputs) (live : (s.run inputs).phase ≠ .closed) (r : Id) :
    ∃ marks, Tracks r s (s.run inputs) marks ∧
      (s.run inputs).cell? r = marks.getLast?.getD (s.cell? r) := by
  obtain ⟨marks, tracks, old⟩ := tracks_run indexed.sound r inputs
  exact ⟨marks, tracks, tracks.cell? indexed (indexed.run modest) live old⟩

/-- The last invocation that was queued ends the list of those that were. -/
theorem getLast?_of_mark {cell : Cell} (last : marks.getLast? = some (some cell)) :
    (marks.filterMap id).getLast? = some cell := by
  obtain ⟨front, rfl⟩ := List.getLast?_eq_some_iff.mp last
  simp

/-- If nothing was settled, but something queued, an invocation was queued last. -/
theorem getLast?_of_unsettled (unsettled : marks.count none = 0) (some' : marks.filterMap id ≠ []) :
    ∃ cell, marks.getLast? = some (some cell) := by
  cases last : marks.getLast? with
  | none =>
    rw [List.getLast?_eq_none_iff] at last
    exact absurd (by rw [last]; rfl) some'
  | some mark =>
    cases mark with
    | none => exact absurd (List.mem_of_getLast? last) (List.count_eq_zero.mp unsettled)
    | some cell => exact ⟨cell, rfl⟩

/-- If nothing was queued, it was settled last, if anything was done at all. -/
theorem getLast?_of_unqueued (none' : marks.filterMap id = []) :
    marks.getLast? = if marks.count none = 0 then none else some none := by
  cases last : marks.getLast? with
  | none =>
    rw [List.getLast?_eq_none_iff] at last
    simp [last]
  | some mark =>
    cases mark with
    | none =>
      have among : marks.count none ≠ 0 := fun zero =>
        List.count_eq_zero.mp zero (List.mem_of_getLast? last)
      rw [if_neg among]
    | some cell =>
      have among := getLast?_of_mark last
      rw [none'] at among
      exact nomatch among

/-- Interrupts of an invocation are shown in no other cell than that of the one queued last. -/
theorem cell?_latest (indexed : Work.Indexed ⟨s, []⟩) (bare : s.interrupts = [])
    {inputs : List Input} (modest : s.Modest inputs) (live : (s.run inputs).phase ≠ .closed)
    {cell : Cell} (shown : (s.run inputs).cell? r = some cell) :
    ((s.run inputs).queued r).getLast? = some cell := by
  obtain ⟨marks, tracks, same⟩ := Tracks.of_run indexed modest live r
  have none' : s.cell? r = none := by simp [cell?, bare, Assoc.get?]
  rw [none', shown] at same
  cases last : marks.getLast? with
  | none => simp [last] at same
  | some mark =>
    rw [last, Option.getD_some] at same
    rw [tracks.queued, List.getLast?_append, getLast?_of_mark (same ▸ last)]
    rfl

/-- Once the last invocation of a request has been queued, its interrupts are shown until a message
goes out that settles the request, and not any more after that. -/
theorem cell?_of_queued (indexed : Work.Indexed ⟨s, []⟩) {input : Input} {after : List Input}
    (modest : s.Modest (input :: after)) (live : ((s.step input).run after).phase ≠ .closed) :
    let t := s.step input
    let u := t.run after
    t.queued r ≠ s.queued r → u.queued r = t.queued r → t.settlings r = s.settlings r →
      u.cell? r = if u.settlings r = t.settlings r then (u.queued r).getLast? else none := by
  intro t u new same unsettled
  have live' : t.phase ≠ .closed := fun late => live (closed_run late after)
  have indexed' : Work.Indexed ⟨t, []⟩ := indexed.step modest.1
  obtain ⟨marks, tracks⟩ := tracks_step indexed.sound r input
  obtain ⟨marks', tracks', shown'⟩ := Tracks.of_run indexed' modest.2 live r
  have first : Tracks r s t marks := tracks
  have later : Tracks r t u marks' := tracks'
  have shown : t.cell? r = marks.getLast?.getD (s.cell? r) :=
    first.cell? indexed indexed' live' fun x there low => route_old_step indexed.sound there low
  -- nothing was settled when the invocation was queued
  have settled := first.settled live'
  have unmarked : marks.count none = 0 := by omega
  obtain ⟨cell, last⟩ := getLast?_of_unsettled unmarked fun none' => by
    rw [first.queued, none', List.append_nil] at new
    exact new rfl
  have latest : (t.queued r).getLast? = some cell := by
    rw [first.queued, List.getLast?_append, getLast?_of_mark last]
    rfl
  -- afterwards no invocation was queued
  have settled' := later.settled live
  have unqueued : marks'.filterMap id = [] := by
    have queued := later.queued
    rw [same] at queued
    exact List.self_eq_append_right.mp queued
  have last' := getLast?_of_unqueued unqueued
  have goes : u.settlings r = t.settlings r ↔ marks'.count none = 0 := by omega
  have shows : u.cell? r = marks'.getLast?.getD (t.cell? r) := shown'
  rw [shows, shown, last, last', same, latest]
  simp only [goes]
  split <;> rfl

end Session

end WampClient
