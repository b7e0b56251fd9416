import WampClient.Proofs.Session.Apart
import WampClient.Proofs.Session.Sound

/-! The ledger of a request. As long as someone waits for it, it is in one of three places: its
route waits for what comes in, its reply is about to be handed over, or its last post lies in the
box. Every part of a step keeps the count. -/
namespace WampClient

/-- Whether a post is what a request with this route waits for: a message that the route takes and
after which no more follows, or the failure that the session ended with. -/
def Route.Settles (x : Route Target) (p : Post) : Prop :=
  match x.handler, p with
  | .reply _ _, .reply (.ok (m, _)) => x.takes (RouteKey.ofMessage m) = true
  | .reply _ _, .reply (.error f) => f.kind = .network
  | .call _, .outcome (.ok m) => x.takes (RouteKey.ofMessage m) = true ∧ m.moreFollows = false
  | .call _, .outcome (.error f) => f.kind = .network
  | _, _ => False

theorem Route.settles_route {x : Route Target} {m : Message}
    (settles : x.Settles (.reply (.ok (m, none)))) (route : Option Handle) :
    x.Settles (.reply (.ok (m, route))) := by
  rcases h : x.handler with ⟨own, change⟩ | own | feed | cell <;> simp_all [Route.Settles]

theorem Route.settles_of_mem_lastPosts {x : Route Target} {f : Failure}
    (network : f.kind = .network) {box : Box} {p : Post} (told : (box, p) ∈ x.handler.lastPosts f) :
    x.Settles p := by
  rcases h : x.handler with ⟨_ | own, change⟩ | own | feed | cell <;>
    simp_all [Target.lastPosts, Route.Settles]

/-- The input neither asks for something to be put into the box, nor takes out the route, nor lets
go of the box. -/
structure Input.Spares (h : Handle) (b : Box) (input : Input) : Prop where
  waiter : input.waiter? ≠ some b
  route : input.removes h = false
  box : input ≠ .forget b

namespace Session

/-- The routes that wait on a box. -/
def waiting (s : Session) (b : Box) : Nat :=
  s.router.routes.countP fun x => x.handler.waiter? == some b

/-- The last posts that lie in a box. -/
def ended (s : Session) (b : Box) : Nat :=
  s.posts.countP fun e => e.1 == b && e.2.isLast

/-- The replies that are about to be put into a box. -/
def handing (es : List Errand) (b : Box) : Nat :=
  es.countP fun e => e.waiter? == some b

/-- A request is under way, or has been settled, and its waiter is still there. -/
structure Work.Owes (x : Route Target) (b : Box) (w : Work) : Prop where
  waits : x.handler.waiter? = some b
  given : x.handle ≤ w.session.router.lastHandle
  heard : b ∉ w.session.gone
  spares : w.Spares x.handle
  alone : ∀ y ∈ w.session.router.routes,
    y.handle = x.handle ∨ y.handler.waiter? = some b → y = x
  answered : ∀ m change, .handOver (some b) m change ∈ w.errands →
    x.Settles (.reply (.ok (m, none)))
  settled : ∀ p, (b, p) ∈ w.session.posts → p.isLast = true → x.Settles p
  closes : w.session.phase = .closed → x ∉ w.session.router.routes
  once : w.session.waiting b + handing w.errands b + w.session.ended b = 1

variable {input : Input} {w w' : Work} {s t : Session} {es : List Errand} {x : Route Target}
  {b : Box}

/-! ### Counting -/

theorem waiting_congr (router : t.router = s.router) : t.waiting b = s.waiting b := by
  rw [waiting, waiting, router]

theorem waiting_add (keys : List RouteKey) {target : Target} (other : target.waiter? ≠ some b) :
    { s with router := (s.router.add keys target).1 }.waiting b = s.waiting b := by
  simp [waiting, Router.routes_add, other]

theorem waiting_eraseRoute {route : Handle}
    (other : ∀ y ∈ s.router.routes, y.handler.waiter? = some b → y.handle ≠ route) :
    (s.eraseRoute route).waiting b = s.waiting b := by
  rw [waiting, waiting, eraseRoute, Router.routes_erase, List.countP_filter]
  refine List.countP_congr fun y hy => ?_
  have := other y hy
  simp_all

theorem waiting_eraseRoute_self {route : Handle}
    (only : ∀ y ∈ s.router.routes, y.handler.waiter? = some b → y.handle = route) :
    (s.eraseRoute route).waiting b = 0 := by
  rw [waiting, eraseRoute, Router.routes_erase, List.countP_filter, List.countP_eq_zero]
  intro y hy
  have := only y hy
  simp_all

@[simp] theorem ended_eraseRoute (s : Session) (route : Handle) :
    (s.eraseRoute route).ended b = s.ended b := rfl

theorem handing_cons (e : Errand) : handing (e :: es) b =
    handing es b + (e.waiter? == some b).toNat := by
  rw [handing, List.countP_cons]
  cases e.waiter? == some b <;> rfl

theorem handing_append (e : Errand) : handing (es ++ [e]) b =
    handing es b + (e.waiter? == some b).toNat := by
  rw [handing, List.countP_append, List.countP_singleton]
  cases e.waiter? == some b <;> rfl

theorem countP_arriving (here : b ∉ s.gone) (entries : List (Box × Post)) :
    (s.arriving entries).countP (fun e => e.1 == b && e.2.isLast) =
      entries.countP fun e => e.1 == b && e.2.isLast := by
  rw [arriving, List.countP_filter]
  refine List.countP_congr fun e _ => ?_
  by_cases same : e.1 = b <;> simp [same, here]

theorem ended_answer (here : b ∉ s.gone) (box : Option Box) (p : Post) :
    (s.answer box p).ended b = s.ended b + (box == some b && p.isLast).toNat := by
  rw [answer_eq, ended, ended, List.countP_append, countP_arriving here]
  cases box with
  | none => rfl
  | some box =>
    have same : (some box == some b) = (box == b) := rfl
    rw [Option.toList_some, List.map_singleton, List.countP_singleton, same]
    cases box == b && p.isLast <;> rfl

theorem ended_post (here : b ∉ s.gone) (box : Box) (p : Post) :
    (s.post box p).ended b = s.ended b + (box == b && p.isLast).toNat :=
  ended_answer here (some box) p

/-- Each route that waits on the box has one last post. -/
theorem countP_lastPosts (routes : List (Route Target)) (f : Failure) (b : Box) :
    (routes.flatMap fun x => x.handler.lastPosts f).countP (fun e => e.1 == b && e.2.isLast) =
      routes.countP fun x => x.handler.waiter? == some b := by
  induction routes with
  | nil => rfl
  | cons x rest ih =>
    rw [List.flatMap_cons, List.countP_append, ih, List.countP_cons, Nat.add_comm]
    congr 1
    rcases x.handler with ⟨_ | own, change⟩ | own | feed | cell <;>
      simp [Target.lastPosts, Target.waiter?, Post.isLast, List.countP_singleton]

theorem ended_terminate (here : b ∉ s.gone) (live : s.phase ≠ .closed) (f : Failure) :
    (s.terminate f).ended b = s.ended b + s.waiting b := by
  have closes : (s.closeWaiters.map fun box => (box, Post.left)).countP
      (fun e => e.1 == b && e.2.isLast) = 0 := by
    simp [List.countP_map, List.countP_eq_zero, Post.isLast]
  rw [terminate_eq live, ended, ended, List.countP_append, countP_arriving here, lastPosts,
    List.countP_append, countP_lastPosts, closes]
  rfl

/-! ### What every part keeps -/

/-- A route that goes is the one that waits, or another. -/
theorem Work.Owes.waiting_erase (owes : Work.Owes x b ⟨s, es⟩) {y : Route Target}
    (there : y ∈ s.router.routes) :
    s.waiting b =
      (s.eraseRoute y.handle).waiting b + (y.handler.waiter? == some b).toNat := by
  by_cases mine : y.handler.waiter? = some b
  · have counted : 0 < s.waiting b := List.countP_pos_iff.mpr ⟨y, there, by simp [mine]⟩
    have same := owes.alone y there (Or.inr mine)
    have left : (s.eraseRoute y.handle).waiting b = 0 :=
      waiting_eraseRoute_self fun z hz waits => by rw [owes.alone z hz (Or.inr waits), same]
    have once := owes.once
    have one : (y.handler.waiter? == some b).toNat = 1 := by simp [mine]
    rw [left, one]
    dsimp only at once
    omega
  · have kept : (s.eraseRoute y.handle).waiting b = s.waiting b := by
      refine waiting_eraseRoute fun z hz waits equal => mine ?_
      have same := owes.alone z hz (Or.inr waits)
      rw [owes.alone y there (Or.inl (by rw [← equal, same]))]
      exact owes.waits
    have none' : (y.handler.waiter? == some b).toNat = 0 := by simp [mine]
    rw [kept, none', Nat.add_zero]

theorem Work.Owes.waiting_spared (owes : Work.Owes x b ⟨s, es⟩) {route : Handle}
    (other : route ≠ x.handle)
    (old : ∀ y ∈ t.router.routes, y.handler.waiter? = some b → y ∈ s.router.routes) :
    (t.eraseRoute route).waiting b = t.waiting b := by
  refine waiting_eraseRoute fun y hy waits equal => other ?_
  rw [← equal, owes.alone y (old y hy waits) (Or.inr waits)]

theorem mem_routes_add_of_waits {keys : List RouteKey} {target : Target} {y : Route Target}
    (other : target.waiter? ≠ some b) (there : y ∈ (s.router.add keys target).1.routes)
    (waits : y.handler.waiter? = some b) : y ∈ s.router.routes := by
  rcases mem_routes_add.mp there with there | rfl
  · exact there
  · exact absurd waits other

theorem Work.Owes.once_part (owes : w.Owes x b) (part : Part input w w')
    (removes : input.removes x.handle = false) :
    w'.session.waiting b + handing w'.errands b + w'.session.ended b = 1 := by
  have once := owes.once
  have here := owes.heard
  have spares := owes.spares
  -- The one end that the box is due lies with a route, with an errand or in the box: a part moves
  -- it on from one of the three to the next, or leaves it where it is.
  cases part with
  | quiet alike =>
    rw [ended, alike.posts, waiting_congr alike.router]
    exact once
  | posted box more plain =>
    rw [waiting_congr (post_router _ _ _), ended_post here, more]
    simpa using once
  | accepted asked =>
    rw [waiting_congr (post_router _ _ _), ended_post here]
    simpa [Post.isLast] using once
  | @removed s es route asked =>
    subst asked
    have other : route ≠ x.handle := by
      intro same
      simp [Input.removes, Command.removes, same] at removes
    rw [owes.waiting_spared other fun _ hy _ => hy]
    exact once
  | forgotten asked => exact once
  | @replied s es y box change m there waits takes =>
    rw [owes.waiting_erase there, waits] at once
    rw [handing_append, ended_eraseRoute]
    simp only [Target.waiter?, Errand.waiter?] at once ⊢
    omega
  | @settled s es y box m there waits takes last =>
    rw [owes.waiting_erase there, waits] at once
    rw [waiting_congr (post_router _ _ _), ended_post (by exact here), ended_eraseRoute]
    have same : (some box == some b) = (box == b) := rfl
    simp only [Target.waiter?, same, Post.isLast, last, Bool.not_false, Bool.and_true] at once ⊢
    omega
  | @dropped s es y box there waits gone =>
    have other : box ≠ b := fun same => here (same ▸ gone)
    rw [owes.waiting_erase there, waits] at once
    have none' : (some box == some b) = false := by simpa using other
    simp only [Target.waiter?, none', Bool.toNat_false, Nat.add_zero] at once
    exact once
  | deferred e other =>
    have none' : e.waiter? = none := by
      cases e with
      | handOver box m change => exact absurd rfl (other box m change)
      | _ => rfl
    rw [handing_append, none']
    simpa using once
  | @enrolled s es box m feed key confirms heard =>
    rw [handing_cons] at once
    rw [waiting_congr (answer_router _ _ _), waiting_add _ (by simp [Target.waiter?]),
      ended_answer (by exact here)]
    simp only [Errand.waiter?, Post.isLast, Bool.and_true] at once ⊢
    have same : ({ s with router := (s.router.add [key] (.feed feed)).1 } : Session).ended b =
        s.ended b := rfl
    omega
  | @disowned s es box m feed key confirms gone =>
    have other : box ≠ b := fun same => here (same ▸ gone)
    have none' : (some box == some b) = false := by simpa using other
    have feeds : (Target.feed feed).waiter? ≠ some b := by simp [Target.waiter?]
    have later : s.router.lastHandle + 1 ≠ x.handle := Nat.ne_of_gt (Nat.lt_succ_of_le owes.given)
    simp only [handing_cons, Errand.waiter?, none', Bool.toNat_false, Nat.add_zero] at once
    rw [owes.waiting_spared later fun y hy => mem_routes_add_of_waits feeds hy, waiting_add _ feeds]
    exact once
  | @withdrawn s es box m route confirms =>
    have other : route ≠ x.handle := fun same =>
      spares.errands _ _ _ List.mem_cons_self (by rw [same])
    rw [owes.waiting_spared other fun _ hy _ => hy]
    exact once
  | unchanged box idle => exact once
  | handedOver box m =>
    rw [handing_cons] at once
    rw [waiting_congr (answer_router _ _ _), ended_answer here]
    simp only [Errand.waiter?, Post.isLast, Bool.and_true] at once ⊢
    omega
  | @watched s es request cell =>
    have signals : (Target.interrupt cell).waiter? ≠ some b := by simp [Target.waiter?]
    have added : (s.watching request cell).waiting b = s.waiting b := waiting_add _ signals
    rcases watch_eq s request cell with watched | ⟨previous, known, watched⟩
    · rw [watched, added]
      exact once
    · rw [watched, owes.waiting_spared (spares.interrupts _ known)
        fun y hy => mem_routes_add_of_waits signals hy, added]
      exact once
  | skipped request => exact once
  | @retired s es request route known =>
    let t : Session := { s with interrupts := Assoc.erase request s.interrupts }
    have kept : (t.eraseRoute route).waiting b = t.waiting b :=
      owes.waiting_spared (spares.interrupts _ (Assoc.mem_of_get? known)) fun _ hy _ => hy
    rw [kept]
    exact once
  | @terminated s es f live kind =>
    have none' : (s.terminate f).waiting b = 0 := by
      rw [terminate_eq live]
      rfl
    rw [ended_terminate here live, none']
    dsimp only at once ⊢
    omega

theorem Work.Owes.prepared (owes : Work.Owes x b ⟨s, []⟩) (asks : input.waiter? ≠ some b)
    (removes : input.removes x.handle = false) : Work.Owes x b ⟨s.prepared input, []⟩ := by
  rcases prepared_cases s input with same | ⟨m, keys, target, box, rfl, live, added⟩
  · rwa [same]
  · have spares := owes.spares.prepared removes
    rw [added] at spares ⊢
    exact {
      waits := owes.waits
      given := Nat.le_succ_of_le owes.given
      heard := owes.heard
      spares := spares
      alone := by
        intro y hy mine
        rcases mem_routes_add.mp hy with old | rfl
        · exact owes.alone y old mine
        · rcases mine with same | waits
          · exact absurd owes.given (Nat.not_le_of_gt (by rw [← same]; exact Nat.lt_succ_self _))
          · exact absurd waits asks
      answered := owes.answered
      settled := owes.settled
      closes := fun closed => by simp [live] at closed
      once := by
        rw [waiting_add _ asks]
        exact owes.once }

theorem Work.Owes.part (owes : w.Owes x b) (part : Part input w w')
    (removes : input.removes x.handle = false) (heeds : input ≠ .forget b) : w'.Owes x b where
  waits := owes.waits
  given := Nat.le_trans owes.given part.lastHandle_le
  heard here := (part.gone_origin here).elim owes.heard heeds
  spares := owes.spares.part part (Or.inl owes.given)
  alone y hy mine := by
    rcases part.route_origin hy with old | ⟨⟨last, -⟩, new⟩
    · exact owes.alone y old mine
    · exfalso
      rcases mine with same | waits
      · exact Nat.not_succ_le_self _ (last ▸ same ▸ owes.given)
      · rcases new with ⟨feed, fed, -⟩ | ⟨cell, own, -⟩
        · simp [fed, Target.waiter?] at waits
        · simp [own, Target.waiter?] at waits
  answered m change he := by
    rcases part.errand_origin he with ⟨change', old, -⟩ | ⟨y, hy, waits, takes⟩
    · exact owes.answered m change' old
    · obtain rfl := owes.alone y hy (Or.inr (by rw [waits]; rfl))
      simpa [Route.Settles, waits] using takes
  settled p hp last := by
    rcases part.post_origin hp with old | ⟨-, ⟨more, -⟩ | ⟨m, keys, target, -, rfl⟩ |
      ⟨y, hy, waits, m, takes, rfl⟩ | ⟨m, change, he, route, rfl, -⟩ | ⟨f, network, told⟩⟩
    · exact owes.settled p old last
    · simp [more] at last
    · simp [Post.isLast] at last
    · obtain rfl := owes.alone y hy (Or.inr (by rw [waits]; rfl))
      simpa [Route.Settles, waits, takes, Post.isLast] using last
    · exact Route.settles_route (owes.answered m change he) route
    · rcases mem_lastPosts told with rfl | ⟨y, hy, told⟩
      · simp [Post.isLast] at last
      · obtain rfl := owes.alone y hy (Or.inr (Target.waiter_of_mem_lastPosts told))
        exact Route.settles_of_mem_lastPosts network told
  closes closed there := by
    rcases part.phase_origin closed with before | none'
    · rcases part.route_origin there with old | ⟨⟨last, -⟩, -⟩
      · exact owes.closes before old
      · exact Nat.not_succ_le_self _ (last ▸ owes.given)
    · simp [none'] at there
  once := owes.once_part part removes

theorem Work.Owes.parts (owes : w.Owes x b) (parts : Parts input w w')
    (removes : input.removes x.handle = false) (heeds : input ≠ .forget b) : w'.Owes x b := by
  induction parts with
  | refl => exact owes
  | tail _ part ih => exact ih.part part removes heeds

theorem Work.Owes.step (owes : Work.Owes x b ⟨s, []⟩) (sound : s.Sound)
    (spares : input.Spares x.handle b) : Work.Owes x b ⟨s.step input, []⟩ :=
  (owes.prepared spares.waiter spares.route).parts (parts_step sound.tidy input) spares.route
    spares.box

theorem Work.Owes.run (owes : Work.Owes x b ⟨s, []⟩) (sound : s.Sound) {inputs : List Input}
    (spares : ∀ input ∈ inputs, input.Spares x.handle b) : Work.Owes x b ⟨s.run inputs, []⟩ := by
  induction inputs generalizing s with
  | nil => exact owes
  | cons input rest ih =>
    exact ih (owes.step sound (spares input List.mem_cons_self)) (sound.step input)
      fun later h => spares later (List.mem_cons_of_mem _ h)

/-- A request opens its ledger when it is accepted. -/
theorem owes_step (sound : s.Sound) (live : s.phase = .established)
    (idle : Work.Idle b ⟨s, []⟩) (heard : b ∉ s.gone) (m : Message) (keys : List RouteKey)
    {target : Target} (answer : Option Box) (waits : target.waiter? = some b)
    (spares : Work.Spares (s.router.lastHandle + 1) ⟨s, []⟩)
    (removes : target.removes (s.router.lastHandle + 1) = false) :
    Work.Owes ⟨s.router.lastHandle + 1, keys, target⟩ b
      ⟨s.step (.command (.request m keys target answer)), []⟩ := by
  have installed : Work.Owes ⟨s.router.lastHandle + 1, keys, target⟩ b
      ⟨s.prepared (.command (.request m keys target answer)), []⟩ := by
    have kept : Work.Spares (s.router.lastHandle + 1)
        ⟨s.prepared (.command (.request m keys target answer)), []⟩ := spares.prepared removes
    rw [prepared_request live] at kept ⊢
    exact {
      waits := waits
      given := Nat.le_refl _
      heard := heard
      spares := kept
      alone := by
        intro y hy mine
        rcases mem_routes_add.mp hy with old | rfl
        · rcases mine with same | waits
          · exact absurd (sound.tidy.bounded y old) (by simp [same])
          · exact absurd waits (idle.routes y old)
        · rfl
      answered := fun _ _ he => absurd he List.not_mem_nil
      settled := fun p hp last => by simp [idle.posts p hp] at last
      closes := fun closed => by simp [live] at closed
      once := by
        have before : s.waiting b = 0 :=
          List.countP_eq_zero.mpr fun y hy => by simpa using idle.routes y hy
        have none' : s.ended b = 0 := by
          refine List.countP_eq_zero.mpr fun e he last => ?_
          obtain ⟨same, last⟩ := Bool.and_eq_true_iff.mp last
          obtain rfl : e.1 = b := by simpa using same
          simp [idle.posts e.2 he] at last
        have after :
            ({ s with router := (s.router.add keys target).1 } : Session).waiting b = 1 := by
          rw [waiting, Router.routes_add, List.countP_append]
          simp only [waiting] at before
          simp [before, waits]
        rw [after]
        exact congrArg (1 + 0 + ·) none' }
  exact installed.parts (parts_step sound.tidy _) removes fun equal => nomatch equal

/-! ### What the ledger says between steps -/

/-- The last posts in a box. -/
def lasts (s : Session) (b : Box) : List Post := (s.postsTo b).filter Post.isLast

theorem length_lasts (s : Session) (b : Box) : (s.lasts b).length = s.ended b := by
  rw [lasts, ← List.countP_eq_length_filter, postsTo, List.countP_filterMap, ended]
  refine List.countP_congr fun e _ => ?_
  by_cases same : e.1 = b <;> simp [same]

/-- The request waits: its route is there, and nothing that settles it has come. -/
structure Pending (s : Session) (x : Route Target) (b : Box) : Prop where
  route : x ∈ s.router.routes
  silent : s.lasts b = []

/-- The request is settled: its route is gone, and one thing that settles it has come. -/
structure Settled (s : Session) (x : Route Target) (b : Box) : Prop where
  route : ∀ y ∈ s.router.routes, y.handle ≠ x.handle
  told : ∃ p, s.lasts b = [p] ∧ x.Settles p

/-- The request is accounted for: it is either pending or settled, and with the end of the session
it is settled. -/
structure Accounts (s : Session) (x : Route Target) (b : Box) : Prop where
  one : Xor (s.Pending x b) (s.Settled x b)
  ended : s.phase = .closed → s.Settled x b

theorem Pending.not_settled (pending : s.Pending x b) : ¬ s.Settled x b := by
  rintro ⟨-, p, one, -⟩
  simp [pending.silent] at one

theorem Work.Owes.pending_or_settled (owes : Work.Owes x b ⟨s, []⟩) :
    s.Pending x b ∨ s.Settled x b := by
  have once : s.waiting b + s.ended b = 1 := by simpa [handing] using owes.once
  by_cases there : x ∈ s.router.routes
  · refine Or.inl ⟨there, List.length_eq_zero_iff.mp ?_⟩
    have counted : 0 < s.waiting b := List.countP_pos_iff.mpr ⟨x, there, by simp [owes.waits]⟩
    rw [length_lasts]
    omega
  · have absent : ∀ y ∈ s.router.routes, y ≠ x := fun y hy same => there (same ▸ hy)
    have none' : s.waiting b = 0 := List.countP_eq_zero.mpr fun y hy waits =>
      absent y hy (owes.alone y hy (Or.inr (by simpa using waits)))
    have one : (s.lasts b).length = 1 := by
      rw [length_lasts]
      omega
    obtain ⟨p, hp⟩ := List.length_eq_one_iff.mp one
    refine Or.inr ⟨fun y hy same => absent y hy (owes.alone y hy (Or.inl same)), p, hp, ?_⟩
    obtain ⟨put, last⟩ := List.mem_filter.mp (hp ▸ List.mem_singleton_self p)
    obtain ⟨e, he, same⟩ := List.mem_filterMap.mp put
    split at same
    next mine =>
      obtain rfl := Option.some.inj same
      exact owes.settled e.2 (mine ▸ he) last
    next => exact absurd same (by simp)

theorem Work.Owes.accounts (owes : Work.Owes x b ⟨s, []⟩) : s.Accounts x b where
  one := owes.pending_or_settled.imp (fun pending => ⟨pending, pending.not_settled⟩)
    fun settled => ⟨settled, fun pending => pending.not_settled settled⟩
  ended closed :=
    owes.pending_or_settled.resolve_left fun pending => owes.closes closed pending.route

end Session

end WampClient
