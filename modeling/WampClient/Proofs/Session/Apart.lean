import WampClient.Proofs.Session.Origin

/-! Sessions that have nothing to do with a route or with a box: nothing that they hold would take
the route out, and nothing that they hold would put a last post into the box. -/
namespace WampClient

/-! ### What takes a route out, and who waits on a box -/

def Target.removes (route : Handle) : Target → Bool
  | .reply _ (some (.remove r)) => r == route
  | _ => false

def Errand.waiter? : Errand → Option Box
  | .handOver box _ _ => box
  | _ => none

def Command.removes (route : Handle) : Command → Bool
  | .request _ _ target _ => target.removes route
  | .removeRoute r => r == route
  | _ => false

def Command.waiter? : Command → Option Box
  | .request _ _ target _ => target.waiter?
  | _ => none

def Input.removes (route : Handle) : Input → Bool
  | .command c => c.removes route
  | _ => false

def Input.waiter? : Input → Option Box
  | .command c => c.waiter?
  | _ => none

theorem Target.waiter_of_mem_lastPosts {t : Target} {f : Failure} {box : Box} {p : Post}
    (there : (box, p) ∈ t.lastPosts f) : t.waiter? = some box := by
  rcases t with ⟨_ | own, change⟩ | own | feed | cell <;> simp_all [lastPosts, waiter?]

namespace Session

variable {input : Input} {w w' : Work} {s : Session} {h : Handle} {b : Box}

theorem Parts.lastHandle_le (parts : Parts input w w') :
    w.session.router.lastHandle ≤ w'.session.router.lastHandle := by
  induction parts with
  | refl => exact Nat.le_refl _
  | tail _ part ih => exact Nat.le_trans ih part.lastHandle_le

/-! ### Routes that are let be -/

/-- Nothing will take the route out, except for a message that comes in for it. -/
structure Work.Spares (h : Handle) (w : Work) : Prop where
  routes : ∀ x ∈ w.session.router.routes, x.handler.removes h = false
  errands : ∀ box m change, .handOver box m change ∈ w.errands → change ≠ some (.remove h)
  interrupts : ∀ e ∈ w.session.interrupts, e.2 ≠ h

theorem Work.Spares.prepared (spares : Work.Spares h ⟨s, []⟩) (asks : input.removes h = false) :
    Work.Spares h ⟨s.prepared input, []⟩ := by
  rcases prepared_cases s input with same | ⟨m, keys, target, box, rfl, -, added⟩
  · rwa [same]
  · rw [added]
    refine ⟨fun x hx => ?_, spares.errands, spares.interrupts⟩
    rcases mem_routes_add.mp hx with old | rfl
    · exact spares.routes x old
    · exact asks

/-- The handle was given out before, or is not given out yet. -/
theorem Work.Spares.part (spares : w.Spares h) (part : Part input w w')
    (settled : h ≤ w.session.router.lastHandle ∨ w'.session.router.lastHandle < h) :
    w'.Spares h where
  routes x hx := by
    rcases part.route_origin hx with old | ⟨-, ⟨feed, fed, -⟩ | ⟨cell, own, -⟩⟩
    · exact spares.routes x old
    · rw [fed]
      rfl
    · rw [own]
      rfl
  errands box m change he := by
    rcases part.errand_origin he with ⟨change', old, rfl | ⟨rfl, -⟩⟩ | ⟨x, hx, waits, -⟩
    · exact spares.errands box m _ old
    · simp
    · rintro rfl
      have := spares.routes x hx
      simp [waits, Target.removes] at this
  interrupts e he := by
    rcases part.interrupt_origin he with old | ⟨new, last⟩
    · exact spares.interrupts e old
    · rw [new, ← last]
      rcases settled with given | upcoming
      · exact Nat.ne_of_gt (last ▸ Nat.lt_succ_of_le given)
      · exact Nat.ne_of_lt upcoming

theorem Work.Spares.parts (spares : w.Spares h) (parts : Parts input w w')
    (settled : h ≤ w.session.router.lastHandle ∨ w'.session.router.lastHandle < h) :
    w'.Spares h := by
  induction parts with
  | refl => exact spares
  | tail before part ih =>
    refine (ih ?_).part part ?_
    · exact settled.imp_right fun upcoming => Nat.lt_of_le_of_lt part.lastHandle_le upcoming
    · exact settled.imp_left fun given => Nat.le_trans given (Parts.lastHandle_le before)

/-! ### Boxes that are left empty -/

/-- Nothing will put a last post into the box, and nothing did. -/
structure Work.Idle (b : Box) (w : Work) : Prop where
  routes : ∀ x ∈ w.session.router.routes, x.handler.waiter? ≠ some b
  errands : ∀ box m change, .handOver box m change ∈ w.errands → box ≠ some b
  posts : ∀ p, (b, p) ∈ w.session.posts → p.isLast = false

theorem mem_lastPosts {s : Session} {f : Failure} {p : Post}
    (there : (b, p) ∈ s.lastPosts f) :
    p = .left ∨ ∃ x ∈ s.router.routes, (b, p) ∈ x.handler.lastPosts f := by
  rcases List.mem_append.mp there with there | there
  · exact Or.inr (List.mem_flatMap.mp there)
  · obtain ⟨box, -, same⟩ := List.mem_map.mp there
    exact Or.inl (Prod.ext_iff.mp same).2.symm

theorem Work.Idle.prepared (idle : Work.Idle b ⟨s, []⟩) (asks : input.waiter? ≠ some b) :
    Work.Idle b ⟨s.prepared input, []⟩ := by
  rcases prepared_cases s input with same | ⟨m, keys, target, box, rfl, -, added⟩
  · rwa [same]
  · rw [added]
    refine ⟨fun x hx => ?_, idle.errands, idle.posts⟩
    rcases mem_routes_add.mp hx with old | rfl
    · exact idle.routes x old
    · exact asks

theorem Work.Idle.part (idle : w.Idle b) (part : Part input w w') : w'.Idle b where
  routes x hx := by
    rcases part.route_origin hx with old | ⟨-, ⟨feed, fed, -⟩ | ⟨cell, own, -⟩⟩
    · exact idle.routes x old
    · simp [fed, Target.waiter?]
    · simp [own, Target.waiter?]
  errands box m change he := by
    rcases part.errand_origin he with ⟨change', old, -⟩ | ⟨x, hx, waits, -⟩
    · exact idle.errands box m change' old
    · have := idle.routes x hx
      rwa [waits] at this
  posts p hp := by
    rcases part.post_origin hp with old | ⟨-, ⟨more, -⟩ | ⟨m, keys, target, -, rfl⟩ |
      ⟨x, hx, waits, -⟩ | ⟨m, change, he, -⟩ | ⟨f, -, last⟩⟩
    · exact idle.posts p old
    · exact more
    · rfl
    · exact absurd (by rw [waits]; rfl) (idle.routes x hx)
    · exact absurd rfl (idle.errands _ m change he)
    · rcases mem_lastPosts last with rfl | ⟨x, hx, told⟩
      · rfl
      · exact absurd (Target.waiter_of_mem_lastPosts told) (idle.routes x hx)

theorem Work.Idle.parts (idle : w.Idle b) (parts : Parts input w w') : w'.Idle b := by
  induction parts with
  | refl => exact idle
  | tail _ part ih => exact ih.part part

end Session

end WampClient
