import WampClient.Proofs.Session.Outlook

/-! What a session puts off while a message is handed around: to hand over replies, to watch
invocations, to turn invocations away. None of it has to do with a box that another route feeds,
unless a reply says that the use of that route is over. -/
namespace WampClient

namespace Target

/-- What a target puts off because of a message. -/
def errands (gone : List Box) (m : Message) (cell : Cell) : Target → List Errand
  | .reply box change => [.handOver box m change]
  | .feed (.invocations box) => match m with
    | .invocation request _ _ _ =>
      if gone.contains box then [.turnAway request] else [.watch request cell]
    | _ => []
  | _ => []

theorem errands_deliver (gone : List Box) (m : Message) (h : Handle) (t : Target) (tray : Tray) :
    (t.deliver gone m h tray).state.errands = tray.errands ++ t.errands gone m tray.nextCell := by
  have none' : tray.errands = tray.errands ++ [] := (List.append_nil _).symm
  cases t with
  | reply box change => rfl
  | call box =>
    simp only [deliver]
    split <;> exact none'
  | feed f =>
    cases f with
    | invocations box =>
      cases m with
      | invocation request registration details payload =>
        simp only [deliver, errands]
        split <;> rfl
      | _ => exact none'
    | events box =>
      cases m with
      | event subscription publication details payload =>
        simp only [deliver]
        split <;> exact none'
      | _ => exact none'
  | interrupt cell => cases m <;> exact none'

end Target

namespace Errand

/-- Whether something may be put into the box because of what is put off. -/
def feeds (b : Box) : Errand → Bool
  | .handOver box _ change => (Target.reply box change).feeds b
  | _ => false

/-- Whether it takes the route out. -/
def removes (h : Handle) : Errand → Bool
  | .handOver box m change => m.confirmsGone && (Target.reply box change).removes h
  | _ => false

/-- What a target puts off is to hand over a reply, or has to do with neither boxes nor routes. -/
theorem of_mem {e : Errand} {gone : List Box} {m : Message} {cell : Cell} {t : Target}
    (put : e ∈ t.errands gone m cell) :
    (∃ box change, t = .reply box change ∧ e = .handOver box m change) ∨
      (∀ b, e.feeds b = false) ∧ ∀ h, e.removes h = false := by
  cases t with
  | reply box change => exact Or.inl ⟨box, change, rfl, List.mem_singleton.mp put⟩
  | call box => exact absurd put List.not_mem_nil
  | feed f =>
    refine Or.inr ?_
    cases f with
    | invocations box =>
      cases m with
      | invocation request registration details payload =>
        simp only [Target.errands] at put
        split at put
        all_goals
          obtain rfl := List.mem_singleton.mp put
          exact ⟨fun _ => rfl, fun _ => rfl⟩
      | _ => exact absurd put List.not_mem_nil
    | events box => exact absurd put List.not_mem_nil
  | interrupt cell => exact absurd put List.not_mem_nil

/-- Because of any other message than an invocation only replies are handed over. -/
theorem handOver_of_mem {e : Errand} {gone : List Box} {m : Message} {cell : Cell} {t : Target}
    (other : ∀ request registration details payload,
      m ≠ .invocation request registration details payload)
    (put : e ∈ t.errands gone m cell) : ∃ box change, e = .handOver box m change := by
  cases t with
  | reply box change => exact ⟨box, change, List.mem_singleton.mp put⟩
  | call box => exact absurd put List.not_mem_nil
  | feed f =>
    cases f with
    | invocations box =>
      cases m with
      | invocation request registration details payload => exact absurd rfl (other _ _ _ _)
      | _ => exact absurd put List.not_mem_nil
    | events box => exact absurd put List.not_mem_nil
  | interrupt cell => exact absurd put List.not_mem_nil

theorem feeds_of_mem {e : Errand} {gone : List Box} {m : Message} {cell : Cell} {t : Target}
    {b : Box} (put : e ∈ t.errands gone m cell) (feeds : e.feeds b = true) : t.feeds b = true := by
  rcases of_mem put with ⟨box, change, rfl, rfl⟩ | ⟨silent, -⟩
  · exact feeds
  · simp [silent b] at feeds

theorem removes_of_mem {e : Errand} {gone : List Box} {m : Message} {cell : Cell} {t : Target}
    {h : Handle} (put : e ∈ t.errands gone m cell) (removes : e.removes h = true) :
    m.confirmsGone = true ∧ t.removes h = true := by
  rcases of_mem put with ⟨box, change, rfl, rfl⟩ | ⟨-, spares⟩
  · exact Bool.and_eq_true_iff.mp removes
  · simp [spares h] at removes

end Errand

namespace Session

variable {x : Route Target} {b : Box} {s t : Session} {input : Input}

/-! ### What is put off -/

theorem Sole.becomes_eraseRoute (sole : s.Sole x b) (mine : x.handler.feeds b = true)
    (route : Handle) :
    Becomes x b ((s.outlook b).withdrawnIf (route == x.handle)) s (s.eraseRoute route) := by
  by_cases own : route = x.handle
  · have absent : x ∉ (s.eraseRoute route).router.routes := fun there =>
      (mem_routes_eraseRoute.mp there).2 own.symm
    have sole' : (s.eraseRoute route).Sole x b :=
      ⟨sole.sound.erase route,
        fun y there => sole.routes y (mem_routes_eraseRoute.mp there).1, sole.waiters, sole.heard⟩
    have unfed : (s.eraseRoute route).feeds b = false := by
      by_contra fed
      exact absent ((sole'.feeds_iff mine).mp (by simpa using fed)).2
    refine ⟨sole', fun there => absurd there absent, rfl,
      Nat.le_of_eq (lastHandle_eraseRoute s route).symm, Or.inl ?_⟩
    rw [outlook, unfed]
    simp [Outlook.withdrawnIf, own, outlook, postsTo]
  · have none' : (route == x.handle) = false := by simpa using own
    rw [none', Outlook.withdrawnIf_false]
    exact sole.calm_eraseRoute _ fun _ _ same => own same.symm

theorem Sole.becomes_changeRoutes (sole : s.Sole x b) (mine : x.handler.feeds b = true)
    (m : Message) {box : Option Box} {change : Option RouteChange}
    (silent : (Target.reply box change).feeds b = false) :
    Becomes x b ((s.outlook b).withdrawnIf ((Errand.handOver box m change).removes x.handle)) s
      (s.changeRoutes m change).1 := by
  rcases change with _ | feed | route
  · simp only [changeRoutes, Errand.removes, Target.removes, Bool.and_false,
      Outlook.withdrawnIf_false]
    exact sole.calm_refl
  · simp only [changeRoutes, Errand.removes, Target.removes, Bool.and_false,
      Outlook.withdrawnIf_false]
    cases m.enrolledKey? with
    | none => exact sole.calm_refl
    | some key =>
      refine sole.calm_add [key] ?_ mine
      simp only [Target.feeds, Bool.or_eq_false_iff] at silent
      exact silent.2
  · simp only [changeRoutes, Errand.removes, Target.removes]
    cases m.confirmsGone with
    | false =>
      simp only [Bool.false_and, Outlook.withdrawnIf_false, Bool.false_eq_true, ↓reduceIte]
      exact sole.calm_refl
    | true =>
      simp only [Bool.true_and, ↓reduceIte]
      exact sole.becomes_eraseRoute mine route

theorem Sole.becomes_handOver (sole : s.Sole x b) (mine : x.handler.feeds b = true)
    (m : Message) {box : Option Box} {change : Option RouteChange}
    (silent : (Target.reply box change).feeds b = false) :
    Becomes x b ((s.outlook b).withdrawnIf ((Errand.handOver box m change).removes x.handle)) s
      (s.handOver box m change) := by
  have changed := sole.becomes_changeRoutes mine m silent
  rw [handOver]
  cases box with
  | none => exact changed
  | some box =>
    dsimp only
    split
    next gone =>
      -- nobody takes the reply, and a route that was installed because of it is a new one
      cases h : (s.changeRoutes m change).2 with
      | none => exact changed
      | some route =>
        refine changed.trans (changed.sole.calm_eraseRoute _ fun there _ same => ?_)
        have bound := sole.sound.tidy.bounded x (changed.back there)
        rcases change with _ | feed | other
        · simp [changeRoutes] at h
        · simp only [changeRoutes] at h
          split at h
          · simp at h
          · obtain rfl := Option.some.inj h
            rw [same] at bound
            exact Nat.not_succ_le_self _ bound
        · simp [changeRoutes] at h
    next here =>
      refine changed.trans (changed.sole.calm_post (fun same => ?_) _)
      simp [Target.feeds, same] at silent

theorem Sole.calm_watch (sole : s.Sole x b) (mine : x.handler.feeds b = true) (request : Id)
    (cell : Cell) : Calm x b s (s.watch request cell) := by
  have added : Calm x b s (s.watching request cell) := by
    have one := sole.calm_add [RouteKey.ofReply .interrupt request]
      (show (Target.interrupt cell).feeds b = false from rfl) mine
    refine one.trans (one.sole.calm ?_ rfl (fun _ _ => Iff.rfl) id Iff.rfl Iff.rfl rfl
      (Nat.le_refl _))
    have watched : s.Sound := sole.sound
    refine ⟨one.sole.sound.tidy, fun e he => ?_, fun e he y hy same => ?_⟩
    · rcases Assoc.mem_alter he with he | ⟨-, new⟩
      · exact one.sole.sound.bounded e he
      · exact Nat.le_of_eq (Option.some.inj new).symm
    · rcases Assoc.mem_alter he with he | ⟨-, new⟩
      · exact one.sole.sound.interrupts e he y hy same
      · rcases mem_routes_add.mp hy with old | rfl
        · have bound := watched.tidy.bounded y old
          rw [same, ← Option.some.inj new] at bound
          exact absurd bound (Nat.not_succ_le_self _)
        · exact ⟨cell, rfl⟩
  rcases watch_eq s request cell with watched | ⟨previous, known, watched⟩
  · rwa [watched]
  · rw [watched]
    refine added.trans (added.sole.calm_eraseRoute _ fun there feeds same => ?_)
    obtain ⟨own, signals⟩ := sole.sound.interrupts _ known x (added.back there) same
    simp [signals, Target.feeds] at feeds

theorem Sole.becomes_runErrand (sole : s.Sole x b) (mine : x.handler.feeds b = true) {e : Errand}
    (silent : e.feeds b = false) :
    Becomes x b ((s.outlook b).withdrawnIf (e.removes x.handle)) s (s.runErrand e) := by
  cases e with
  | handOver box reply change => exact sole.becomes_handOver mine reply silent
  | watch request cell =>
    have spares : (Errand.watch request cell).removes x.handle = false := rfl
    rw [spares, Outlook.withdrawnIf_false]
    exact sole.calm_watch mine request cell
  | turnAway request =>
    have spares : (Errand.turnAway request).removes x.handle = false := rfl
    rw [spares, Outlook.withdrawnIf_false]
    exact sole.calm_sendOrTerminate _

theorem Sole.becomes_errands (sole : s.Sole x b) (mine : x.handler.feeds b = true)
    {es : List Errand} (silent : ∀ e ∈ es, e.feeds b = false)
    (free : (∀ f, x.handler.lastPostsTo b f = []) ∨ es.any (fun e => e.removes x.handle) = false) :
    Becomes x b ((s.outlook b).withdrawnIf (es.any fun e => e.removes x.handle)) s
      (es.foldl runErrand s) := by
  induction es generalizing s with
  | nil =>
    rw [List.any_nil, Outlook.withdrawnIf_false]
    exact sole.calm_refl
  | cons e rest ih =>
    have first := sole.becomes_runErrand mine (silent e List.mem_cons_self)
    have free' : (∀ f, x.handler.lastPostsTo b f = []) ∨
        rest.any (fun e => e.removes x.handle) = false :=
      free.imp_right fun none' => (Bool.or_eq_false_iff.mp (by simpa using none')).2
    have later := ih first.sole (fun e he => silent e (List.mem_cons_of_mem _ he)) free'
    rw [List.any_cons, Outlook.withdrawnIf_or]
    exact first.withdraws later free'

/-! ### Replies alone -/

theorem phase_handOver (s : Session) (box : Option Box) (m : Message)
    (change : Option RouteChange) : (s.handOver box m change).phase = s.phase := by
  have changed : (s.changeRoutes m change).1.phase = s.phase := by
    rcases change with _ | feed | route
    · rfl
    · simp only [changeRoutes]
      split <;> rfl
    · simp only [changeRoutes]
      split <;> rfl
  rw [handOver]
  cases box with
  | none => exact changed
  | some box =>
    dsimp only
    split
    next =>
      cases (s.changeRoutes m change).2 with
      | none => exact changed
      | some route => exact changed
    next => rwa [post_phase]

/-- No session ends because replies are handed over. -/
theorem phase_errands {es : List Errand}
    (replies : ∀ e ∈ es, ∃ box m change, e = .handOver box m change) :
    (es.foldl runErrand s).phase = s.phase := by
  induction es generalizing s with
  | nil => rfl
  | cons e rest ih =>
    obtain ⟨box, m, change, rfl⟩ := replies e List.mem_cons_self
    rw [List.foldl_cons, ih fun e he => replies e (List.mem_cons_of_mem _ he)]
    exact phase_handOver s box m change

end Session

end WampClient
