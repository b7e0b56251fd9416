import WampClient.Proofs.Session.Parts

/-! What holds of the routes of a session at every moment, also in the middle of a step: the router
is tidy, and the interrupts of an invocation have a route of their own. -/
namespace WampClient.Session

structure Sound (s : Session) : Prop where
  tidy : s.router.Tidy
  bounded : ∀ e ∈ s.interrupts, e.2 ≤ s.router.lastHandle
  interrupts : ∀ e ∈ s.interrupts, ∀ x ∈ s.router.routes, x.handle = e.2 →
    ∃ cell, x.handler = .interrupt cell

theorem sound_established (wire : Wire) (now closeTimeout : Nat) :
    (established wire now closeTimeout).Sound where
  tidy := Router.tidy_empty
  bounded := by simp [established]
  interrupts := by simp [established]

section

variable {s t : Session}

/-- Only the router and the interrupts matter. -/
theorem Sound.congr (sound : s.Sound) (router : t.router = s.router)
    (interrupts : t.interrupts = s.interrupts) : t.Sound := by
  obtain ⟨tidy, bounded, own⟩ := sound
  rw [← router] at tidy bounded own
  rw [← interrupts] at bounded own
  exact ⟨tidy, bounded, own⟩

theorem Sound.add (sound : s.Sound) (keys : List RouteKey) (target : Target) :
    { s with router := (s.router.add keys target).1 }.Sound where
  tidy := sound.tidy.add keys target
  bounded e he := Nat.le_succ_of_le (sound.bounded e he)
  interrupts e he x hx same := by
    rcases List.mem_append.mp hx with hx | hx
    · exact sound.interrupts e he x hx same
    · rw [List.mem_singleton.mp hx] at same
      exact absurd (sound.bounded e he) (by simp [← same])

theorem Sound.erase (sound : s.Sound) (route : Handle) :
    (s.eraseRoute route).Sound where
  tidy := sound.tidy.erase route
  bounded e he := by
    rw [eraseRoute, Router.lastHandle_erase]
    exact sound.bounded e he
  interrupts e he x hx := sound.interrupts e he x (Router.mem_routes_erase.mp hx).1

theorem Sound.forgetInterrupt (sound : s.Sound) (request : Id) :
    { s with interrupts := Assoc.erase request s.interrupts }.Sound where
  tidy := sound.tidy
  bounded e he := sound.bounded e (List.mem_of_mem_filter he)
  interrupts e he := sound.interrupts e (List.mem_of_mem_filter he)

theorem Sound.watch (sound : s.Sound) (request : Id) (cell : Cell) :
    (s.watch request cell).Sound := by
  let keys := [RouteKey.ofReply .interrupt request]
  let t : Session :=
    { s with
      router := (s.router.add keys (.interrupt cell)).1
      interrupts := Assoc.alter request (fun _ => some (s.router.lastHandle + 1)) s.interrupts }
  have watched : s.watch request cell = (Assoc.get? request s.interrupts).elim t t.eraseRoute := rfl
  have added := sound.add keys (.interrupt cell)
  have whole : t.Sound := by
    refine ⟨added.tidy, fun e he => ?_, fun e he x hx same => ?_⟩
    · rcases Assoc.mem_alter he with he | ⟨-, new⟩
      · exact added.bounded e he
      · exact Nat.le_of_eq (Option.some.inj new).symm
    · rcases Assoc.mem_alter he with he | ⟨-, new⟩
      · exact added.interrupts e he x hx same
      · rcases List.mem_append.mp hx with old | last
        · have bound := sound.tidy.bounded x old
          rw [same, ← Option.some.inj new] at bound
          exact absurd bound (Nat.not_succ_le_self _)
        · exact ⟨cell, by rw [List.mem_singleton.mp last]⟩
  rw [watched]
  cases Assoc.get? request s.interrupts with
  | none => exact whole
  | some previous => exact whole.erase previous

theorem Sound.prepared (sound : s.Sound) (input : Input) : (s.prepared input).Sound := by
  rcases prepared_cases s input with same | ⟨m, keys, target, box, -, -, added⟩
  · rwa [same]
  · rw [added]
    exact sound.add keys target

end

theorem Sound.part {input : Input} {w w' : Work} (sound : w.session.Sound)
    (part : Part input w w') : w'.session.Sound := by
  cases part with
  | quiet alike => exact sound.congr alike.router alike.interrupts
  | posted box more plain => exact sound.congr (by simp) (by simp)
  | accepted asked => exact sound.congr (by simp) (by simp)
  | removed asked => exact sound.erase _
  | forgotten asked => exact sound.congr rfl rfl
  | replied m there waits takes => exact sound.erase _
  | settled m there waits takes last =>
    exact (sound.erase _).congr (post_router _ _ _) (post_interrupts _ _ _)
  | dropped there waits gone => exact sound.erase _
  | deferred e other => exact sound.congr rfl rfl
  | enrolled box feed confirms heard =>
    exact (sound.add _ _).congr (answer_router _ _ _) (answer_interrupts _ _ _)
  | disowned feed confirms gone => exact (sound.add _ _).erase _
  | withdrawn box route confirms => exact sound.erase _
  | unchanged box idle => exact sound.congr rfl rfl
  | handedOver box m => exact sound.congr (by simp) (by simp)
  | watched request cell => exact sound.watch request cell
  | skipped request => exact sound.congr rfl rfl
  | retired known => exact (sound.forgetInterrupt _).erase _
  | terminated live kind =>
    rw [terminate_eq live]
    exact ⟨sound.tidy.clear, by simp, by simp⟩

theorem Sound.parts {input : Input} {w w' : Work} (sound : w.session.Sound)
    (parts : Parts input w w') : w'.session.Sound := by
  induction parts with
  | refl => exact sound
  | tail _ part ih => exact ih.part part

theorem Sound.step {s : Session} (sound : s.Sound) (input : Input) :
    (s.step input).Sound :=
  (sound.prepared input).parts (parts_step sound.tidy input)

theorem Sound.run {s : Session} (sound : s.Sound) (inputs : List Input) :
    (s.run inputs).Sound := by
  induction inputs generalizing s with
  | nil => exact sound
  | cons input rest ih => exact ih (sound.step input)

end WampClient.Session
