import WampClient.Proofs.Session.Ledger

/-! Requests in a run of a session. -/
namespace WampClient.Session

variable {input : Input} {s : Session} {h : Handle} {b : Box}

theorem lastHandle_prepared (s : Session) (input : Input) :
    s.router.lastHandle ≤ (s.prepared input).router.lastHandle := by
  rcases prepared_cases s input with same | ⟨m, keys, target, box, -, -, added⟩
  · exact Nat.le_of_eq (by rw [same])
  · rw [added]
    exact Nat.le_succ _

theorem lastHandle_step (sound : s.Sound) (input : Input) :
    s.router.lastHandle ≤ (s.step input).router.lastHandle :=
  Nat.le_trans (lastHandle_prepared s input) (Parts.lastHandle_le (parts_step sound.tidy input))

theorem lastHandle_run (sound : s.Sound) (inputs : List Input) :
    s.router.lastHandle ≤ (s.run inputs).router.lastHandle := by
  induction inputs generalizing s with
  | nil => exact Nat.le_refl _
  | cons input rest ih => exact Nat.le_trans (lastHandle_step sound input) (ih (sound.step input))

/-! ### Before the request -/

theorem Work.Idle.step (idle : Work.Idle b ⟨s, []⟩) (sound : s.Sound)
    (asks : input.waiter? ≠ some b) : Work.Idle b ⟨s.step input, []⟩ :=
  (idle.prepared asks).parts (parts_step sound.tidy input)

theorem Work.Spares.step (spares : Work.Spares h ⟨s, []⟩) (sound : s.Sound)
    (asks : input.removes h = false)
    (settled : h ≤ s.router.lastHandle ∨ (s.step input).router.lastHandle < h) :
    Work.Spares h ⟨s.step input, []⟩ :=
  (spares.prepared asks).parts (parts_step sound.tidy input)
    (settled.imp_left fun given => Nat.le_trans given (lastHandle_prepared s input))

theorem idle_established (wire : Wire) (now closeTimeout : Nat) (b : Box) :
    Work.Idle b ⟨established wire now closeTimeout, []⟩ :=
  ⟨by simp [established, Router.empty], by simp, by simp [established]⟩

theorem spares_established (wire : Wire) (now closeTimeout : Nat) (h : Handle) :
    Work.Spares h ⟨established wire now closeTimeout, []⟩ :=
  ⟨by simp [established, Router.empty], by simp, by simp [established]⟩

theorem Work.Idle.run (idle : Work.Idle b ⟨s, []⟩) (sound : s.Sound) {inputs : List Input}
    (spares : ∀ input ∈ inputs, input.Spares h b) : Work.Idle b ⟨s.run inputs, []⟩ := by
  induction inputs generalizing s with
  | nil => exact idle
  | cons input rest ih =>
    exact ih (idle.step sound (spares input List.mem_cons_self).waiter) (sound.step input)
      fun later there => spares later (List.mem_cons_of_mem _ there)

/-- The handle is not given out before the end of the run. -/
theorem Work.Spares.run (untied : Work.Spares h ⟨s, []⟩) (sound : s.Sound) {inputs : List Input}
    (spares : ∀ input ∈ inputs, input.Spares h b)
    (upcoming : (s.run inputs).router.lastHandle < h) : Work.Spares h ⟨s.run inputs, []⟩ := by
  induction inputs generalizing s with
  | nil => exact untied
  | cons input rest ih =>
    have soon := Nat.lt_of_le_of_lt (lastHandle_run (sound.step input) rest) upcoming
    exact ih (untied.step sound (spares input List.mem_cons_self).route (Or.inr soon))
      (sound.step input) (fun later there => spares later (List.mem_cons_of_mem _ there)) upcoming

theorem gone_step (sound : s.Sound) (there : b ∈ (s.step input).gone) :
    b ∈ s.gone ∨ input = .forget b := by
  have all : ∀ w, Parts input ⟨s.prepared input, []⟩ w → b ∈ w.session.gone →
      b ∈ s.gone ∨ input = .forget b := by
    intro w parts
    induction parts with
    | refl =>
      intro there
      rcases prepared_cases s input with same | ⟨m, keys, target, box, -, -, added⟩
      · exact Or.inl (by rwa [same] at there)
      · exact Or.inl (by rwa [added] at there)
    | tail _ part ih =>
      intro there
      rcases part.gone_origin there with before | forgets
      · exact ih before
      · exact Or.inr forgets
  exact all _ (parts_step sound.tidy input) there

theorem not_gone_run (heard : b ∉ s.gone) (sound : s.Sound) {inputs : List Input}
    (spares : ∀ input ∈ inputs, input.Spares h b) : b ∉ (s.run inputs).gone := by
  induction inputs generalizing s with
  | nil => exact heard
  | cons input rest ih =>
    refine ih (fun there => ?_) (sound.step input)
      fun later there => spares later (List.mem_cons_of_mem _ there)
    exact (gone_step sound there).elim heard (spares input List.mem_cons_self).box

/-- A request that was accepted is accounted for, however the session goes on, as long as nobody
else waits on its box, takes out its route, or lets go of the box. -/
theorem request_accounts (wire : Wire) (now closeTimeout : Nat) {before after : List Input}
    (m : Message) (keys : List RouteKey) {target : Target} (answer : Option Box) {b : Box}
    (waits : target.waiter? = some b) :
    let s := (established wire now closeTimeout).run before
    let x : Route Target := ⟨s.router.lastHandle + 1, keys, target⟩
    s.phase = .established → target.removes x.handle = false →
    (∀ input ∈ before ++ after, input.Spares x.handle b) →
    ((s.step (.command (.request m keys target answer))).run after).Accounts x b := by
  intro s x live removes spares
  have early : ∀ input ∈ before, input.Spares x.handle b :=
    fun input there => spares input (List.mem_append_left _ there)
  have start := sound_established wire now closeTimeout
  have sound : s.Sound := start.run before
  have idle := (idle_established wire now closeTimeout b).run start early
  have untied := (spares_established wire now closeTimeout x.handle).run start early
    (Nat.lt_succ_self _)
  have heard : b ∉ s.gone := not_gone_run (by simp [established]) start early
  have opened := owes_step sound live idle heard m keys answer waits untied removes
  exact (opened.run (sound.step _)
    fun input there => spares input (List.mem_append_right _ there)).accounts

end WampClient.Session
