import WampClient.Proofs.Client.Cancellations
import WampClient.Proofs.Client.Joining
import WampClient.Proofs.Client.Outcomes
import WampClient.Proofs.Client.Subjects
import WampClient.Script.Run

/-! Every failure that a program is told of names what was attempted. What comes from the session
has no context; the operation that reads it out of a box puts its own name and target in, and so
does each way to fail that needs no session. What an operation is for is fixed by the action that
begins it, so a failure can be traced back to that action. -/
namespace WampClient

/-- If it is a failure, it names this attempt and nothing else. -/
def Outcome.Names (attempt : Option (Operation × String)) (o : Outcome) : Prop :=
  ∀ f, o = .failed f → ∃ operation target, attempt = some (operation, target) ∧
    f.context = Failure.naming operation target

theorem Outcome.During.names {attempt : Option (Operation × String)} {o : Outcome}
    (during : o.During attempt) : o.Names attempt := by
  intro f failed
  obtain ⟨g, operation, target, unplaced, same, rfl⟩ := during f failed
  exact ⟨operation, target, same, by rw [Failure.during_bare unplaced.bare]⟩

namespace Client

variable {c d : Client} {number : Nat} {attempt : Option (Operation × String)} {ms : List Move}

/-! ### Operations that go on -/

theorem attempt?_advance {w v : Waiting} (moved : c.advance w = some (d, .inl v)) :
    v.attempt? = w.attempt? ∧ v.Hopeful := by
  cases advances moved with
  | turns waits was =>
    rw [waits]
    exact ⟨rfl, trivial⟩

/-- What an operation comes to names what the operation is for. -/
theorem names_advance (faultless : c.session.Faultless) {w : Waiting} (hopeful : w.Hopeful)
    {outcome : Outcome} (moved : c.advance w = some (d, .inr outcome)) :
    outcome.Names w.attempt? := by
  rintro f rfl
  cases fails_advance faultless moved with
  | told unplaced aim => exact ⟨_, _, aim, by rw [Failure.during_bare unplaced.bare]⟩
  | denied denies aim => exact ⟨_, _, aim, by rw [Failure.ofReply_eq]⟩
  | meant waits =>
    rw [waits] at hopeful
    exact absurd rfl (hopeful f)

/-! ### Back to the action -/

/-- The move begins an operation under a number that is free, and the operation goes on from then
until the last of these moves at least. -/
structure Spans (c : Client) (before : List Move) (number : Nat) (between : List Move)
    (a : Action) : Prop where
  free : ∀ task ∈ (c.run before).tasks, task.number ≠ number
  goesOn : ∀ part, part <+: between → part ≠ between →
    ∃ task ∈ (c.run (before ++ .act number a :: part)).tasks, task.number = number

/-- What the operation of a number attempts is what the action attempted that has begun it. -/
def Traces (c : Client) (ms : List Move) (number : Nat) (attempt : Option (Operation × String)) :
    Prop :=
  ∃ before a between, ms = before ++ .act number a :: between ∧ c.Spans before number between a ∧
    (c.run before).attempt? a = attempt

theorem traces_act {a : Action} (free : ∀ task ∈ (c.run ms).tasks, task.number ≠ number) :
    c.Traces (ms ++ [.act number a]) number ((c.run ms).attempt? a) := by
  refine ⟨ms, a, [], rfl, ⟨free, fun part first other => ?_⟩, rfl⟩
  exact absurd (List.prefix_nil.mp first) other

/-- An operation that goes on is traced back to the same action after a further move. -/
theorem Traces.later (traces : c.Traces ms number attempt)
    (goesOn : ∃ task ∈ (c.run ms).tasks, task.number = number) (m : Move) :
    c.Traces (ms ++ [m]) number attempt := by
  obtain ⟨before, a, between, rfl, spans, same⟩ := traces
  refine ⟨before, a, between ++ [m], by simp, ⟨spans.free, fun part first other => ?_⟩, same⟩
  rcases List.prefix_concat_iff.mp first with whole | part'
  · exact absurd whole other
  · by_cases last : part = between
    · rw [last]
      exact goesOn
    · exact spans.goesOn part part' last

/-- Every operation that goes on is traced back to the action that has begun it. -/
def Traced (c : Client) (ms : List Move) : Prop :=
  ∀ task ∈ (c.run ms).tasks, task.waiting.Hopeful ∧
    c.Traces ms task.number task.waiting.attempt?

/-- What becomes of the operations when one of them is polled. -/
theorem tasks_poll {task : Task} (there : task ∈ (c.poll number).tasks) :
    task ∈ c.tasks ∨ ∃ old ∈ c.tasks, old.number = task.number ∧
      old.waiting.attempt? = task.waiting.attempt? ∧ task.waiting.Hopeful := by
  unfold poll at there
  split at there
  · exact Or.inl there
  next old found =>
    split at there
    · exact Or.inl there
    next d waiting moved =>
      obtain ⟨same, hopeful⟩ := attempt?_advance moved
      obtain ⟨other, among, rfl⟩ := List.mem_map.mp there
      rw [tasks_advance moved] at among
      by_cases mine : other.number = number
      · have first : old.number = number := by simpa using List.find?_some found
        rw [if_pos mine]
        exact Or.inr ⟨old, List.mem_of_find?_eq_some found, first.trans mine.symm, same.symm,
          hopeful⟩
      · rw [if_neg mine]
        exact Or.inl among
    next d outcome moved =>
      have among := List.mem_of_mem_filter there
      rw [tasks_advance moved] at among
      exact Or.inl among

/-- What is reported when an operation is polled names what the operation is for. -/
theorem reported_poll (faultless : c.session.Faultless) (number : Nat)
    (hopeful : ∀ task ∈ c.tasks, task.waiting.Hopeful) :
    (c.poll number).finished = c.finished ∨ ∃ task ∈ c.tasks, task.number = number ∧
      ∃ o : Outcome, (c.poll number).finished = c.finished ++ [(number, o)] ∧
        o.Names task.waiting.attempt? := by
  cases found : c.tasks.find? fun t => t.number == number with
  | none => exact Or.inl (by rw [poll, found])
  | some task =>
    have there := List.mem_of_find?_eq_some found
    cases moved : c.advance task.waiting with
    | none => exact Or.inl (by simp only [poll, found, moved])
    | some next =>
      rcases next with ⟨d, waiting | outcome⟩
      · refine Or.inl ?_
        simp only [poll, found, moved]
        exact finished_advance moved
      · refine Or.inr ⟨task, there, by simpa using List.find?_some found, outcome, ?_,
          names_advance faultless (hopeful task there) moved⟩
        exact finished_poll (v := task.waiting) (by simp only [polled, found, moved])

theorem operations_serve (c : Client) :
    c.serve.tasks = c.tasks ∧ c.serve.finished = c.finished := by
  unfold serve
  split <;> exact ⟨rfl, rfl⟩

theorem run_concat (c : Client) (ms : List Move) (m : Move) :
    c.run (ms ++ [m]) = (c.run ms).move m := run_append c ms [m]

theorem Traced.move (traced : c.Traced ms) (m : Move) : c.Traced (ms ++ [m]) := by
  have later : ∀ {number : Nat} {attempt : Option (Operation × String)} {task : Task},
      task ∈ (c.run ms).tasks → task.number = number → task.waiting.attempt? = attempt →
        c.Traces (ms ++ [m]) number attempt := by
    rintro _ _ task there rfl rfl
    exact (traced task there).2.later ⟨task, there, rfl⟩ m
  have kept : ∀ task ∈ (c.run ms).tasks, task.waiting.Hopeful ∧
      c.Traces (ms ++ [m]) task.number task.waiting.attempt? := fun task there =>
    ⟨(traced task there).1, later there rfl rfl⟩
  intro task there
  rw [run_concat] at there
  cases m with
  | act number a =>
    rw [Client.move] at there
    split at there
    · exact kept task there
    next free =>
      have free : ∀ task ∈ (c.run ms).tasks, task.number ≠ number := by simpa using free
      rcases (undertakes_act (c.run ms) number a).tasks task there with old | ⟨rfl, same, hopeful⟩
      · exact kept task old
      · rw [same]
        exact ⟨hopeful, traces_act free⟩
  | poll number =>
    rcases tasks_poll there with old | ⟨old, among, mine, same, hopeful⟩
    · exact kept task old
    · exact ⟨hopeful, later among mine same⟩
  | serve => exact kept task ((operations_serve (c.run ms)).1 ▸ there)
  | _ => exact kept task there

theorem Traced.run (idle : c.tasks = []) (ms : List Move) : c.Traced ms := by
  induction ms using List.reverseRecOn with
  | nil =>
    intro task there
    rw [show (c.run []).tasks = [] from idle] at there
    exact absurd there List.not_mem_nil
  | append_singleton before m ih => exact ih.move m

/-- Whatever a move reports names what was attempted by the action that has begun the operation. -/
theorem Traced.reported (traced : c.Traced ms) (faultless : (c.run ms).session.Faultless)
    (m : Move) : ∃ new, (c.run (ms ++ [m])).finished = (c.run ms).finished ++ new ∧
      ∀ e ∈ new, ∃ attempt, c.Traces (ms ++ [m]) e.1 attempt ∧ Outcome.Names attempt e.2 := by
  have none' : (c.run (ms ++ [m])).finished = (c.run ms).finished →
      ∃ new, (c.run (ms ++ [m])).finished = (c.run ms).finished ++ new ∧
        ∀ e ∈ new, ∃ attempt, c.Traces (ms ++ [m]) e.1 attempt ∧ Outcome.Names attempt e.2 :=
    fun same => ⟨[], by simp [same], fun _ there => absurd there List.not_mem_nil⟩
  cases m with
  | act number a =>
    rw [run_concat, Client.move] at none' ⊢
    by_cases busy : ((c.run ms).tasks.any fun t => t.number == number) = true
    · rw [if_pos busy] at none' ⊢
      exact none' rfl
    · rw [if_neg busy] at none' ⊢
      rcases (undertakes_act (c.run ms) number a).finished with same | ⟨o, same, during⟩
      · exact none' same
      · refine ⟨[(number, o)], same,
          List.forall_mem_singleton.mpr ⟨_, traces_act ?_, during.names⟩⟩
        simpa using busy
  | poll number =>
    rcases reported_poll faultless number (fun task there => (traced task there).1)
      with same | ⟨task, there, rfl, o, same, names⟩
    · exact none' (by rwa [run_concat])
    · rw [run_concat]
      exact ⟨_, same, List.forall_mem_singleton.mpr
        ⟨_, (traced task there).2.later ⟨task, there, rfl⟩ _, names⟩⟩
  | serve => exact none' (by rw [run_concat]; exact (operations_serve (c.run ms)).2)
  | _ => exact none' (by rw [run_concat]; rfl)

end Client

/-! ### Joining -/

namespace Handshake

variable {h h' : Handshake} {out : Handshake × Verdict}

/-- The realm stays, and a failure names the attempt to join it and nothing else. -/
structure Tells (h : Handshake) (out : Handshake × Verdict) : Prop where
  realm : out.1.config.realm = h.config.realm
  names : ∀ f, out.2 = .failed f → f.context = Failure.naming .join h.config.realm.text

theorem Tells.after (tells : h'.Tells out) (same : h'.config.realm = h.config.realm) :
    h.Tells out :=
  ⟨tells.realm.trans same, fun f failed => same ▸ tells.names f failed⟩

end Handshake

end WampClient
