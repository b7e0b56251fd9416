import WampClient.Id
import Mathlib.Data.List.Nodup
import Mathlib.Logic.Function.Iterate

/-! The ids that come out of a source. One after another they count up from the first and go round
after the largest, so that any round of them has every id once. A reset sends the source back to the
least id: to where it began, if it began there. -/
namespace WampClient

namespace Id

theorem value_next (i : Id) : i.next.value = i.value % 9007199254740992 + 1 := by
  have least := i.one_le
  have most := i.le_max
  unfold next
  split
  next low => rw [Nat.mod_eq_of_lt low]
  next high =>
    have last : i.value = 9007199254740992 := by omega
    rw [last]
    rfl

theorem eq_of_value_eq {i j : Id} (same : i.value = j.value) : i = j := by
  cases i
  cases j
  cases same
  rfl

theorem ofNat_value (i : Id) : ofNat i.value = .ok i :=
  dif_pos ⟨i.one_le, i.le_max⟩

/-! ### In words of 64 bits -/

def word (i : Id) : UInt64 := UInt64.ofNat i.value

/-- The word of the next id, reckoned from the word of this one. -/
def nextWord (w : UInt64) : UInt64 := if 9007199254740992 ≤ w then 1 else w + 1

theorem toNat_word (i : Id) : i.word.toNat = i.value :=
  UInt64.toNat_ofNat_of_lt' (Nat.lt_of_le_of_lt i.le_max (by decide))

/-- One more than an id still is a word. -/
theorem toNat_word_add_one (i : Id) : (i.word + 1).toNat = i.value + 1 := by
  have most := i.le_max
  rw [UInt64.toNat_add, toNat_word]
  exact Nat.mod_eq_of_lt (by simp only [UInt64.toNat_one]; omega)

theorem word_next (i : Id) : i.next.word = nextWord i.word := by
  have last : (9007199254740992 : UInt64) ≤ i.word ↔ 9007199254740992 ≤ i.value := by
    rw [UInt64.le_iff_toNat_le, toNat_word]
    rfl
  apply UInt64.toNat_inj.mp
  unfold next nextWord
  by_cases low : i.value < 9007199254740992
  · rw [dif_pos low, if_neg (mt last.mp (Nat.not_le.mpr low)), toNat_word, toNat_word_add_one]
  · rw [dif_neg low, if_pos (last.mpr (Nat.le_of_not_lt low))]
    rfl

end Id

namespace IdSource

/-- What is left of a source when this many ids were drawn. -/
def after (ids : IdSource) : Nat → IdSource
  | 0 => ids
  | n + 1 => after ids.draw.2 n

/-- The ids that a source gives out first, this many of them. -/
def firsts (ids : IdSource) (n : Nat) : List Id :=
  (List.range n).map fun place => (ids.after place).upcoming

theorem value_after (ids : IdSource) (n : Nat) :
    (ids.after n).upcoming.value = (ids.upcoming.value - 1 + n) % 9007199254740992 + 1 := by
  have least := ids.upcoming.one_le
  have most := ids.upcoming.le_max
  induction n generalizing ids with
  | zero =>
    rw [after, Nat.add_zero, Nat.mod_eq_of_lt (by omega)]
    omega
  | succ n ih =>
    have drawn : ids.draw.2.upcoming.value = ids.upcoming.value % 9007199254740992 + 1 :=
      ids.upcoming.value_next
    rw [after, ih ids.draw.2 ids.draw.2.upcoming.one_le ids.draw.2.upcoming.le_max, drawn]
    omega

theorem after_add (ids : IdSource) (m n : Nat) : ids.after (m + n) = (ids.after m).after n := by
  induction m generalizing ids with
  | zero => rw [Nat.zero_add, after]
  | succ m ih => rw [Nat.succ_add, after, after, ih]

theorem word_after (ids : IdSource) (n : Nat) :
    (ids.after n).upcoming.word = Id.nextWord^[n] ids.upcoming.word := by
  induction n generalizing ids with
  | zero => rfl
  | succ n ih =>
    rw [after, ih, Function.iterate_succ_apply, ← Id.word_next]
    rfl

theorem firsts_add (ids : IdSource) (m n : Nat) :
    ids.firsts (m + n) = ids.firsts m ++ (ids.after m).firsts n := by
  simp only [firsts, List.range_add, List.map_append, List.map_map, Function.comp_def, after_add]

@[simp] theorem length_firsts (ids : IdSource) (n : Nat) : (ids.firsts n).length = n := by
  simp [firsts]

/-! ### Rounds -/

/-- Wherever the drawing begins, no id comes twice in one round. -/
theorem nodup_firsts (ids : IdSource) {n : Nat} (round : n ≤ 9007199254740992) :
    (ids.firsts n).Nodup := by
  refine List.Nodup.map_on (fun i hi j hj same => ?_) List.nodup_range
  have values := congrArg Id.value same
  rw [value_after, value_after] at values
  have early := List.mem_range.mp hi
  have early' := List.mem_range.mp hj
  omega

/-- Wherever the drawing begins, every id comes in one round. -/
theorem mem_firsts (ids : IdSource) {n : Nat} (round : 9007199254740992 ≤ n) (i : Id) :
    i ∈ ids.firsts n := by
  have least := i.one_le
  have most := i.le_max
  have least' := ids.upcoming.one_le
  have most' := ids.upcoming.le_max
  -- As far after the next id as this one is, the way round included.
  let place := (i.value + 9007199254740992 - ids.upcoming.value) % 9007199254740992
  have early : place < 9007199254740992 := Nat.mod_lt _ (by decide)
  refine List.mem_map.mpr ⟨place, List.mem_range.mpr (Nat.lt_of_lt_of_le early round), ?_⟩
  apply Id.eq_of_value_eq
  rw [value_after]
  omega

/-! ### Runs -/

/-- What may be done to a source. -/
inductive Step where
  | draw
  | reset
  deriving DecidableEq, Repr

/-- One step after another: the ids that are drawn, and what is left of the source. -/
def run (ids : IdSource) : List Step → List Id × IdSource
  | [] => ([], ids)
  | .draw :: rest =>
    let (i, ids) := ids.draw
    let (drawn, ids) := ids.run rest
    (i :: drawn, ids)
  | .reset :: rest => ids.reset.run rest

theorem run_draw (ids : IdSource) (rest : List Step) :
    ids.run (.draw :: rest) =
      (ids.upcoming :: (ids.draw.2.run rest).1, (ids.draw.2.run rest).2) := rfl

theorem run_append (ids : IdSource) (steps later : List Step) :
    ids.run (steps ++ later) =
      ((ids.run steps).1 ++ ((ids.run steps).2.run later).1, ((ids.run steps).2.run later).2) := by
  induction steps generalizing ids with
  | nil => rfl
  | cons step rest ih =>
    cases step with
    | draw => rw [List.cons_append, run_draw, ih, run_draw, List.cons_append]
    | reset => exact ih ids.reset

theorem run_draws (ids : IdSource) (n : Nat) :
    ids.run (List.replicate n .draw) = (ids.firsts n, ids.after n) := by
  induction n generalizing ids with
  | zero => rfl
  | succ n ih =>
    have first : ids.firsts (n + 1) = ids.upcoming :: ids.draw.2.firsts n := by
      rw [Nat.add_comm, firsts_add]
      rfl
    rw [List.replicate_succ, run_draw, ih, first, after]

/-- Whatever was done before a reset, all that comes after it is as of a source that begins at the
least id. -/
theorem run_reset (ids : IdSource) (steps later : List Step) :
    ids.run (steps ++ .reset :: later) =
      ((ids.run steps).1 ++ (initial.run later).1, (initial.run later).2) :=
  run_append ids steps (.reset :: later)

/-- A source gives out the ids that follow its first one, and goes round after the largest: the
number that is due in each place is an id, and it is the one that is drawn there, whatever is done
to the source later. Reckoned in words of 64 bits it is the same number, as no sum of the reckoning
is too large for a word. From any place on, a round of draws has every id, and has it once. -/
theorem ids_go_round (first : Id) :
    let source := startingAt first
    let due : Nat → Nat := fun n => (first.value - 1 + n) % 9007199254740992 + 1
    (∀ n later, ∃ i, Id.ofNat (due n) = .ok i ∧ i.value = due n ∧
      (source.run (List.replicate (n + 1) .draw ++ later)).1[n]? = some i) ∧
    (∀ n, (Id.nextWord^[n] first.word).toNat = due n ∧
      (Id.nextWord^[n] first.word + 1).toNat = due n + 1) ∧
    (∀ n, let round := (source.run (List.replicate (n + 9007199254740992) .draw)).1.drop n
      round.length = 9007199254740992 ∧ round.Nodup ∧ ∀ i : Id, i ∈ round) := by
  intro source due
  have values : ∀ n, (source.after n).upcoming.value = due n := value_after source
  refine ⟨fun n later => ⟨(source.after n).upcoming, ?valid, values n, ?drawn⟩,
    fun n => ?words, fun n => ?round⟩
  case valid =>
    rw [← values n]
    exact Id.ofNat_value _
  case drawn =>
    have early : n < (source.firsts (n + 1)).length := by simp
    rw [run_append, run_draws, List.getElem?_append_left early]
    simp [firsts]
  case words =>
    have words : (source.after n).upcoming.word = Id.nextWord^[n] first.word := word_after source n
    rw [← words, Id.toNat_word, Id.toNat_word_add_one, values n]
    exact ⟨rfl, rfl⟩
  case round =>
    have rest : (source.run (List.replicate (n + 9007199254740992) .draw)).1.drop n =
        (source.after n).firsts 9007199254740992 := by
      rw [run_draws, firsts_add]
      exact List.drop_left' (length_firsts source n)
    intro round
    rw [show round = _ from rest]
    exact ⟨length_firsts _ _, nodup_firsts _ (Nat.le_refl _), mem_firsts _ (Nat.le_refl _)⟩

example : ((startingAt Id.max).run [.draw, .draw]).1 = [Id.max, Id.min] := by decide

/-- What is drawn after a reset is what a new source draws that begins at the least id. So it is what
this source drew when it was new, just if it began at the least id, or if the first thing that is
done is not to draw. -/
theorem draws_after_reset (first : Id) (before later : List Step) :
    let new := startingAt first
    let again := (new.run (before ++ [.reset])).2
    (new.run (before ++ .reset :: later)).1 = (new.run before).1 ++ (again.run later).1 ∧
    (again.run later).1 = (initial.run later).1 ∧
    ((again.run later).1 = (new.run later).1 ↔
      first = Id.min ∨ later.head? ≠ some .draw) := by
  intro new again
  have least : again = initial := congrArg Prod.snd (run_reset new before [])
  rw [least]
  refine ⟨congrArg Prod.fst (run_reset new before later), rfl, ?_⟩
  cases later with
  | nil => exact ⟨fun _ => Or.inr (by simp), fun _ => rfl⟩
  | cons step rest =>
    cases step with
    | draw =>
      constructor
      · intro same
        exact Or.inl (List.head_eq_of_cons_eq same).symm
      · rintro (rfl | waits)
        · rfl
        · exact absurd rfl waits
    | reset => exact ⟨fun _ => Or.inr (by simp), fun _ => rfl⟩

/-- A source that began at five draws the least id after a reset, and not five again. -/
theorem reset_forgets_first :
    let five : Id := ⟨5, by decide, by decide⟩
    let drawn (steps : List Step) : List Id := ((startingAt five).run steps).1
    drawn [.draw, .reset, .draw] = [five, Id.min] ∧ drawn [.draw] = [five] ∧
      ¬ ∀ (first : Id) (before later : List Step),
        (((startingAt first).run (before ++ [.reset])).2.run later).1 =
          ((startingAt first).run later).1 := by
  intro five drawn
  refine ⟨by decide, by decide, fun same => ?_⟩
  exact absurd (same five [.draw] [.draw]) (by decide)

end IdSource

end WampClient
