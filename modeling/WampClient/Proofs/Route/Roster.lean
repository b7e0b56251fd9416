import WampClient.Proofs.Route.Run

/-! A router without an index: a list of routes that is searched key by key with
`RouteKey.covers`. The indexed router does the same in every run, as long as no route is added with
the same key without an id twice: it visits the same routes in the same order, and what remains of
them afterwards is the same. -/
namespace WampClient

namespace Route

variable {H : Type}

/-- Whether some key of the route takes what comes in under the key. -/
def takes (x : Route H) (key : RouteKey) : Bool := x.keys.any fun own => own.covers key

/-- Whether some key without an id does. -/
def takesAll (x : Route H) (key : RouteKey) : Bool :=
  x.keys.any fun own => own.id.isNone && own.covers key

theorem takesAll_iff (x : Route H) (key : RouteKey) :
    x.takesAll key = true ↔ (⟨key.kind, none⟩ : RouteKey) ∈ x.keys := by
  simp only [takesAll, List.any_eq_true, Bool.and_eq_true, Option.isNone_iff_eq_none]
  constructor
  · rintro ⟨⟨kind, id⟩, has, rfl, covers⟩
    simp_all [RouteKey.covers]
  · exact fun has => ⟨_, has, rfl, by simp [RouteKey.covers]⟩

theorem takes_iff (x : Route H) (key : RouteKey) :
    x.takes key = true ↔ (⟨key.kind, none⟩ : RouteKey) ∈ x.keys ∨ key ∈ x.keys := by
  simp only [takes, List.any_eq_true]
  constructor
  · rintro ⟨⟨kind, id⟩, has, covers⟩
    cases key
    cases id <;> simp_all [RouteKey.covers]
  · rintro (has | has)
    · exact ⟨_, has, by simp [RouteKey.covers]⟩
    · exact ⟨_, has, by simp [RouteKey.covers]⟩

end Route

/-- Routes in the order in which they were added. -/
structure Roster (H : Type) where
  lastHandle : Nat
  routes : List (Route H)

namespace Roster

open Router (Visit Op Answer)

variable {H σ : Type}

def empty : Roster H := ⟨0, []⟩

/-- The routes that take a key: first those that take every message of its kind. -/
def audience (r : Roster H) (key : RouteKey) : List (Route H) :=
  r.routes.filter (fun x => x.takesAll key) ++
    r.routes.filter fun x => x.takes key && !x.takesAll key

/-- What comes of visiting routes one after another. -/
def visits (deliver : Handle → H → σ → Visit H σ) : List (Route H) → σ → List (Handle × Visit H σ)
  | [], _ => []
  | x :: rest, s =>
    let v := deliver x.handle x.handler s
    (x.handle, v) :: visits deliver rest v.state

def finalState (s : σ) (calls : List (Handle × Visit H σ)) : σ :=
  calls.foldl (fun _ call => call.2.state) s

/-- What becomes of a route: one that was visited goes if it does not stay, and otherwise has the
handler that the visit left. -/
def remains (calls : List (Handle × Visit H σ)) (x : Route H) : Option (Route H) :=
  match Assoc.get? x.handle calls with
  | none => some x
  | some v => if v.stays then some { x with handler := v.handler } else none

def dispatch (r : Roster H) (key : RouteKey) (deliver : Handle → H → σ → Visit H σ) (s : σ) :
    Roster H × Bool × σ :=
  let calls := visits deliver (r.audience key) s
  ({ r with routes := r.routes.filterMap (remains calls) }, !calls.isEmpty, finalState s calls)

def perform (r : Roster H) (s : σ) : Op H σ → Roster H × σ × Answer H
  | .add keys handler =>
    let route := r.lastHandle + 1
    (⟨route, r.routes ++ [⟨route, keys, handler⟩]⟩, s, .added route)
  | .remove route =>
    ({ r with routes := r.routes.filter fun x => x.handle ≠ route }, s,
      .removed ((r.routes.find? fun x => x.handle == route).map Route.handler))
  | .dispatch key deliver =>
    let (r, matched, s) := r.dispatch key deliver s
    (r, s, .dispatched matched)
  | .clear => ({ r with routes := [] }, s, .cleared)

def run (r : Roster H) (s : σ) : List (Op H σ) → Roster H × σ × List (Answer H)
  | [] => (r, s, [])
  | op :: rest =>
    let (r, s, answer) := r.perform s op
    let (r, s, answers) := r.run s rest
    (r, s, answer :: answers)

theorem visits_handles (deliver : Handle → H → σ → Visit H σ) (called : List (Route H)) (s : σ) :
    (visits deliver called s).map Prod.fst = called.map Route.handle := by
  induction called generalizing s with
  | nil => rfl
  | cons x rest ih => simp [visits, ih]

theorem remains_nil : remains ([] : List (Handle × Visit H σ)) = some := rfl

theorem remains_same {calls : List (Handle × Visit H σ)} {x y : Route H}
    (h : remains calls x = some y) : y.handle = x.handle ∧ y.keys = x.keys := by
  unfold remains at h
  split at h
  · simp [← Option.some.inj h]
  · split at h
    · simp [← Option.some.inj h]
    · simp at h

/-- Visits one after another: the first one decides on its own route only. -/
theorem remains_cons {h : Handle} {calls : List (Handle × Visit H σ)} (v : Visit H σ)
    (once : h ∉ calls.map Prod.fst) (x : Route H) :
    remains ((h, v) :: calls) x = (remains [(h, v)] x).bind (remains calls) := by
  by_cases same : h = x.handle
  · subst same
    have absent := Assoc.get?_eq_none_iff.mpr once
    by_cases stays : v.stays <;> simp [remains, Assoc.get?, stays, absent]
  · simp [remains, Assoc.get?, same]

theorem mem_audience {r : Roster H} {key : RouteKey} {x : Route H} :
    x ∈ r.audience key ↔ x ∈ r.routes ∧ x.takes key = true := by
  have general : x.takesAll key = true → x.takes key = true := fun h =>
    (x.takes_iff key).mpr (Or.inl ((x.takesAll_iff key).mp h))
  simp only [audience, List.mem_append, List.mem_filter, Bool.and_eq_true, Bool.not_eq_true']
  cases h : x.takesAll key <;> simp_all

end Roster

end WampClient
