import WampClient.Proofs.Route.Tidy

/-! Runs of a router: any operations, one after another. -/
namespace WampClient.Router

variable {H σ : Type}

/-- What may be done to a router. A dispatch hands its environment on to the next one. -/
inductive Op (H σ : Type) where
  | add (keys : List RouteKey) (handler : H)
  | remove (route : Handle)
  | dispatch (key : RouteKey) (deliver : Handle → H → σ → Visit H σ)
  | clear

/-- What an operation gives back. -/
inductive Answer (H : Type) where
  | added (route : Handle)
  | removed (handler : Option H)
  | dispatched (matched : Bool)
  | cleared

def perform (r : Router H) (s : σ) : Op H σ → Router H × σ × Answer H
  | .add keys handler =>
    let (r, route) := r.add keys handler
    (r, s, .added route)
  | .remove route =>
    let (r, handler) := r.remove route
    (r, s, .removed handler)
  | .dispatch key deliver =>
    let (r, matched, s) := r.dispatch key deliver s
    (r, s, .dispatched matched)
  | .clear => (r.clear, s, .cleared)

def run (r : Router H) (s : σ) : List (Op H σ) → Router H × σ × List (Answer H)
  | [] => (r, s, [])
  | op :: rest =>
    let (r, s, answer) := r.perform s op
    let (r, s, answers) := r.run s rest
    (r, s, answer :: answers)

theorem Tidy.perform {r : Router H} (tidy : r.Tidy) (s : σ) (op : Op H σ) :
    (r.perform s op).1.Tidy := by
  cases op with
  | add keys handler => exact tidy.add keys handler
  | remove route => exact tidy.remove route
  | dispatch key deliver => exact tidy.dispatch key deliver s
  | clear => exact tidy.clear

theorem Tidy.run {r : Router H} (tidy : r.Tidy) (s : σ) (ops : List (Op H σ)) :
    (r.run s ops).1.Tidy := by
  induction ops generalizing r s with
  | nil => exact tidy
  | cons op rest ih => exact ih (tidy.perform s op) _

/-! ### What a tidy index is made of -/

theorem Tidy.mem_listed_iff {r : Router H} (tidy : r.Tidy) (key : RouteKey) (h : Handle) :
    h ∈ listed r.index key ↔ ∃ x ∈ r.routes, x.handle = h ∧ key ∈ x.keys := by
  rw [tidy.lists, mem_holders]

theorem Tidy.listed_ordered {r : Router H} (tidy : r.Tidy) (key : RouteKey) :
    (listed r.index key).Pairwise (· ≤ ·) := by
  rw [tidy.lists, holders, List.pairwise_flatMap]
  refine ⟨fun x _ => ?_, tidy.ordered.imp fun {x y} lt g hg h hh => ?_⟩
  · exact List.pairwise_replicate.mpr (Or.inr (Nat.le_refl _))
  · rw [List.eq_of_mem_replicate hg, List.eq_of_mem_replicate hh]
    exact Nat.le_of_lt lt

theorem TidyIndex.listed_of_mem {index : List (RouteKind × RouteNode)} (tidy : TidyIndex index)
    {kind : RouteKind} {n : RouteNode} (h : (kind, n) ∈ index) (id : Option Id) :
    listed index ⟨kind, id⟩ = n.bucket id := by
  simp [listed, Assoc.get?_of_mem tidy.distinct h]

theorem Tidy.index_eq_nil {r : Router H} (tidy : r.Tidy)
    (keyless : ∀ x ∈ r.routes, x.keys = []) : r.index = [] := by
  by_contra some'
  obtain ⟨⟨kind, n⟩, he⟩ := List.exists_mem_of_ne_nil _ some'
  have full := tidy.index.filled _ he
  have void : n.isEmpty = true := by
    refine (RouteNode.isEmpty_iff_bucket (tidy.index.nodes _ he)).mpr fun id => ?_
    rw [← tidy.index.listed_of_mem he, List.eq_nil_iff_forall_not_mem]
    intro h listed
    obtain ⟨x, hx, -, has⟩ := (tidy.mem_listed_iff _ _).mp listed
    simp [keyless x hx] at has
  simp [void] at full

/-- After any run the index lists a route under a key exactly if the route is live and has the
key, in the order of installation, and holds nothing else: each kind and each id stands in it once,
with some handle, so without keys there is no index. -/
theorem index_exact (s : σ) (ops : List (Op H σ)) :
    let r := ((empty : Router H).run s ops).1
    (∀ key h, h ∈ listed r.index key ↔ ∃ x ∈ r.routes, x.handle = h ∧ key ∈ x.keys) ∧
    (r.routes.Pairwise fun x y => x.handle < y.handle) ∧
    (∀ key, (listed r.index key).Pairwise (· ≤ ·)) ∧
    (r.index.map Prod.fst).Nodup ∧
    (∀ kind n, (kind, n) ∈ r.index → n.isEmpty = false ∧ (n.byId.map Prod.fst).Nodup ∧
      n.general = listed r.index ⟨kind, none⟩ ∧
      ∀ id handles, (id, handles) ∈ n.byId →
        handles ≠ [] ∧ handles = listed r.index ⟨kind, some id⟩) ∧
    (∀ x ∈ r.routes, x.handle ≤ r.lastHandle) ∧
    ((∀ x ∈ r.routes, x.keys = []) → r.index = []) := by
  intro r
  have tidy : r.Tidy := tidy_empty.run s ops
  refine ⟨tidy.mem_listed_iff, tidy.ordered, tidy.listed_ordered, tidy.index.distinct, ?_,
    tidy.bounded, tidy.index_eq_nil⟩
  intro kind n he
  have node := tidy.index.nodes _ he
  refine ⟨tidy.index.filled _ he, node.distinct, (tidy.index.listed_of_mem he none).symm, ?_⟩
  intro id handles hb
  refine ⟨node.filled _ hb, ?_⟩
  rw [tidy.index.listed_of_mem he, RouteNode.bucket, Assoc.get?_of_mem node.distinct hb]
  rfl

end WampClient.Router
