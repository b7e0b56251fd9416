import WampClient.Proofs.Route.Index

/-! Routers whose index says no more and no less than their routes do. Every operation keeps them
so, hence any run does: a key lists exactly the routes that have it, in the order in which they
were added, and nothing is left behind where no route is. -/
namespace WampClient.Router

variable {H σ : Type}

/-- The handles of the routes that have a key, each as often as its route has it. -/
def holders (r : Router H) (key : RouteKey) : List Handle :=
  r.routes.flatMap fun x => List.replicate (x.keys.count key) x.handle

structure Tidy (r : Router H) : Prop where
  ordered : r.routes.Pairwise fun x y => x.handle < y.handle
  bounded : ∀ x ∈ r.routes, x.handle ≤ r.lastHandle
  index : TidyIndex r.index
  lists : ∀ key, listed r.index key = r.holders key

theorem mem_holders {r : Router H} {key : RouteKey} {h : Handle} :
    h ∈ r.holders key ↔ ∃ x ∈ r.routes, x.handle = h ∧ key ∈ x.keys := by
  simp only [holders, List.mem_flatMap, List.mem_replicate, ne_eq, List.count_eq_zero,
    Decidable.not_not]
  exact exists_congr fun x => and_congr_right fun _ => by rw [and_comm, eq_comm]

/-! ### Looking up routes -/

theorem mem_of_route? {r : Router H} {h : Handle} {x : Route H} (found : r.route? h = some x) :
    x ∈ r.routes ∧ x.handle = h :=
  ⟨List.mem_of_find?_eq_some found, by simpa using List.find?_some found⟩

theorem route?_eq_none_iff {r : Router H} {h : Handle} :
    r.route? h = none ↔ ∀ x ∈ r.routes, x.handle ≠ h := by
  simp [route?]

theorem eq_of_handle_eq {routes : List (Route H)} {x y : Route H}
    (ordered : routes.Pairwise fun x y => x.handle < y.handle) (hx : x ∈ routes) (hy : y ∈ routes)
    (same : x.handle = y.handle) : x = y := by
  induction routes with
  | nil => simp at hx
  | cons z rest ih =>
    obtain ⟨least, ordered⟩ := List.pairwise_cons.mp ordered
    rcases List.mem_cons.mp hx with rfl | later
    · rcases List.mem_cons.mp hy with rfl | later
      · rfl
      · exact absurd same (Nat.ne_of_lt (least y later))
    · rcases List.mem_cons.mp hy with rfl | first
      · exact absurd same.symm (Nat.ne_of_lt (least x later))
      · exact ih ordered later first

theorem Tidy.route?_eq_some_iff {r : Router H} (tidy : r.Tidy) {h : Handle} {x : Route H} :
    r.route? h = some x ↔ x ∈ r.routes ∧ x.handle = h := by
  refine ⟨mem_of_route?, fun ⟨hx, hh⟩ => ?_⟩
  cases found : r.route? h with
  | none => exact absurd hh (route?_eq_none_iff.mp found x hx)
  | some y =>
    obtain ⟨hy, same⟩ := mem_of_route? found
    rw [eq_of_handle_eq tidy.ordered hx hy (hh.trans same.symm)]

/-! ### What the operations do to the routes -/

theorem routes_add (r : Router H) (keys : List RouteKey) (handler : H) :
    (r.add keys handler).1.routes = r.routes ++ [⟨r.lastHandle + 1, keys, handler⟩] := rfl

@[simp] theorem routes_erase (r : Router H) (h : Handle) :
    (r.erase h).routes = r.routes.filter fun x => x.handle ≠ h := by
  rw [erase, remove]
  cases found : r.route? h with
  | none =>
    have absent := route?_eq_none_iff.mp found
    exact (List.filter_eq_self.mpr fun x hx => by simpa using absent x hx).symm
  | some x => rfl

@[simp] theorem lastHandle_erase (r : Router H) (h : Handle) :
    (r.erase h).lastHandle = r.lastHandle := by
  rw [erase, remove]
  split <;> rfl

theorem index_erase {r : Router H} {h : Handle} {x : Route H} (found : r.route? h = some x) :
    (r.erase h).index = x.keys.foldl (unindexKey h) r.index := by
  rw [erase, remove, found]

theorem routes_replace (r : Router H) (h : Handle) (handler : H) :
    (r.replace h handler).routes =
      r.routes.map fun x => if x.handle = h then { x with handler } else x := rfl

/-- To put in what is there already changes nothing. -/
theorem Tidy.replace_self {r : Router H} (tidy : r.Tidy) {h : Handle} {x : Route H}
    (found : r.route? h = some x) : r.replace h x.handler = r := by
  obtain ⟨hx, rfl⟩ := mem_of_route? found
  have same : ∀ y ∈ r.routes,
      (if y.handle = x.handle then { y with handler := x.handler } else y) = y := by
    intro y hy
    split
    next equal => rw [eq_of_handle_eq tidy.ordered hx hy equal.symm]
    next => rfl
  rw [replace, List.map_congr_left same, List.map_id']

/-- What is put into a route is lost with the route. -/
theorem erase_replace {r : Router H} {h : Handle} {x : Route H} (found : r.route? h = some x)
    (handler : H) : (r.replace h handler).erase h = r.erase h := by
  have replaced : (r.replace h handler).route? h = some { x with handler } := by
    have kept : ((fun y : Route H => y.handle == h) ∘
        fun y => if y.handle = h then { y with handler } else y) = fun y => y.handle == h := by
      funext y
      by_cases same : y.handle = h <;> simp [same]
    have found' := found
    rw [route?] at found'
    rw [route?, routes_replace, List.find?_map, kept, found']
    simp [(mem_of_route? found).2]
  have routes : (r.replace h handler).routes.filter (fun y => y.handle ≠ h) =
      r.routes.filter fun y => y.handle ≠ h := by
    rw [routes_replace]
    induction r.routes with
    | nil => rfl
    | cons y rest ih =>
      rw [List.map_cons, List.filter_cons, List.filter_cons, ih]
      by_cases same : y.handle = h <;> simp [same]
  rw [erase, remove, replaced, erase, remove, found]
  dsimp only
  rw [routes]
  rfl

theorem mem_routes_erase {r : Router H} {h : Handle} {x : Route H} :
    x ∈ (r.erase h).routes ↔ x ∈ r.routes ∧ x.handle ≠ h := by
  simp

/-! ### Every operation keeps a router tidy -/

theorem tidy_empty : (empty : Router H).Tidy where
  ordered := List.Pairwise.nil
  bounded := by simp [empty]
  index := tidyIndex_nil
  lists key := RouteNode.bucket_empty key.id

theorem holders_add (r : Router H) (keys : List RouteKey) (handler : H) (key : RouteKey) :
    (r.add keys handler).1.holders key =
      r.holders key ++ List.replicate (keys.count key) (r.lastHandle + 1) := by
  simp [holders, routes_add]

theorem Tidy.add {r : Router H} (tidy : r.Tidy) (keys : List RouteKey) (handler : H) :
    (r.add keys handler).1.Tidy where
  ordered := by
    rw [routes_add, List.pairwise_append]
    refine ⟨tidy.ordered, List.pairwise_singleton _ _, fun x hx y hy => ?_⟩
    rw [List.mem_singleton.mp hy]
    exact Nat.lt_succ_of_le (tidy.bounded x hx)
  bounded x hx := by
    rcases List.mem_append.mp hx with hx | hx
    · exact Nat.le_succ_of_le (tidy.bounded x hx)
    · rw [List.mem_singleton.mp hx]
      exact Nat.le_refl _
  index := tidy.index.foldl_indexKey _ _
  lists key := by
    rw [holders_add, ← tidy.lists]
    exact listed_foldl_indexKey tidy.index _ _ _

theorem holders_erase (r : Router H) (h : Handle) (key : RouteKey) :
    (r.erase h).holders key = (r.holders key).filter fun g => g ≠ h := by
  rw [holders, holders, routes_erase]
  induction r.routes with
  | nil => rfl
  | cons x rest ih =>
    rw [List.flatMap_cons, List.filter_append, ← ih]
    by_cases same : x.handle = h <;> simp [same]

theorem Tidy.erase {r : Router H} (tidy : r.Tidy) (h : Handle) : (r.erase h).Tidy := by
  cases found : r.route? h with
  | none => rwa [Router.erase, remove, found]
  | some x =>
    obtain ⟨hx, same⟩ := mem_of_route? found
    refine ⟨?_, ?_, ?_, fun key => ?_⟩
    · rw [routes_erase]
      exact tidy.ordered.filter _
    · intro y hy
      rw [lastHandle_erase]
      exact tidy.bounded y (mem_routes_erase.mp hy).1
    · rw [index_erase found]
      exact tidy.index.foldl_unindexKey _ _
    · rw [index_erase found, listed_foldl_unindexKey tidy.index, tidy.lists, holders_erase]
      split
      next => rfl
      next lacking =>
        -- no other route has this handle, so a key that the route lacks does not list it
        refine (List.filter_eq_self.mpr fun g hg => ?_).symm
        obtain ⟨y, hy, rfl, has⟩ := mem_holders.mp hg
        by_contra equal
        have : y = x := eq_of_handle_eq tidy.ordered hy hx (by simp_all)
        exact lacking (this ▸ has)

theorem Tidy.remove {r : Router H} (tidy : r.Tidy) (h : Handle) : (r.remove h).1.Tidy :=
  tidy.erase h

theorem Tidy.replace {r : Router H} (tidy : r.Tidy) (h : Handle) (handler : H) :
    (r.replace h handler).Tidy where
  ordered := by
    rw [routes_replace, List.pairwise_map]
    exact tidy.ordered.imp fun lt => by split <;> split <;> exact lt
  bounded x hx := by
    obtain ⟨y, hy, rfl⟩ := List.mem_map.mp hx
    split <;> exact tidy.bounded y hy
  index := tidy.index
  lists key := by
    refine (tidy.lists key).trans ?_
    rw [holders, holders, routes_replace, List.flatMap_map]
    congr 1
    funext x
    split <;> rfl

theorem Tidy.clear {r : Router H} (_ : r.Tidy) : r.clear.Tidy where
  ordered := List.Pairwise.nil
  bounded := by simp [Router.clear]
  index := tidyIndex_nil
  lists key := RouteNode.bucket_empty key.id

theorem Tidy.visit {r : Router H} (tidy : r.Tidy) (deliver : Handle → H → σ → Visit H σ)
    (matched : Bool) (s : σ) (h : Handle) : (visit deliver (r, matched, s) h).1.Tidy := by
  simp only [Router.visit]
  cases r.route? h with
  | none => exact tidy
  | some x =>
    dsimp only
    split
    · exact tidy.replace _ _
    · exact (tidy.replace _ _).erase _

theorem Tidy.foldl_visit {r : Router H} (tidy : r.Tidy) (deliver : Handle → H → σ → Visit H σ)
    (handles : List Handle) (matched : Bool) (s : σ) :
    (handles.foldl (Router.visit deliver) (r, matched, s)).1.Tidy := by
  induction handles generalizing r matched s with
  | nil => exact tidy
  | cons h rest ih => exact ih (tidy.visit deliver matched s h) _ _

theorem Tidy.dispatch {r : Router H} (tidy : r.Tidy) (key : RouteKey)
    (deliver : Handle → H → σ → Visit H σ) (s : σ) : (r.dispatch key deliver s).1.Tidy :=
  tidy.foldl_visit _ _ _ _

end WampClient.Router
