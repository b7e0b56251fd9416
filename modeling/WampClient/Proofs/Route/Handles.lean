import WampClient.Proofs.Route.Repeats

/-! Handles may be kept for longer than their routes. A handle is given out once, and once its route
is gone it names nothing; so to remove a route again does nothing, whatever was added meanwhile. To
remove a route that is there takes nothing from the others: a route that was just added leaves the
router as it was, and what is delivered to the other routes later on is the same without it. -/
namespace WampClient

theorem Assoc.filterMap_alter {κ α β : Type} [DecidableEq κ] (keep : κ → α → Option β) (key : κ)
    {f : Option α → Option α} (same : ∀ a, (f a).bind (keep key) = a.bind (keep key))
    (entries : List (κ × α)) :
    (alter key f entries).filterMap (fun e => keep e.1 e.2) =
      entries.filterMap fun e => keep e.1 e.2 := by
  induction entries with
  | nil =>
    have new := same none
    cases added : f none <;> simp_all [alter]
  | cons e rest ih =>
    by_cases mine : e.1 = key
    · have changed := same (some e.2)
      cases left : f (some e.2) <;> simp_all [alter, List.filterMap_cons]
    · rw [alter, if_neg mine, List.filterMap_cons, List.filterMap_cons, ih]

/-! ### An index without a handle -/

namespace RouteNode

/-- The node without a handle, wherever it is listed. -/
def strip (h : Handle) (n : RouteNode) : RouteNode :=
  ⟨n.general.filter fun g => g ≠ h,
    n.byId.filterMap fun e => (without h e.2).map fun left => (e.1, left)⟩

theorem without_append_self (h : Handle) (handles : List Handle) :
    without h (handles ++ [h]) = without h handles := by simp [without]

theorem bind_without (h : Handle) (handles : List Handle) :
    (without h handles).bind (without h) = without h handles := by
  unfold without
  dsimp only
  split
  · rfl
  next some' =>
    rw [List.isEmpty_iff] at some'
    simpa [List.filter_filter] using some'

theorem without_of_not_mem {h : Handle} {handles : List Handle} (absent : h ∉ handles)
    (some' : handles ≠ []) : without h handles = some handles := by
  have all : handles.filter (fun g => g ≠ h) = handles :=
    List.filter_eq_self.mpr fun g there => decide_eq_true fun same : g = h => absent (same ▸ there)
  simp only [without, all, List.isEmpty_iff, some', if_false]

theorem strip_add (h : Handle) (n : RouteNode) (id : Option Id) :
    (n.add id h).strip h = n.strip h := by
  cases id with
  | none => simp [add, strip]
  | some i =>
    rw [strip, strip, add]
    congr 1
    refine Assoc.filterMap_alter (fun i handles => (without h handles).map fun left => (i, left)) i
      (fun handles => ?_) n.byId
    cases handles with
    | none => simp [without]
    | some handles => simp [without_append_self]

theorem strip_remove (h : Handle) (n : RouteNode) (id : Option Id) :
    (n.remove id h).strip h = n.strip h := by
  cases id with
  | none => simp [remove, strip, List.filter_filter]
  | some i =>
    rw [strip, strip, remove]
    congr 1
    refine Assoc.filterMap_alter (fun i handles => (without h handles).map fun left => (i, left)) i
      (fun handles => ?_) n.byId
    cases handles with
    | none => rfl
    | some handles =>
      have again := bind_without h handles
      cases left : without h handles <;> simp_all

theorem isEmpty_strip {h : Handle} {n : RouteNode} (void : n.isEmpty = true) :
    (n.strip h).isEmpty = true := by
  obtain ⟨general, byId⟩ := n
  simp_all [isEmpty, strip]

theorem strip_of_unlisted {h : Handle} {n : RouteNode} (tidy : n.Tidy)
    (unlisted : ∀ id, h ∉ n.bucket id) : n.strip h = n := by
  have general : n.general.filter (fun g => g ≠ h) = n.general :=
    List.filter_eq_self.mpr fun g there =>
      decide_eq_true fun same : g = h => unlisted none (same ▸ there)
  have byId : n.byId.filterMap (fun e => (without h e.2).map fun left => (e.1, left)) = n.byId := by
    refine (List.filterMap_congr fun e there => ?_).trans List.filterMap_some
    have absent : h ∉ e.2 := by
      have listed := unlisted (some e.1)
      rwa [bucket, Assoc.get?_of_mem tidy.distinct there] at listed
    rw [without_of_not_mem absent (tidy.filled e there)]
    rfl
  rw [strip, general, byId]

end RouteNode

namespace Router

variable {H σ τ : Type} {r r' : Router H} {h : Handle}

/-- The index without a handle, wherever it is listed, and without the nodes that are left empty. -/
def strip (h : Handle) (index : List (RouteKind × RouteNode)) : List (RouteKind × RouteNode) :=
  index.filterMap fun e =>
    if (e.2.strip h).isEmpty then none else some (e.1, e.2.strip h)

theorem strip_indexKey (h : Handle) (index : List (RouteKind × RouteNode)) (key : RouteKey) :
    strip h (indexKey h index key) = strip h index := by
  refine Assoc.filterMap_alter (fun kind n =>
    if (n.strip h).isEmpty then none else some (kind, n.strip h)) key.kind (fun n => ?_) index
  cases n with
  | none =>
    have void : (RouteNode.empty.strip h).isEmpty = true := rfl
    simp [RouteNode.strip_add, void]
  | some n => simp [RouteNode.strip_add]

theorem strip_unindexKey (h : Handle) (index : List (RouteKind × RouteNode)) (key : RouteKey) :
    strip h (unindexKey h index key) = strip h index := by
  refine Assoc.filterMap_alter (fun kind n =>
    if (n.strip h).isEmpty then none else some (kind, n.strip h)) key.kind (fun n => ?_) index
  cases n with
  | none => rfl
  | some n =>
    dsimp only [Option.bind_some]
    split
    next void =>
      have left := RouteNode.isEmpty_strip (h := h) void
      rw [RouteNode.strip_remove] at left
      simp [left]
    next => simp [RouteNode.strip_remove]

theorem strip_foldl_indexKey (h : Handle) (index : List (RouteKind × RouteNode))
    (keys : List RouteKey) : strip h (keys.foldl (indexKey h) index) = strip h index := by
  induction keys generalizing index with
  | nil => rfl
  | cons key rest ih => rw [List.foldl_cons, ih, strip_indexKey]

theorem strip_foldl_unindexKey (h : Handle) (index : List (RouteKind × RouteNode))
    (keys : List RouteKey) : strip h (keys.foldl (unindexKey h) index) = strip h index := by
  induction keys generalizing index with
  | nil => rfl
  | cons key rest ih => rw [List.foldl_cons, ih, strip_unindexKey]

theorem strip_of_unlisted {index : List (RouteKind × RouteNode)} (tidy : TidyIndex index)
    (unlisted : ∀ key, h ∉ listed index key) : strip h index = index := by
  refine (List.filterMap_congr fun e there => ?_).trans List.filterMap_some
  have node : e.2.strip h = e.2 := by
    refine RouteNode.strip_of_unlisted (tidy.nodes e there) fun id => ?_
    rw [← tidy.listed_of_mem there id]
    exact unlisted _
  rw [node, tidy.filled e there]
  rfl

/-! ### A route that was just added -/

theorem Tidy.lt_of_fresh (tidy : r.Tidy) {x : Route H} (there : x ∈ r.routes) :
    x.handle < r.lastHandle + 1 := Nat.lt_succ_of_le (tidy.bounded x there)

/-- What was added is given back, and nothing of it is left but that its handle is used. -/
theorem Tidy.remove_add (tidy : r.Tidy) (keys : List RouteKey) (handler : H) :
    (r.add keys handler).1.remove (r.lastHandle + 1) =
      ({ r with lastHandle := r.lastHandle + 1 }, some handler) := by
  have tidy' := tidy.add keys handler
  have others : ∀ x ∈ r.routes, x.handle ≠ r.lastHandle + 1 := fun x there =>
    Nat.ne_of_lt (tidy.lt_of_fresh there)
  have found : (r.add keys handler).1.route? (r.lastHandle + 1) =
      some ⟨r.lastHandle + 1, keys, handler⟩ :=
    tidy'.route?_eq_some_iff.mpr ⟨by simp [routes_add], rfl⟩
  have routes : (r.add keys handler).1.routes.filter (fun x => x.handle ≠ r.lastHandle + 1) =
      r.routes := by
    rw [routes_add, List.filter_append, List.filter_eq_self.mpr fun x there => by
      simpa using others x there]
    simp
  have index : keys.foldl (unindexKey (r.lastHandle + 1)) (r.add keys handler).1.index =
      r.index := by
    have unlisted : ∀ key, r.lastHandle + 1 ∉ listed r.index key := by
      intro key listed
      obtain ⟨x, there, same, -⟩ := (tidy.mem_listed_iff key _).mp listed
      exact others x there same
    have left : ∀ key, r.lastHandle + 1 ∉
        listed (keys.foldl (unindexKey (r.lastHandle + 1)) (r.add keys handler).1.index) key := by
      intro key
      rw [listed_foldl_unindexKey tidy'.index]
      split
      · simp
      next lacks =>
        rw [tidy'.mem_listed_iff]
        rintro ⟨x, there, same, has⟩
        rcases List.mem_append.mp there with old | new
        · exact others x old same
        · rw [List.mem_singleton.mp new] at has
          exact lacks has
    rw [← strip_of_unlisted (tidy'.index.foldl_unindexKey _ keys) left, strip_foldl_unindexKey]
    exact (strip_foldl_indexKey _ _ _).trans (strip_of_unlisted tidy.index unlisted)
  rw [Router.remove, found]
  dsimp only
  rw [routes, index]
  rfl

/-! ### A router's life -/

/-- What can be done to a router: an operation, or something to every handler. -/
inductive Deed (H σ : Type) where
  | op (op : Op H σ)
  | everywhere (change : Handle → H → H)

namespace Deed

def isAdd : Deed H σ → Bool
  | .op (.add _ _) => true
  | _ => false

end Deed

def undergo (r : Router H) (s : σ) : Deed H σ → Router H × σ
  | .op op => ((r.perform s op).1, (r.perform s op).2.1)
  | .everywhere change => (r.mapHandlers change, s)

def live (r : Router H) (s : σ) : List (Deed H σ) → Router H × σ
  | [] => (r, s)
  | deed :: rest => (r.undergo s deed).1.live (r.undergo s deed).2 rest

/-- The handles that are given out, in order. -/
def handed (r : Router H) (s : σ) : List (Deed H σ) → List Handle
  | [] => []
  | deed :: rest =>
    let later := (r.undergo s deed).1.handed (r.undergo s deed).2 rest
    match deed with
    | .op (.add keys handler) => (r.add keys handler).2 :: later
    | _ => later

theorem routes_mapHandlers (r : Router H) (change : Handle → H → H) :
    (r.mapHandlers change).routes =
      r.routes.map fun x => { x with handler := change x.handle x.handler } := rfl

theorem Tidy.mapHandlers (tidy : r.Tidy) (change : Handle → H → H) :
    (r.mapHandlers change).Tidy where
  ordered := List.pairwise_map.mpr tidy.ordered
  bounded x there := by
    obtain ⟨y, among, rfl⟩ := List.mem_map.mp there
    exact tidy.bounded y among
  index := tidy.index
  lists key := by
    refine (tidy.lists key).trans ?_
    rw [holders, holders, routes_mapHandlers, List.flatMap_map]

theorem Tidy.undergo (tidy : r.Tidy) (s : σ) (deed : Deed H σ) : (r.undergo s deed).1.Tidy := by
  cases deed with
  | op op => exact tidy.perform s op
  | everywhere change => exact tidy.mapHandlers change

theorem Tidy.live (tidy : r.Tidy) (s : σ) (deeds : List (Deed H σ)) : (r.live s deeds).1.Tidy := by
  induction deeds generalizing r s with
  | nil => exact tidy
  | cons deed rest ih => exact ih (tidy.undergo s deed) _

/-! ### Handles are given out once -/

theorem lastHandle_foldl_visit (deliver : Handle → H → σ → Visit H σ) (handles : List Handle)
    (r : Router H) (matched : Bool) (s : σ) :
    (handles.foldl (visit deliver) (r, matched, s)).1.lastHandle = r.lastHandle := by
  induction handles generalizing r matched s with
  | nil => rfl
  | cons g rest ih =>
    rw [List.foldl_cons]
    exact (ih _ _ _).trans (lastHandle_visit r deliver matched s g)

theorem lastHandle_undergo (r : Router H) (s : σ) (deed : Deed H σ) :
    (r.undergo s deed).1.lastHandle = r.lastHandle + if deed.isAdd then 1 else 0 := by
  cases deed with
  | everywhere change => rfl
  | op op =>
    cases op with
    | add keys handler => rfl
    | remove route => exact lastHandle_erase r route
    | dispatch key deliver => exact lastHandle_foldl_visit deliver _ r false s
    | clear => rfl

theorem lastHandle_live (r : Router H) (s : σ) (deeds : List (Deed H σ)) :
    (r.live s deeds).1.lastHandle = r.lastHandle + deeds.countP Deed.isAdd := by
  induction deeds generalizing r s with
  | nil => rfl
  | cons deed rest ih =>
    rw [live, ih, lastHandle_undergo, List.countP_cons]
    omega

theorem handed_cons (r : Router H) (s : σ) (deed : Deed H σ) (rest : List (Deed H σ)) :
    r.handed s (deed :: rest) = (if deed.isAdd then [r.lastHandle + 1] else []) ++
      (r.undergo s deed).1.handed (r.undergo s deed).2 rest := by
  cases deed with
  | everywhere change => rfl
  | op op => cases op <;> rfl

/-- The handles are the numbers that follow the last one, one after another. -/
theorem handed_eq (r : Router H) (s : σ) (deeds : List (Deed H σ)) :
    r.handed s deeds = List.range' (r.lastHandle + 1) (deeds.countP Deed.isAdd) := by
  induction deeds generalizing r s with
  | nil => rfl
  | cons deed rest ih =>
    rw [handed_cons, ih, lastHandle_undergo, List.countP_cons]
    by_cases adds : deed.isAdd = true
    · simp only [if_pos adds, List.range'_succ, List.singleton_append]
    · simp only [if_neg adds, List.nil_append, Nat.add_zero]

/-! ### Routes that are gone -/

theorem remove_of_gone (gone : r.route? h = none) : r.remove h = (r, none) := by
  rw [remove, gone]

theorem route?_visit_of_gone {deliver : Handle → H → σ → Visit H σ} (gone : r.route? h = none)
    (matched : Bool) (s : σ) (g : Handle) :
    (visit deliver (r, matched, s) g).1.route? h = none := by
  cases found : r.route? g with
  | none => rwa [visit_of_gone found]
  | some x =>
    have other : h ≠ g := by
      rintro rfl
      exact nomatch gone.symm.trans found
    rw [visit_of_route? found]
    exact (route?_afterVisit_of_ne _ other).trans gone

/-- Nothing brings back a route whose handle was given out. -/
theorem route?_undergo_of_gone (used : h ≤ r.lastHandle) (gone : r.route? h = none) (s : σ)
    (deed : Deed H σ) : (r.undergo s deed).1.route? h = none := by
  have absent := route?_eq_none_iff.mp gone
  cases deed with
  | everywhere change =>
    refine route?_eq_none_iff.mpr fun x there => ?_
    obtain ⟨y, among, rfl⟩ := List.mem_map.mp there
    exact absent y among
  | op op =>
    cases op with
    | add keys handler =>
      refine route?_eq_none_iff.mpr fun x there => ?_
      rcases List.mem_append.mp there with old | new
      · exact absent x old
      · rw [List.mem_singleton.mp new]
        exact Nat.ne_of_gt (Nat.lt_succ_of_le used)
    | remove route =>
      exact route?_eq_none_iff.mpr fun x there => absent x (mem_routes_erase.mp there).1
    | dispatch key deliver =>
      have visits : ∀ (handles : List Handle) (r : Router H) (matched : Bool) (s : σ),
          r.route? h = none →
            (handles.foldl (visit deliver) (r, matched, s)).1.route? h = none := by
        intro handles
        induction handles with
        | nil => exact fun _ _ _ gone => gone
        | cons g rest ih =>
          exact fun r matched s gone => ih _ _ _ (route?_visit_of_gone gone matched s g)
      exact visits _ r false s gone
    | clear => rfl

theorem route?_live_of_gone (used : h ≤ r.lastHandle) (gone : r.route? h = none) (s : σ)
    (deeds : List (Deed H σ)) : (r.live s deeds).1.route? h = none := by
  induction deeds generalizing r s with
  | nil => exact gone
  | cons deed rest ih =>
    refine ih ?_ (route?_undergo_of_gone used gone s deed) _
    rw [lastHandle_undergo]
    exact Nat.le_add_right_of_le used

/-! ### The others without the route -/

/-- To the other routes it makes no difference what one of them is handed: they go by a view of the
environment, and visits to that route leave the view alone. -/
def Deed.Apart (h : Handle) (view : σ → τ) : Deed H σ → Prop
  | .op (.dispatch _ deliver) =>
    (∀ handler s, view (deliver h handler s).state = view s) ∧
      ∀ g handler s s', g ≠ h → view s' = view s →
        (deliver g handler s').handler = (deliver g handler s).handler ∧
          (deliver g handler s').stays = (deliver g handler s).stays ∧
            view (deliver g handler s').state = view (deliver g handler s).state
  | _ => True

/-- The second router is the first one without a route, and to the other routes the environments
look alike. -/
structure Beside (h : Handle) (view : σ → τ) (p p' : Router H × σ) : Prop where
  routes : p'.1.routes = p.1.routes.filter fun x => x.handle ≠ h
  last : p'.1.lastHandle = p.1.lastHandle
  alike : view p'.2 = view p.2

/-- The routes that a deed visits, in order. -/
def delivered (r : Router H) (s : σ) : Deed H σ → List Handle
  | .op (.dispatch key deliver) => r.visited key deliver s
  | _ => []

/-- The routes that each of the deeds visits. -/
def deliveries (r : Router H) (s : σ) : List (Deed H σ) → List (List Handle)
  | [] => []
  | deed :: rest =>
    r.delivered s deed :: (r.undergo s deed).1.deliveries (r.undergo s deed).2 rest

section

variable {view : σ → τ} {s s' : σ} {g : Handle} {key : RouteKey}
  {deliver : Handle → H → σ → Visit H σ}

theorem route?_of_filter (same : r'.routes = r.routes.filter fun x => x.handle ≠ h)
    (other : g ≠ h) : r'.route? g = r.route? g := by
  rw [← route?_erase_of_ne r other, route?, route?, routes_erase, same]

theorem holders_of_filter (same : r'.routes = r.routes.filter fun x => x.handle ≠ h)
    (key : RouteKey) : r'.holders key = (r.holders key).filter fun g => g ≠ h := by
  rw [← holders_erase, holders, holders, routes_erase, same]

theorem matching_of_filter (tidy : r.Tidy) (tidy' : r'.Tidy)
    (same : r'.routes = r.routes.filter fun x => x.handle ≠ h) (key : RouteKey) :
    r'.matching key = (r.matching key).filter fun g => g ≠ h := by
  have lists : ∀ key, listed r'.index key = (listed r.index key).filter fun g => g ≠ h := by
    intro key
    rw [tidy'.lists, tidy.lists, holders_of_filter same]
  rw [matching_eq, matching_eq, filter_foldl_includeHandle, lists]
  split
  · rw [lists]
  · rfl

theorem routes_afterVisit (r : Router H) (g : Handle) (v : Visit H σ) :
    (r.afterVisit g v).routes = r.routes.filterMap (Roster.remains [(g, v)]) :=
  routes_visit r g v

theorem lastHandle_afterVisit (r : Router H) (g : Handle) (v : Visit H σ) :
    (r.afterVisit g v).lastHandle = r.lastHandle := by
  unfold afterVisit
  split
  · rfl
  · exact lastHandle_erase _ _

/-- It makes no difference whether a route is left out before a visit or after it. -/
theorem filter_routes_afterVisit (r : Router H) (g h : Handle) (v : Visit H σ) :
    (r.afterVisit g v).routes.filter (fun x => x.handle ≠ h) =
      (r.routes.filter fun x => x.handle ≠ h).filterMap (Roster.remains [(g, v)]) := by
  rw [routes_afterVisit, List.filter_filterMap, List.filterMap_filter]
  refine List.filterMap_congr fun x _ => ?_
  cases left : Roster.remains [(g, v)] x with
  | none => simp
  | some y => simp [Option.filter, (Roster.remains_same left).1]

theorem filter_routes_afterVisit_self (r : Router H) (h : Handle) (v : Visit H σ) :
    (r.afterVisit h v).routes.filter (fun x => x.handle ≠ h) =
      r.routes.filter fun x => x.handle ≠ h := by
  rw [filter_routes_afterVisit]
  refine (List.filterMap_congr fun x there => ?_).trans List.filterMap_some
  have other : h ≠ x.handle := Ne.symm (of_decide_eq_true (List.mem_filter.mp there).2)
  simp [Roster.remains, Assoc.get?, other]

theorem afterVisit_congr {v w : Visit H σ} (handler : v.handler = w.handler)
    (stays : v.stays = w.stays) : r.afterVisit g v = r.afterVisit g w := by
  rw [afterVisit, afterVisit, handler, stays]

/-- Visits one after another, with the route and without it. -/
theorem Beside.foldl_visit (apart : (Deed.op (Op.dispatch key deliver)).Apart h view)
    (handles : List Handle) (beside : Beside h view (r, s) (r', s')) (matched matched' : Bool)
    (seen : List Handle) :
    let out := handles.foldl (visit (recorded deliver)) (r, matched, s, seen)
    let out' := (handles.filter fun g => g ≠ h).foldl (visit (recorded deliver))
      (r', matched', s', seen.filter fun g => g ≠ h)
    Beside h view (out.1, out.2.2.1) (out'.1, out'.2.2.1) ∧
      out'.2.2.2 = out.2.2.2.filter fun g => g ≠ h := by
  induction handles generalizing r r' matched matched' s s' seen with
  | nil => exact ⟨beside, rfl⟩
  | cons g rest ih =>
    by_cases mine : g = h
    · -- only the first router visits the route, and the others do not see it
      subst mine
      rw [List.filter_cons_of_neg (by simp), List.foldl_cons]
      cases found : r.route? g with
      | none =>
        rw [visit_of_gone found]
        exact ih beside matched matched' seen
      | some x =>
        have left : Beside g view (r.afterVisit g (deliver g x.handler s),
            (deliver g x.handler s).state) (r', s') :=
          ⟨beside.routes.trans (filter_routes_afterVisit_self r g _).symm,
            beside.last.trans (lastHandle_afterVisit r g _).symm,
            beside.alike.trans (apart.1 x.handler s).symm⟩
        have onward := ih left true matched' (seen ++ [g])
        rw [List.filter_append, List.filter_cons_of_neg (by simp), List.filter_nil,
          List.append_nil] at onward
        rw [visit_of_route? found]
        exact onward
    · rw [List.filter_cons_of_pos (by simpa using mine), List.foldl_cons, List.foldl_cons]
      have there : r'.route? g = r.route? g := route?_of_filter beside.routes mine
      cases found : r.route? g with
      | none =>
        rw [visit_of_gone found, visit_of_gone (there.trans found)]
        exact ih beside matched matched' seen
      | some x =>
        obtain ⟨handler, stays, alike⟩ := apart.2 g x.handler s s' mine beside.alike
        have both : Beside h view
            (r.afterVisit g (deliver g x.handler s), (deliver g x.handler s).state)
            (r'.afterVisit g (deliver g x.handler s'), (deliver g x.handler s').state) := by
          refine ⟨?_, ?_, alike⟩
          · rw [afterVisit_congr handler stays, filter_routes_afterVisit, routes_afterVisit,
              beside.routes]
          · rw [lastHandle_afterVisit, lastHandle_afterVisit, beside.last]
        have onward := ih both true true (seen ++ [g])
        rw [List.filter_append, List.filter_cons_of_pos (by simpa using mine),
          List.filter_nil] at onward
        rw [visit_of_route? found, visit_of_route? (there.trans found)]
        exact onward

theorem Beside.dispatch (apart : (Deed.op (Op.dispatch key deliver)).Apart h view)
    (tidy : r.Tidy) (tidy' : r'.Tidy) (beside : Beside h view (r, s) (r', s')) :
    Beside h view ((r.dispatch key deliver s).1, (r.dispatch key deliver s).2.2)
        ((r'.dispatch key deliver s').1, (r'.dispatch key deliver s').2.2) ∧
      r'.visited key deliver s' = (r.visited key deliver s).filter fun g => g ≠ h := by
  have visits := beside.foldl_visit apart (r.matching key) false false []
  rw [List.filter_nil, ← matching_of_filter tidy tidy' beside.routes] at visits
  rw [← dispatch_recorded r, ← dispatch_recorded r']
  exact visits

theorem Beside.undergo {deed : Deed H σ} (apart : deed.Apart h view) (tidy : r.Tidy)
    (tidy' : r'.Tidy) (used : h ≤ r.lastHandle) (beside : Beside h view (r, s) (r', s')) :
    Beside h view (r.undergo s deed) (r'.undergo s' deed) ∧
      r'.delivered s' deed = (r.delivered s deed).filter fun g => g ≠ h := by
  cases deed with
  | everywhere change =>
    refine ⟨⟨?_, beside.last, beside.alike⟩, rfl⟩
    have routes : r'.routes = r.routes.filter fun x => x.handle ≠ h := beside.routes
    simp only [Router.undergo, routes_mapHandlers, routes, List.filter_map, Function.comp_def]
  | op op =>
    cases op with
    | add keys handler =>
      refine ⟨⟨?_, congrArg (· + 1) beside.last, beside.alike⟩, rfl⟩
      have new : r.lastHandle + 1 ≠ h := Nat.ne_of_gt (Nat.lt_succ_of_le used)
      have last : r'.lastHandle = r.lastHandle := beside.last
      have routes : r'.routes = r.routes.filter fun x => x.handle ≠ h := beside.routes
      simp only [Router.undergo, perform, routes_add, List.filter_append, routes, last]
      simp [new]
    | remove route =>
      refine ⟨⟨?_, ?_, beside.alike⟩, rfl⟩
      · have routes : r'.routes = r.routes.filter fun x => x.handle ≠ h := beside.routes
        show (r'.erase route).routes = (r.erase route).routes.filter _
        simp only [routes_erase, routes, List.filter_filter, Bool.and_comm]
      · show (r'.erase route).lastHandle = (r.erase route).lastHandle
        rw [lastHandle_erase, lastHandle_erase]
        exact beside.last
    | dispatch key deliver => exact beside.dispatch apart tidy tidy'
    | clear => exact ⟨⟨rfl, beside.last, beside.alike⟩, rfl⟩

theorem Beside.live {deeds : List (Deed H σ)} (apart : ∀ deed ∈ deeds, deed.Apart h view)
    (tidy : r.Tidy) (tidy' : r'.Tidy) (used : h ≤ r.lastHandle)
    (beside : Beside h view (r, s) (r', s')) :
    Beside h view (r.live s deeds) (r'.live s' deeds) ∧
      r'.deliveries s' deeds =
        (r.deliveries s deeds).map fun visited => visited.filter fun g => g ≠ h := by
  induction deeds generalizing r r' s s' with
  | nil => exact ⟨beside, rfl⟩
  | cons deed rest ih =>
    obtain ⟨beside, same⟩ := beside.undergo (apart deed List.mem_cons_self) tidy tidy' used
    have used' : h ≤ (r.undergo s deed).1.lastHandle := by
      rw [lastHandle_undergo]
      exact Nat.le_add_right_of_le used
    obtain ⟨beside, later⟩ := ih (fun deed there => apart deed (List.mem_cons_of_mem _ there))
      (tidy.undergo s deed) (tidy'.undergo s' deed) used' beside
    refine ⟨beside, ?_⟩
    rw [deliveries, deliveries, same, List.map_cons]
    exact congrArg (_ :: ·) later

end

/-- Whatever was done to a router before, a route that is added gets a handle above all that were
given out, the n-th one the number n. Removing it at once leaves everything else as it was. Removing
any route that is there leaves the other routes and the deliveries to them as they are without it,
whatever is done later. And a handle whose route was removed or cleared removes nothing any more,
however much was added since. -/
theorem handles_keep (s : σ) (before : List (Deed H σ)) :
    let r := ((empty : Router H).live s before).1
    let given := (empty : Router H).handed s before
    (given.Pairwise (· < ·) ∧ r.lastHandle = before.countP Deed.isAdd ∧
      ∀ h ∈ given, 1 ≤ h ∧ h ≤ before.countP Deed.isAdd) ∧
    (∀ keys handler,
      let (added, h) := r.add keys handler
      (∀ g ∈ given, g < h) ∧ added.remove h = ({ r with lastHandle := h }, some handler)) ∧
    (∀ x ∈ r.routes, x.handle ∈ given ∧
      let left := (r.remove x.handle).1
      (r.remove x.handle).2 = some x.handler ∧
        ∀ {υ τ : Type} (view : υ → τ) (later : List (Deed H υ)),
          (∀ deed ∈ later, deed.Apart x.handle view) → ∀ t t', view t' = view t →
            left.deliveries t' later = (r.deliveries t later).map
              (fun visited => visited.filter fun g => g ≠ x.handle) ∧
            (left.live t' later).1.routes =
              (r.live t later).1.routes.filter fun y => y.handle ≠ x.handle) ∧
    ∀ h ∈ given, ∀ {υ : Type} (deed : Deed H υ) (t : υ) (later : List (Deed H υ)),
      (deed = .op (.remove h) ∨ deed = .op .clear ∨ (r.undergo t deed).1.route? h = none) →
        let after := (r.live t (deed :: later)).1
        after.remove h = (after, none) := by
  intro r given
  have tidy : r.Tidy := tidy_empty.live s before
  have last : r.lastHandle = before.countP Deed.isAdd :=
    (lastHandle_live _ s before).trans (Nat.zero_add _)
  have numbers : given = List.range' 1 (before.countP Deed.isAdd) := handed_eq _ s before
  have mem_given : ∀ h, h ∈ given ↔ 1 ≤ h ∧ h ≤ before.countP Deed.isAdd := by
    intro h
    rw [numbers, List.mem_range'_1, Nat.lt_one_add_iff]
  refine ⟨⟨?_, last, fun h => (mem_given h).mp⟩, fun keys handler => ⟨fun g there => ?_,
    tidy.remove_add keys handler⟩, fun x there => ⟨?_, ?_, ?_⟩, ?_⟩
  · rw [numbers]
    exact List.pairwise_lt_range'
  · have bound := ((mem_given g).mp there).2
    rw [← last] at bound
    exact Nat.lt_succ_of_le bound
  · -- handle 0 is gone from the start
    have never := route?_eq_none_iff.mp (route?_live_of_gone (r := (empty : Router H)) (h := 0)
      (Nat.zero_le _) rfl s before) x there
    exact (mem_given x.handle).mpr ⟨Nat.pos_of_ne_zero never, last ▸ tidy.bounded x there⟩
  · rw [remove_snd, tidy.route?_eq_some_iff.mpr ⟨there, rfl⟩]
    rfl
  · intro υ τ view later apart t t' alike
    have beside : Beside x.handle view (r, t) (r.erase x.handle, t') :=
      ⟨routes_erase r x.handle, lastHandle_erase r x.handle, alike⟩
    have all := beside.live apart tidy (tidy.erase x.handle) (tidy.bounded x there)
    exact ⟨all.2, all.1.routes⟩
  · intro h there υ deed t later ends after
    refine remove_of_gone ?_
    have used : h ≤ r.lastHandle := last ▸ ((mem_given h).mp there).2
    have used' : h ≤ (r.undergo t deed).1.lastHandle := by
      rw [lastHandle_undergo]
      exact Nat.le_add_right_of_le used
    refine route?_live_of_gone used' ?_ _ later
    rcases ends with rfl | rfl | gone
    · exact route?_erase_self r h
    · rfl
    · exact gone

/-- A route that shares its key with another is removed, and so is, for a second time, one that was
removed before either of them was there. -/
theorem handles_keep_shared_key :
    let all : RouteKey := ⟨.message 50, none⟩
    let nine : RouteKey := ⟨.message 50, some ⟨9, by decide, by decide⟩⟩
    let deliver : Handle → Unit → Unit → Visit Unit Unit := fun _ handler s => ⟨handler, true, s⟩
    let add : List RouteKey → Deed Unit Unit := fun keys => .op (.add keys ())
    let before := [add [all, nine], .op (.remove 1), add [nine], add [nine, all, nine]]
    let later : List (Deed Unit Unit) := [add [nine], .op (.dispatch nine deliver)]
    let r := ((empty : Router Unit).live () before).1
    let after := (r.live () (.op .clear :: later)).1
    (∀ deed ∈ later, deed.Apart 3 id) ∧ (empty : Router Unit).handed () before = [1, 2, 3] ∧
      r.deliveries () later = [[], [3, 2, 4]] ∧
      (r.remove 3).1.deliveries () later = [[], [2, 4]] ∧ after.remove 1 = (after, none) := by
  intro all nine deliver add before later r after
  obtain ⟨-, -, without, gone⟩ := handles_keep (H := Unit) () before
  have given : (empty : Router Unit).handed () before = [1, 2, 3] := by decide
  have apart : ∀ deed ∈ later, deed.Apart 3 (id : Unit → Unit) := by
    intro deed there
    rcases List.mem_pair.mp there with rfl | rfl
    · trivial
    · exact ⟨fun _ _ => rfl, fun _ _ _ _ _ same => ⟨rfl, rfl, same⟩⟩
  have visited : r.deliveries () later = [[], [3, 2, 4]] := by decide
  have there : (⟨3, [nine, all, nine], ()⟩ : Route Unit) ∈ r.routes :=
    List.mem_cons_of_mem _ List.mem_cons_self
  have left := ((without _ there).2.2 id later apart () () rfl).1
  rw [show (_ : Router Unit).deliveries () later = [[], [3, 2, 4]] from visited] at left
  refine ⟨apart, given, visited, left, gone 1 ?_ _ () later (Or.inr (Or.inl rfl))⟩
  rw [given]
  exact List.mem_cons_self

end Router

end WampClient
