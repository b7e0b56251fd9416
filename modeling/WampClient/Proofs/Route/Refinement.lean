import WampClient.Proofs.Route.Roster

/-! The indexed router refines the plain list of its routes. -/
namespace WampClient.Router

open Roster (visits remains finalState)

variable {H σ : Type}

def roster (r : Router H) : Roster H := ⟨r.lastHandle, r.routes⟩

/-- No route has a key without an id twice. -/
def Once (r : Router H) : Prop := ∀ x ∈ r.routes, (x.keys.filter fun key => key.id.isNone).Nodup

/-! ### Which handles match -/

theorem matching_eq (r : Router H) (key : RouteKey) :
    r.matching key =
      (if key.id.isSome then listed r.index key else []).foldl RouteNode.includeHandle
        (listed r.index ⟨key.kind, none⟩) := by
  obtain ⟨kind, id⟩ := key
  cases found : Assoc.get? kind r.index with
  | none => cases id <;> simp [matching, listed, found]
  | some n => cases id <;> simp [matching, listed, found, RouteNode.matching, RouteNode.bucket]

theorem mem_foldl_includeHandle {handles acc : List Handle} {h : Handle} :
    h ∈ handles.foldl RouteNode.includeHandle acc ↔ h ∈ acc ∨ h ∈ handles := by
  induction handles generalizing acc with
  | nil => simp
  | cons g rest ih =>
    rw [List.foldl_cons, ih, RouteNode.includeHandle]
    by_cases there : g ∈ acc
    · simp only [List.contains_iff_mem, there, ↓reduceIte, List.mem_cons]
      grind
    · simp [there, or_assoc]

/-- A handle is looked up under a key exactly if its route takes what comes in under the key. -/
theorem Tidy.mem_matching_iff {r : Router H} (tidy : r.Tidy) {key : RouteKey} {h : Handle} :
    h ∈ r.matching key ↔ ∃ x ∈ r.routes, x.handle = h ∧ x.takes key := by
  rw [matching_eq, mem_foldl_includeHandle, tidy.lists, mem_holders]
  simp only [Route.takes_iff]
  cases hid : key.id with
  | none =>
    have same : (⟨key.kind, none⟩ : RouteKey) = key := by rw [← hid]
    simp [same]
  | some i =>
    rw [Option.isSome_some, if_pos rfl, tidy.lists, mem_holders, ← exists_or]
    refine exists_congr fun x => ?_
    grind

theorem filter_foldl_includeHandle (handles acc : List Handle) (h : Handle) :
    (handles.foldl RouteNode.includeHandle acc).filter (fun g => g ≠ h) =
      (handles.filter fun g => g ≠ h).foldl RouteNode.includeHandle
        (acc.filter fun g => g ≠ h) := by
  induction handles generalizing acc with
  | nil => rfl
  | cons g rest ih =>
    have one : (RouteNode.includeHandle acc g).filter (fun k => k ≠ h) =
        if g = h then acc.filter (fun k => k ≠ h)
        else RouteNode.includeHandle (acc.filter fun k => k ≠ h) g := by
      by_cases same : g = h
      · subst same
        by_cases there : g ∈ acc <;> simp [RouteNode.includeHandle, there]
      · by_cases there : g ∈ acc <;> simp [RouteNode.includeHandle, there, same]
    rw [List.foldl_cons, ih, one]
    by_cases same : g = h <;> simp [same]

/-- A new route is looked up under what its keys take, and changes nothing for the others. -/
theorem Tidy.matching_add {r : Router H} (tidy : r.Tidy) (keys : List RouteKey) (handler : H)
    (key : RouteKey) :
    (r.lastHandle + 1 ∈ (r.add keys handler).1.matching key ↔
      (⟨r.lastHandle + 1, keys, handler⟩ : Route H).takes key = true) ∧
    ((r.add keys handler).1.matching key).filter (fun g => g ≠ r.lastHandle + 1) =
      r.matching key := by
  constructor
  · rw [(tidy.add keys handler).mem_matching_iff, routes_add]
    refine ⟨?_, fun takes => ⟨_, by simp, rfl, takes⟩⟩
    rintro ⟨x, there, new, takes⟩
    rcases List.mem_append.mp there with old | last
    · exact absurd (tidy.bounded x old) (by simp [new])
    · rwa [List.mem_singleton.mp last] at takes
  · have old : ∀ key, (listed (r.add keys handler).1.index key).filter
        (fun g => g ≠ r.lastHandle + 1) = listed r.index key := by
      intro key
      rw [(tidy.add keys handler).lists, holders_add, List.filter_append, tidy.lists]
      have before : (r.holders key).filter (fun g => g ≠ r.lastHandle + 1) = r.holders key := by
        refine List.filter_eq_self.mpr fun g there => ?_
        obtain ⟨x, among, rfl, -⟩ := mem_holders.mp there
        simpa using Nat.ne_of_lt (Nat.lt_succ_of_le (tidy.bounded x among))
      rw [before]
      simp
    rw [matching_eq, matching_eq, filter_foldl_includeHandle, old]
    split
    · rw [old]
    · rfl

theorem foldl_includeHandle_replicate (acc : List Handle) (n : Nat) (h : Handle) :
    (List.replicate n h).foldl RouteNode.includeHandle acc =
      if n = 0 then acc else RouteNode.includeHandle acc h := by
  have again : ∀ acc, RouteNode.includeHandle (RouteNode.includeHandle acc h) h =
      RouteNode.includeHandle acc h := by
    intro acc
    by_cases there : h ∈ acc <;> simp [RouteNode.includeHandle, there]
  induction n generalizing acc with
  | zero => rfl
  | succ n ih =>
    rw [List.replicate_succ, List.foldl_cons, ih]
    split <;> simp [again]

/-- Of the routes that have a key, those whose handles are not there yet come behind the others. -/
theorem foldl_includeHandle (routes : List (Route H)) (key : RouteKey) (acc : List Handle)
    (ordered : routes.Pairwise fun x y => x.handle < y.handle) :
    (routes.flatMap fun x => List.replicate (x.keys.count key) x.handle).foldl
        RouteNode.includeHandle acc =
      acc ++ (routes.filter fun x => key ∈ x.keys ∧ x.handle ∉ acc).map Route.handle := by
  induction routes generalizing acc with
  | nil => simp
  | cons x rest ih =>
    obtain ⟨least, ordered⟩ := List.pairwise_cons.mp ordered
    rw [List.flatMap_cons, List.foldl_append, foldl_includeHandle_replicate, ih _ ordered]
    by_cases has : key ∈ x.keys
    · have counted : x.keys.count key ≠ 0 := by simpa [List.count_eq_zero] using has
      by_cases there : x.handle ∈ acc
      · simp [counted, RouteNode.includeHandle, there]
      · have later : ∀ y ∈ rest, decide (key ∈ y.keys ∧ y.handle ∉ acc ++ [x.handle]) =
            decide (key ∈ y.keys ∧ y.handle ∉ acc) := by
          intro y hy
          have := Nat.ne_of_gt (least y hy)
          simp [this]
        simp only [counted, RouteNode.includeHandle, there, ↓reduceIte, List.contains_iff_mem,
          List.filter_congr later]
        simp [has, there]
    · have uncounted : x.keys.count key = 0 := List.count_eq_zero.mpr has
      simp [uncounted, has]

theorem holders_of_once {r : Router H} (once : r.Once) (kind : RouteKind) :
    r.holders ⟨kind, none⟩ =
      (r.routes.filter fun x => (⟨kind, none⟩ : RouteKey) ∈ x.keys).map Route.handle := by
  unfold holders
  revert once
  unfold Once
  induction r.routes with
  | nil => exact fun _ => rfl
  | cons x rest ih =>
    intro once
    rw [List.flatMap_cons, ih fun y hy => once y (List.mem_cons_of_mem _ hy)]
    have single : x.keys.count ⟨kind, none⟩ =
        if (⟨kind, none⟩ : RouteKey) ∈ x.keys then 1 else 0 := by
      have filtered := List.count_filter (p := fun key : RouteKey => key.id.isNone)
        (l := x.keys) (a := ⟨kind, none⟩) rfl
      rw [← filtered, (once x List.mem_cons_self).count]
      simp
    by_cases has : (⟨kind, none⟩ : RouteKey) ∈ x.keys <;> simp [single, has]

/-- The index finds the routes that the plain list finds, in the same order. -/
theorem matching_eq_audience {r : Router H} (tidy : r.Tidy) (once : r.Once) (key : RouteKey) :
    r.matching key = (r.roster.audience key).map Route.handle := by
  have general : ∀ x ∈ r.routes,
      decide ((⟨key.kind, none⟩ : RouteKey) ∈ x.keys) = x.takesAll key := by
    intro x _
    rw [Bool.eq_iff_iff, decide_eq_true_iff, Route.takesAll_iff]
  rw [matching_eq, tidy.lists, tidy.lists, holders_of_once once, List.filter_congr general,
    Roster.audience, List.map_append]
  cases hid : key.id with
  | none =>
    have same : (⟨key.kind, none⟩ : RouteKey) = key := by rw [← hid]
    have nothing : r.roster.routes.filter (fun x => x.takes key && !x.takesAll key) = [] := by
      refine List.filter_eq_nil_iff.mpr fun x _ => ?_
      have takes := x.takes_iff key
      have all := x.takesAll_iff key
      rw [same] at takes all
      simp_all
    rw [nothing]
    simp [roster]
  | some i =>
    rw [Option.isSome_some, if_pos rfl, holders, foldl_includeHandle _ _ _ tidy.ordered]
    congr 2
    refine List.filter_congr fun x hx => ?_
    have listed : x.handle ∈ (r.routes.filter fun x => x.takesAll key).map Route.handle ↔
        x.takesAll key = true := by
      constructor
      · intro h
        obtain ⟨y, hy, same⟩ := List.mem_map.mp h
        obtain ⟨hy, all⟩ := List.mem_filter.mp hy
        rwa [← eq_of_handle_eq tidy.ordered hy hx same]
      · exact fun all => List.mem_map_of_mem (List.mem_filter.mpr ⟨hx, all⟩)
    have takes := x.takes_iff key
    have all := x.takesAll_iff key
    rw [Bool.eq_iff_iff, decide_eq_true_iff, listed]
    simp only [Bool.and_eq_true, Bool.not_eq_true', takes, ← all]
    cases x.takesAll key <;> simp

theorem nodup_audience {r : Router H} (tidy : r.Tidy) (key : RouteKey) :
    ((r.roster.audience key).map Route.handle).Nodup := by
  have distinct : ((r.routes).map Route.handle).Nodup :=
    List.pairwise_map.mpr (tidy.ordered.imp Nat.ne_of_lt)
  rw [Roster.audience, List.map_append, List.nodup_append]
  refine ⟨distinct.sublist (List.filter_sublist.map _),
    distinct.sublist (List.filter_sublist.map _), fun g hg h hh same => ?_⟩
  obtain ⟨x, hx, rfl⟩ := List.mem_map.mp hg
  obtain ⟨y, hy, rfl⟩ := List.mem_map.mp hh
  obtain ⟨hx, all⟩ := List.mem_filter.mp hx
  obtain ⟨hy, other⟩ := List.mem_filter.mp hy
  have := eq_of_handle_eq tidy.ordered hx hy same
  simp_all

/-! ### What a dispatch does -/

theorem visit_of_route? {r : Router H} {h : Handle} {x : Route H} (found : r.route? h = some x)
    (deliver : Handle → H → σ → Visit H σ) (matched : Bool) (s : σ) :
    let v := deliver h x.handler s
    visit deliver (r, matched, s) h =
      (if v.stays then r.replace h v.handler else (r.replace h v.handler).erase h, true,
        v.state) := by
  simp [visit, found]

/-- One visit changes the routes as the plain list says. -/
theorem routes_visit (r : Router H) (h : Handle) (v : Visit H σ) :
    (if v.stays then r.replace h v.handler else (r.replace h v.handler).erase h).routes =
      r.routes.filterMap (remains [(h, v)]) := by
  by_cases stays : v.stays
  · rw [if_pos stays, routes_replace, ← List.filterMap_eq_map]
    congr 1
    funext x
    by_cases same : h = x.handle <;> simp [remains, Assoc.get?, stays, same, eq_comm]
  · rw [if_neg stays, routes_erase, routes_replace, List.filter_map, ← List.filterMap_eq_map,
      ← List.filterMap_eq_filter, List.filterMap_filterMap]
    congr 1
    funext x
    by_cases same : h = x.handle <;>
      simp [remains, Assoc.get?, stays, same, eq_comm, Option.guard]

theorem lastHandle_visit (r : Router H) (deliver : Handle → H → σ → Visit H σ) (matched : Bool)
    (s : σ) (h : Handle) : (visit deliver (r, matched, s) h).1.lastHandle = r.lastHandle := by
  simp only [visit]
  cases r.route? h with
  | none => rfl
  | some x =>
    dsimp only
    split
    · rfl
    · exact lastHandle_erase _ _

/-- Visits one after another, each of them to a route that is there. -/
theorem foldl_visit {r : Router H} (tidy : r.Tidy) (deliver : Handle → H → σ → Visit H σ)
    (called : List (Route H)) (live : ∀ x ∈ called, x ∈ r.routes)
    (distinct : (called.map Route.handle).Nodup) (matched : Bool) (s : σ) :
    let calls := visits deliver called s
    let after := (called.map Route.handle).foldl (visit deliver) (r, matched, s)
    after.1.routes = r.routes.filterMap (remains calls) ∧
      after.1.lastHandle = r.lastHandle ∧
      after.2 = (matched || !calls.isEmpty, finalState s calls) := by
  induction called generalizing r matched s with
  | nil => simp [visits, Roster.remains_nil, finalState]
  | cons x rest ih =>
    obtain ⟨once, distinct⟩ := List.nodup_cons.mp (List.map_cons ▸ distinct)
    have found : r.route? x.handle = some x :=
      tidy.route?_eq_some_iff.mpr ⟨live x List.mem_cons_self, rfl⟩
    have first := visit_of_route? found deliver matched s
    have tidy' := tidy.visit deliver matched s x.handle
    have last := lastHandle_visit r deliver matched s x.handle
    rw [first] at tidy' last
    have after := routes_visit r x.handle (deliver x.handle x.handler s)
    have live' : ∀ y ∈ rest, remains [(x.handle, deliver x.handle x.handler s)] y = some y := by
      intro y hy
      have other : x.handle ≠ y.handle := fun same => once (same ▸ List.mem_map_of_mem hy)
      simp [remains, Assoc.get?, other]
    obtain ⟨routes, handles, answer⟩ := ih tidy' (fun y hy => by
      rw [after]
      exact List.mem_filterMap.mpr ⟨y, live y (List.mem_cons_of_mem _ hy), live' y hy⟩)
      distinct true (deliver x.handle x.handler s).state
    simp only [List.map_cons, List.foldl_cons, first, visits]
    refine ⟨?_, handles.trans last, ?_⟩
    · rw [routes, after, List.filterMap_filterMap]
      congr 1
      funext y
      refine (Roster.remains_cons _ ?_ y).symm
      rwa [Roster.visits_handles]
    · simp [answer, finalState]

theorem dispatch_eq_roster {r : Router H} (tidy : r.Tidy) (once : r.Once) (key : RouteKey)
    (deliver : Handle → H → σ → Visit H σ) (s : σ) :
    ((r.dispatch key deliver s).1.roster, (r.dispatch key deliver s).2) =
      r.roster.dispatch key deliver s := by
  have live : ∀ x ∈ r.roster.audience key, x ∈ r.routes := fun x hx =>
    (Roster.mem_audience.mp hx).1
  obtain ⟨routes, handles, answer⟩ :=
    foldl_visit tidy deliver _ live (nodup_audience tidy key) false s
  rw [← matching_eq_audience tidy once] at routes handles answer
  simp only [dispatch, roster, Roster.dispatch, routes, handles, answer, Bool.false_or]

/-! ### Runs -/

/-- An operation that adds no route with the same key without an id twice. -/
def Op.Single : Op H σ → Prop
  | .add keys _ => (keys.filter fun key => key.id.isNone).Nodup
  | _ => True

theorem remove_snd (r : Router H) (h : Handle) :
    (r.remove h).2 = (r.route? h).map Route.handler := by
  unfold remove
  cases r.route? h <;> rfl

theorem Once.perform {r : Router H} (tidy : r.Tidy) (once : r.Once) (s : σ) {op : Op H σ}
    (single : op.Single) : (r.perform s op).1.Once := by
  intro x hx
  cases op with
  | add keys handler =>
    rcases List.mem_append.mp hx with hx | hx
    · exact once x hx
    · rw [List.mem_singleton.mp hx]
      exact single
  | remove route => exact once x (mem_routes_erase.mp hx).1
  | dispatch key deliver =>
    have same := congrArg (fun out => out.1.routes) (dispatch_eq_roster tidy once key deliver s)
    have hx : x ∈ (r.roster.dispatch key deliver s).1.routes := by
      rw [← same]
      exact hx
    obtain ⟨y, hy, left⟩ := List.mem_filterMap.mp hx
    rw [(Roster.remains_same left).2]
    exact once y hy
  | clear => exact absurd hx List.not_mem_nil

theorem perform_eq_roster {r : Router H} (tidy : r.Tidy) (once : r.Once) (s : σ) (op : Op H σ) :
    r.roster.perform s op = ((r.perform s op).1.roster, (r.perform s op).2) := by
  cases op with
  | add keys handler => rfl
  | remove route =>
    have routes := routes_erase r route
    have handles := lastHandle_erase r route
    rw [erase] at routes handles
    simp only [Roster.perform, perform, roster, routes, handles, remove_snd, route?]
  | dispatch key deliver =>
    simp only [Roster.perform, perform, ← dispatch_eq_roster tidy once key deliver s]
  | clear => rfl

theorem run_eq_roster {r : Router H} (tidy : r.Tidy) (once : r.Once) (s : σ) (ops : List (Op H σ))
    (single : ∀ op ∈ ops, op.Single) :
    (r.run s ops).1.Once ∧ r.roster.run s ops = ((r.run s ops).1.roster, (r.run s ops).2) := by
  induction ops generalizing r s with
  | nil => exact ⟨once, rfl⟩
  | cons op rest ih =>
    obtain ⟨first, later⟩ := List.forall_mem_cons.mp single
    obtain ⟨once', same⟩ :=
      ih (tidy.perform s op) (Once.perform tidy once s first) (r.perform s op).2.1 later
    refine ⟨once', ?_⟩
    simp only [Roster.run, run, perform_eq_roster tidy once, same]

/-- Any run of the indexed router is the run of the plain list, and each dispatch that follows it
visits exactly the live routes with a key that covers the message's, those with one that has no id
first and each group in the order of installation, each route once. It tells whether there was one;
afterwards the routes that were visited and do not stay are gone, and the others are as they were,
up to the handlers that the visits left. -/
theorem run_refines_roster (s : σ) (ops : List (Op H σ)) (single : ∀ op ∈ ops, op.Single)
    {τ : Type} (key : RouteKey) (deliver : Handle → H → τ → Visit H τ) (t : τ) :
    let r := ((empty : Router H).run s ops).1
    let called := r.routes.filter (fun x => x.takesAll key) ++
      r.routes.filter fun x => x.takes key && !x.takesAll key
    let calls := visits deliver called t
    Roster.empty.run s ops = (r.roster, ((empty : Router H).run s ops).2) ∧
    (∀ x, x ∈ called ↔ x ∈ r.routes ∧ ∃ own ∈ x.keys, own.covers key = true) ∧
    (called.map Route.handle).Nodup ∧
    (r.dispatch key deliver t).2 = (!called.isEmpty, finalState t calls) ∧
    (r.dispatch key deliver t).1.routes = r.routes.filterMap (remains calls) := by
  intro r called calls
  have once : (empty : Router H).Once := fun x hx => absurd hx List.not_mem_nil
  obtain ⟨once, same⟩ := run_eq_roster tidy_empty once s ops single
  have tidy : r.Tidy := tidy_empty.run s ops
  have dispatched := dispatch_eq_roster tidy once key deliver t
  have matched : calls.isEmpty = called.isEmpty := by
    have handles := congrArg List.isEmpty (Roster.visits_handles deliver called t)
    simpa using handles
  refine ⟨same, fun x => ?_, nodup_audience tidy key, ?_,
    congrArg (fun out => out.1.routes) dispatched⟩
  · rw [← List.any_eq_true]
    exact Roster.mem_audience (r := r.roster)
  · rw [← matched]
    exact congrArg Prod.snd dispatched

/-- A route with keys at both levels is visited with the general ones and once; the third route
was removed before, the second does not stay. -/
theorem run_refines_roster_both_levels :
    let nine : Id := ⟨9, by decide, by decide⟩
    let key : RouteKey := ⟨.message 50, some nine⟩
    let ops : List (Op Nat (List Nat)) :=
      [.add [key] 10, .add [key, ⟨.error 48, some nine⟩, ⟨.message 50, none⟩] 20,
        .add [⟨.message 50, none⟩] 30, .remove 3, .add [⟨.message 50, none⟩] 40]
    let deliver : Handle → Nat → List Nat → Visit Nat (List Nat) :=
      fun _ n seen => ⟨n, n ≠ 20, seen ++ [n]⟩
    let after := ((empty : Router Nat).run [] ops).1.dispatch key deliver []
    (∀ op ∈ ops, op.Single) ∧ after.2 = (true, [20, 40, 10]) ∧
      after.1.routes.map Route.handle = [1, 4] := by
  intro nine key ops deliver after
  have single : ∀ op ∈ ops, op.Single := by
    simp [ops, key, Op.Single]
  obtain ⟨-, -, -, answer, routes⟩ := run_refines_roster [] ops single key deliver []
  refine ⟨single, answer.trans (by decide), ?_⟩
  rw [routes]
  decide

end WampClient.Router
