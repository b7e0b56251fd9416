import WampClient.Proofs.Route.Refinement

/-! How often a dispatch visits a route. The handles of a node's ids are listed once however often
the route has a key, and not again behind the general ones; the general ones are listed as often as
the route has the key without an id, and the route is visited as often unless it goes before. -/
namespace WampClient.Router

variable {H σ : Type} {r : Router H} {key : RouteKey} {g h : Handle} {x : Route H}
  {deliver : Handle → H → σ → Visit H σ} {handles seen : List Handle} {matched : Bool} {s : σ}

/-! ### The handles that are visited -/

/-- The same visits, with a record of their handles. -/
def recorded (deliver : Handle → H → σ → Visit H σ) (h : Handle) (handler : H)
    (acc : σ × List Handle) : Visit H (σ × List Handle) :=
  let v := deliver h handler acc.1
  ⟨v.handler, v.stays, v.state, acc.2 ++ [h]⟩

/-- The handles of the routes that a dispatch visits, in the order of the visits. -/
def visited (r : Router H) (key : RouteKey) (deliver : Handle → H → σ → Visit H σ) (s : σ) :
    List Handle := (r.dispatch key (recorded deliver) (s, [])).2.2.2

/-- The router after a visit. -/
def afterVisit (r : Router H) (h : Handle) (v : Visit H σ) : Router H :=
  if v.stays then r.replace h v.handler else (r.replace h v.handler).erase h

/-- The record of visiting these handles, behind those that were visited before. -/
def record (deliver : Handle → H → σ → Visit H σ) (handles : List Handle) (r : Router H)
    (matched : Bool) (s : σ) (seen : List Handle) : List Handle :=
  (handles.foldl (visit (recorded deliver)) (r, matched, s, seen)).2.2.2

theorem visited_eq (r : Router H) (key : RouteKey) (deliver : Handle → H → σ → Visit H σ) (s : σ) :
    r.visited key deliver s = record deliver (r.matching key) r false s [] := rfl

theorem visit_of_gone {τ : Type} {deliver : Handle → H → τ → Visit H τ} {t : τ}
    (gone : r.route? h = none) : visit deliver (r, matched, t) h = (r, matched, t) := by
  simp [visit, gone]

theorem record_cons_of_gone (gone : r.route? g = none) :
    record deliver (g :: handles) r matched s seen = record deliver handles r matched s seen := by
  rw [record, List.foldl_cons, visit_of_gone gone, record]

theorem record_cons_of_route? (found : r.route? g = some x) :
    let v := deliver g x.handler s
    record deliver (g :: handles) r matched s seen =
      record deliver handles (r.afterVisit g v) true v.state (seen ++ [g]) := by
  rw [record, List.foldl_cons, visit_of_route? found]
  rfl

/-- The record changes nothing of what the visits do. -/
theorem foldl_visit_recorded (handles : List Handle) (r : Router H) (matched : Bool) (s : σ)
    (seen : List Handle) :
    let out := handles.foldl (visit (recorded deliver)) (r, matched, s, seen)
    (out.1, out.2.1, out.2.2.1) = handles.foldl (visit deliver) (r, matched, s) := by
  induction handles generalizing r matched s seen with
  | nil => rfl
  | cons g rest ih =>
    rw [List.foldl_cons, List.foldl_cons]
    cases found : r.route? g with
    | none =>
      rw [visit_of_gone found, visit_of_gone found]
      exact ih r matched s seen
    | some x =>
      rw [visit_of_route? found, visit_of_route? found]
      exact ih _ _ _ _

theorem dispatch_recorded (r : Router H) (key : RouteKey)
    (deliver : Handle → H → σ → Visit H σ) (s : σ) :
    let out := r.dispatch key (recorded deliver) (s, [])
    (out.1, out.2.1, out.2.2.1) = r.dispatch key deliver s :=
  foldl_visit_recorded _ r false s []

/-! ### Routes between the visits -/

theorem route?_replace (r : Router H) (g h : Handle) (handler : H) :
    (r.replace g handler).route? h =
      (r.route? h).map fun x => if g = h then { x with handler } else x := by
  have kept : ((fun x : Route H => x.handle == h) ∘
      fun x : Route H => if x.handle = g then { x with handler } else x) =
        fun x => x.handle == h := by
    funext x
    by_cases same : x.handle = g <;> simp [same]
  rw [route?, routes_replace, List.find?_map, kept, ← route?]
  cases found : r.route? h with
  | none => rfl
  | some x =>
    have same := (mem_of_route? found).2
    simp only [Option.map_some, same, eq_comm]

theorem route?_erase_of_ne (r : Router H) (other : h ≠ g) :
    (r.erase g).route? h = r.route? h := by
  rw [route?, routes_erase, List.find?_filter, route?]
  congr 1
  funext x
  by_cases same : x.handle = h
  · simp [same, other]
  · simp [same]

theorem route?_erase_self (r : Router H) (h : Handle) : (r.erase h).route? h = none :=
  route?_eq_none_iff.mpr fun _ there => (mem_routes_erase.mp there).2

theorem route?_afterVisit_of_ne (v : Visit H σ) (other : h ≠ g) :
    (r.afterVisit g v).route? h = r.route? h := by
  have replaced : (r.replace g v.handler).route? h = r.route? h := by
    simp [route?_replace, Ne.symm other]
  rw [afterVisit]
  split
  · exact replaced
  · rw [route?_erase_of_ne _ other, replaced]

theorem route?_afterVisit_self (found : r.route? h = some x) (v : Visit H σ) :
    (r.afterVisit h v).route? h =
      if v.stays then some { x with handler := v.handler } else none := by
  rw [afterVisit]
  split
  · simp [route?_replace, found]
  · exact route?_erase_self _ h

/-! ### Counting visits -/

theorem count_snoc (seen : List Handle) (g h : Handle) :
    (seen ++ [g]).count h = seen.count h + if g = h then 1 else 0 := by
  simp [List.count_singleton]

/-- A route is visited at most as often as it is called. -/
theorem count_record_le (deliver : Handle → H → σ → Visit H σ) (handles : List Handle)
    (r : Router H) (matched : Bool) (s : σ) (seen : List Handle) (h : Handle) :
    (record deliver handles r matched s seen).count h ≤ seen.count h + handles.count h := by
  induction handles generalizing r matched s seen with
  | nil => exact Nat.le_refl _
  | cons g rest ih =>
    rw [List.count_cons]
    cases found : r.route? g with
    | none =>
      rw [record_cons_of_gone found]
      exact Nat.le_trans (ih r matched s seen) (by omega)
    | some x =>
      rw [record_cons_of_route? found]
      refine Nat.le_trans (ih _ _ _ _) ?_
      rw [count_snoc]
      by_cases same : g = h
      · simp only [same, ↓reduceIte, beq_self_eq_true]
        omega
      · simp [same]

/-- What was visited before stays in the record. -/
theorem le_count_record (deliver : Handle → H → σ → Visit H σ) (handles : List Handle)
    (r : Router H) (matched : Bool) (s : σ) (seen : List Handle) (h : Handle) :
    seen.count h ≤ (record deliver handles r matched s seen).count h := by
  induction handles generalizing r matched s seen with
  | nil => exact Nat.le_refl _
  | cons g rest ih =>
    cases found : r.route? g with
    | none =>
      rw [record_cons_of_gone found]
      exact ih r matched s seen
    | some x =>
      rw [record_cons_of_route? found]
      exact Nat.le_trans (by simp [List.count_append]) (ih _ _ _ (seen ++ [g]))

/-- A route that is gone is not visited. -/
theorem count_record_of_gone (handles : List Handle) (matched : Bool) (s : σ) (seen : List Handle)
    (gone : r.route? h = none) :
    (record deliver handles r matched s seen).count h = seen.count h := by
  induction handles generalizing r matched s seen with
  | nil => rfl
  | cons g rest ih =>
    cases found : r.route? g with
    | none =>
      rw [record_cons_of_gone found]
      exact ih _ _ _ gone
    | some x =>
      have other : h ≠ g := by
        rintro rfl
        exact nomatch gone.symm.trans found
      rw [record_cons_of_route? found, ih _ _ _ (by rwa [route?_afterVisit_of_ne _ other]),
        count_snoc, if_neg (Ne.symm other), Nat.add_zero]

/-- A route that stays whatever it is handed is visited each time that it is called. -/
theorem count_record_of_stays (stays : ∀ handler s, (deliver h handler s).stays = true)
    (handles : List Handle) (matched : Bool) (s : σ) (seen : List Handle)
    (live : (r.route? h).isSome) :
    (record deliver handles r matched s seen).count h = seen.count h + handles.count h := by
  induction handles generalizing r matched s seen with
  | nil => rfl
  | cons g rest ih =>
    rw [List.count_cons]
    cases found : r.route? g with
    | none =>
      have other : g ≠ h := by
        rintro rfl
        simp [found] at live
      rw [record_cons_of_gone found, ih _ _ _ live]
      simp [other]
    | some x =>
      have still : ((r.afterVisit g (deliver g x.handler s)).route? h).isSome := by
        by_cases same : g = h
        · subst same
          simp [route?_afterVisit_self found, stays]
        · rwa [route?_afterVisit_of_ne _ (Ne.symm same)]
      rw [record_cons_of_route? found, ih _ _ _ still, count_snoc]
      by_cases same : g = h
      · simp only [same, ↓reduceIte, beq_self_eq_true]
        omega
      · simp [same]

/-- A live route that is called is visited, and if it goes with its first visit, that is the only
one. -/
theorem one_le_count_record (deliver : Handle → H → σ → Visit H σ) (matched : Bool) (s : σ)
    (seen : List Handle) (found : r.route? h = some x) (called : h ∈ handles) :
    seen.count h + 1 ≤ (record deliver handles r matched s seen).count h ∧
      ((∀ s, (deliver h x.handler s).stays = false) →
        (record deliver handles r matched s seen).count h = seen.count h + 1) := by
  induction handles generalizing r matched s seen with
  | nil => exact absurd called List.not_mem_nil
  | cons g rest ih =>
    by_cases same : g = h
    · subst same
      rw [record_cons_of_route? found]
      have first : (seen ++ [g]).count g = seen.count g + 1 := by simp
      refine ⟨?_, fun leaves => ?_⟩
      · rw [← first]
        exact le_count_record _ _ _ _ _ _ _
      · rw [count_record_of_gone _ _ _ _ (by simp [route?_afterVisit_self found, leaves]), first]
    · have later : h ∈ rest := (List.mem_cons.mp called).resolve_left (Ne.symm same)
      cases other : r.route? g with
      | none =>
        rw [record_cons_of_gone other]
        exact ih _ _ _ found later
      | some y =>
        have kept : (r.afterVisit g (deliver g y.handler s)).route? h = some x := by
          rwa [route?_afterVisit_of_ne _ (Ne.symm same)]
        have rest := ih true (deliver g y.handler s).state (seen ++ [g]) kept later
        rw [count_snoc, if_neg same, Nat.add_zero] at rest
        rwa [record_cons_of_route? other]

/-! ### How often a route is called -/

theorem count_holders {routes : List (Route H)}
    (ordered : routes.Pairwise fun x y => x.handle < y.handle) (there : x ∈ routes)
    (key : RouteKey) :
    (routes.flatMap fun y => List.replicate (y.keys.count key) y.handle).count x.handle =
      x.keys.count key := by
  induction routes with
  | nil => exact absurd there List.not_mem_nil
  | cons y rest ih =>
    obtain ⟨least, ordered⟩ := List.pairwise_cons.mp ordered
    rw [List.flatMap_cons, List.count_append, List.count_replicate]
    rcases List.mem_cons.mp there with rfl | later
    · have none' : x.handle ∉ rest.flatMap fun y => List.replicate (y.keys.count key) y.handle := by
        intro listed
        obtain ⟨y, among, repeated⟩ := List.mem_flatMap.mp listed
        exact Nat.ne_of_lt (least y among) (List.eq_of_mem_replicate repeated)
      simp [List.count_eq_zero.mpr none']
    · have other := Nat.ne_of_lt (least x later)
      simp [other, ih ordered later]

/-- What is put behind the others unless it is among them comes once. -/
theorem count_foldl_includeHandle (handles acc : List Handle) (h : Handle) :
    (handles.foldl RouteNode.includeHandle acc).count h =
      max (acc.count h) (if h ∈ handles then 1 else 0) := by
  induction handles generalizing acc with
  | nil => simp
  | cons g rest ih =>
    have first : (RouteNode.includeHandle acc g).count h =
        max (acc.count h) (if g = h then 1 else 0) := by
      rw [RouteNode.includeHandle]
      by_cases same : g = h
      · subst same
        by_cases there : g ∈ acc
        · simp [there]
        · simp [there, List.count_eq_zero.mpr there]
      · split <;> simp [same]
    rw [List.foldl_cons, ih, first, Nat.max_assoc]
    congr 1
    by_cases same : g = h
    · subst same
      simp only [↓reduceIte, List.mem_cons, true_or]
      split <;> rfl
    · simp [same, Ne.symm same]

/-- A route is called as often as it has the key without an id, and if it only has the key of the
message, once. -/
theorem count_matching (tidy : r.Tidy) (there : x ∈ r.routes) (key : RouteKey) :
    (r.matching key).count x.handle =
      if x.takes key then max 1 (x.keys.count ⟨key.kind, none⟩) else 0 := by
  have general : (r.holders ⟨key.kind, none⟩).count x.handle = x.keys.count ⟨key.kind, none⟩ :=
    count_holders tidy.ordered there _
  by_cases takes : x.takes key = true
  · rw [if_pos takes, matching_eq, count_foldl_includeHandle, tidy.lists, tidy.lists, general]
    by_cases has : (⟨key.kind, none⟩ : RouteKey) ∈ x.keys
    · have counted : 1 ≤ x.keys.count ⟨key.kind, none⟩ := List.count_pos_iff.mpr has
      have once : ∀ (p : Prop) [Decidable p], (if p then 1 else 0) ≤ 1 := by
        intro p _
        split <;> decide
      rw [Nat.max_eq_left (Nat.le_trans (once _) counted), Nat.max_eq_right counted]
    · have own := ((x.takes_iff key).mp takes).resolve_left has
      have ided : key.id.isSome = true := by
        cases hid : key.id with
        | none => exact absurd (hid ▸ own : (⟨key.kind, none⟩ : RouteKey) ∈ x.keys) has
        | some i => rfl
      have listed : x.handle ∈ r.holders key := mem_holders.mpr ⟨x, there, rfl, own⟩
      simp [List.count_eq_zero.mpr has, ided, listed]
  · have uncalled : x.handle ∉ r.matching key := by
      intro called
      obtain ⟨y, among, same, takes'⟩ := tidy.mem_matching_iff.mp called
      exact takes (eq_of_handle_eq tidy.ordered among there same ▸ takes')
    rw [if_neg takes, List.count_eq_zero.mpr uncalled]

/-! ### Runs -/

theorem mem_visited_iff (tidy : r.Tidy) (key : RouteKey) (deliver : Handle → H → σ → Visit H σ)
    (s : σ) : h ∈ r.visited key deliver s ↔ ∃ x ∈ r.routes, x.handle = h ∧ x.takes key = true := by
  rw [← tidy.mem_matching_iff, visited_eq]
  constructor
  · intro seen
    have counted := count_record_le deliver (r.matching key) r false s [] h
    have positive := List.count_pos_iff.mpr seen
    exact List.count_pos_iff.mp (Nat.lt_of_lt_of_le positive (by simpa using counted))
  · intro called
    obtain ⟨x, there, same, -⟩ := tidy.mem_matching_iff.mp called
    have found := tidy.route?_eq_some_iff.mpr ⟨there, same⟩
    have positive := (one_le_count_record deliver false s [] found called).1
    exact List.count_pos_iff.mp (Nat.lt_of_lt_of_le (Nat.succ_pos _) positive)

/-- In a dispatch after any run, whatever keys the routes were added with, the routes are visited
that have a key which covers the message's, and each of them once, unless it has the key without an
id more than once. Then it is visited at most as often as it has that key: as often, if it stays
whatever it is handed, and once, if it goes with the first visit. Keeping a record of the visits
changes nothing of what the dispatch does. -/
theorem visits_of_each (s : σ) (ops : List (Op H σ)) {τ : Type} (key : RouteKey)
    (deliver : Handle → H → τ → Visit H τ) (t : τ) :
    let r := ((empty : Router H).run s ops).1
    let seen := r.visited key deliver t
    let general : Route H → Nat := fun x => x.keys.count ⟨key.kind, none⟩
    let out := r.dispatch key (recorded deliver) (t, [])
    ((out.1, out.2.1, out.2.2.1) = r.dispatch key deliver t ∧ out.2.2.2 = seen) ∧
    (∀ h, h ∈ seen ↔ ∃ x ∈ r.routes, x.handle = h ∧ ∃ own ∈ x.keys, own.covers key = true) ∧
    (∀ x ∈ r.routes, general x ≤ 1 → seen.count x.handle ≤ 1) ∧
    (∀ x ∈ r.routes, seen.count x.handle ≤ max 1 (general x)) ∧
    (∀ x ∈ r.routes, x.handle ∈ seen →
      (∀ handler u, (deliver x.handle handler u).stays = true) →
        seen.count x.handle = max 1 (general x)) ∧
    (∀ x ∈ r.routes, (∀ u, (deliver x.handle x.handler u).stays = false) →
      seen.count x.handle ≤ 1) := by
  intro r seen general out
  have tidy : r.Tidy := tidy_empty.run s ops
  have bounded : ∀ x ∈ r.routes, seen.count x.handle ≤ max 1 (general x) := by
    intro x there
    have called := count_record_le deliver (r.matching key) r false t [] x.handle
    rw [count_matching tidy there] at called
    refine Nat.le_trans called ?_
    split <;> simp [general]
  refine ⟨⟨dispatch_recorded r key deliver t, rfl⟩, fun h => ?_, fun x there few => ?_, bounded,
    fun x there among stays => ?_, fun x there leaves => ?_⟩
  · simp only [← List.any_eq_true]
    exact mem_visited_iff tidy key deliver t
  · exact Nat.le_trans (bounded x there) (by omega)
  · have live : (r.route? x.handle).isSome := by
      simp [tidy.route?_eq_some_iff.mpr ⟨there, rfl⟩]
    obtain ⟨y, there', same, takes⟩ := (mem_visited_iff tidy key deliver t).mp among
    obtain rfl := eq_of_handle_eq tidy.ordered there' there same
    have counted := count_record_of_stays stays (r.matching key) false t [] live
    rw [count_matching tidy there, if_pos takes, List.count_nil, Nat.zero_add] at counted
    exact counted
  · by_cases called : x.handle ∈ r.matching key
    · have found := tidy.route?_eq_some_iff.mpr ⟨there, rfl⟩
      exact Nat.le_of_eq ((one_le_count_record deliver false t [] found called).2 leaves)
    · have uncalled := count_record_le deliver (r.matching key) r false t [] x.handle
      rw [List.count_eq_zero.mpr called] at uncalled
      exact Nat.le_trans uncalled (by simp)

/-- Twice the same key without an id: the route is visited twice by one dispatch. The same key with
an id twice, also besides the one without, makes no difference. -/
theorem general_key_twice_visits_twice :
    let all : RouteKey := ⟨.message 50, none⟩
    let nine : RouteKey := ⟨.message 50, some ⟨9, by decide, by decide⟩⟩
    let deliver : Handle → Unit → Unit → Visit Unit Unit := fun _ handler s => ⟨handler, true, s⟩
    let seen (keys : List RouteKey) : List Handle :=
      ((empty : Router Unit).run () [.add keys ()]).1.visited nine deliver ()
    seen [all, all] = [1, 1] ∧ ¬ (∀ h, (seen [all, all]).count h ≤ 1) ∧
      seen [nine, nine] = [1] ∧ seen [nine, all, nine] = [1] := by
  intro all nine deliver seen
  refine ⟨by decide, fun once => absurd (once 1) (by decide), by decide, by decide⟩

end WampClient.Router
