import WampClient.Proofs.Route.Assoc

/-! The index of a router. `bucket` reads the handles that a node lists under an id or under none,
and `Index.listed` those that an index lists under a key. Indexing a key puts the handle behind the
others of that key; taking it out again removes it from that key only, whatever is pruned. -/
namespace WampClient

namespace RouteNode

/-- The handles listed under an id, or under none. -/
def bucket (n : RouteNode) : Option Id → List Handle
  | none => n.general
  | some i => (Assoc.get? i n.byId).getD []

/-- Each id stands in the node once, with some handle. -/
structure Tidy (n : RouteNode) : Prop where
  distinct : (n.byId.map Prod.fst).Nodup
  filled : ∀ e ∈ n.byId, e.2 ≠ []

@[simp] theorem bucket_empty (id : Option Id) : empty.bucket id = [] := by
  cases id <;> rfl

theorem tidy_empty : empty.Tidy := ⟨List.nodup_nil, by simp [empty]⟩

theorem bucket_add {n : RouteNode} (tidy : n.Tidy) (id other : Option Id) (h : Handle) :
    (n.add id h).bucket other =
      if other = id then n.bucket other ++ [h] else n.bucket other := by
  cases id with
  | none => cases other <;> simp [add, bucket]
  | some i =>
    cases other with
    | none => simp [add, bucket]
    | some j =>
      by_cases same : j = i
      · subst same
        simp [add, bucket, Assoc.get?_alter _ tidy.distinct]
      · simp [add, bucket, same, Assoc.get?_alter_of_ne _ _ same]

theorem Tidy.add {n : RouteNode} (tidy : n.Tidy) (id : Option Id) (h : Handle) :
    (n.add id h).Tidy := by
  cases id with
  | none => exact ⟨tidy.distinct, tidy.filled⟩
  | some i =>
    refine ⟨Assoc.nodup_alter i _ tidy.distinct, fun e he => ?_⟩
    rcases Assoc.mem_alter he with he | ⟨-, he⟩
    · exact tidy.filled e he
    · simp [← Option.some.inj he]

theorem without_eq (h : Handle) (handles : List Handle) :
    (without h handles).getD [] = handles.filter fun g => g ≠ h := by
  rw [without]
  split
  next void => exact (List.isEmpty_iff.mp void).symm
  next => rfl

theorem bucket_remove {n : RouteNode} (tidy : n.Tidy) (id other : Option Id) (h : Handle) :
    (n.remove id h).bucket other =
      if other = id then (n.bucket other).filter (fun g => g ≠ h) else n.bucket other := by
  cases id with
  | none => cases other <;> simp [remove, bucket]
  | some i =>
    cases other with
    | none => simp [remove, bucket]
    | some j =>
      by_cases same : j = i
      · subst same
        cases found : Assoc.get? j n.byId with
        | none => simp [remove, bucket, Assoc.get?_alter _ tidy.distinct, found]
        | some handles =>
          simp only [remove, bucket, Assoc.get?_alter _ tidy.distinct, found, ↓reduceIte]
          exact without_eq h handles
      · simp [remove, bucket, same, Assoc.get?_alter_of_ne _ _ same]

theorem Tidy.remove {n : RouteNode} (tidy : n.Tidy) (id : Option Id) (h : Handle) :
    (n.remove id h).Tidy := by
  cases id with
  | none => exact ⟨tidy.distinct, tidy.filled⟩
  | some i =>
    refine ⟨Assoc.nodup_alter i _ tidy.distinct, fun e he => ?_⟩
    rcases Assoc.mem_alter he with he | ⟨-, he⟩
    · exact tidy.filled e he
    · obtain ⟨handles, -, left⟩ := Option.bind_eq_some_iff.mp he
      rw [without] at left
      split at left
      next => simp at left
      next some' =>
        rw [← Option.some.inj left]
        exact fun void => some' (List.isEmpty_iff.mpr void)

/-- A node that is empty lists nothing, and the other way round. -/
theorem isEmpty_iff_bucket {n : RouteNode} (tidy : n.Tidy) :
    n.isEmpty = true ↔ ∀ id, n.bucket id = [] := by
  obtain ⟨general, byId⟩ := n
  constructor
  · intro void id
    simp only [isEmpty, Bool.and_eq_true, List.isEmpty_iff] at void
    obtain ⟨rfl, rfl⟩ := void
    exact bucket_empty id
  · intro void
    have none' : general = [] := void none
    cases byId with
    | nil => simp [isEmpty, none']
    | cons e rest =>
      have first := void (some e.1)
      simp [bucket, Assoc.get?] at first
      exact absurd first (tidy.filled e List.mem_cons_self)

theorem isEmpty_add {n : RouteNode} (tidy : n.Tidy) (id : Option Id) (h : Handle) :
    (n.add id h).isEmpty = false := by
  by_contra void
  have nothing := (isEmpty_iff_bucket (tidy.add id h)).mp (by simpa using void) id
  simp [bucket_add tidy] at nothing

end RouteNode

namespace Router

/-- The handles that an index lists under a key. -/
def listed (index : List (RouteKind × RouteNode)) (key : RouteKey) : List Handle :=
  ((Assoc.get? key.kind index).getD RouteNode.empty).bucket key.id

/-- Each kind stands in the index once, with a node that is not empty. -/
structure TidyIndex (index : List (RouteKind × RouteNode)) : Prop where
  distinct : (index.map Prod.fst).Nodup
  nodes : ∀ e ∈ index, e.2.Tidy
  filled : ∀ e ∈ index, e.2.isEmpty = false

theorem tidyIndex_nil : TidyIndex [] := ⟨List.nodup_nil, by simp, by simp⟩

theorem TidyIndex.node {index : List (RouteKind × RouteNode)} (tidy : TidyIndex index)
    (kind : RouteKind) : ((Assoc.get? kind index).getD RouteNode.empty).Tidy := by
  cases found : Assoc.get? kind index with
  | none => exact RouteNode.tidy_empty
  | some n => exact tidy.nodes (kind, n) (Assoc.mem_of_get? found)

theorem listed_of_kind_ne (key other : RouteKey) (f : Option RouteNode → Option RouteNode)
    (index : List (RouteKind × RouteNode)) (h : other.kind ≠ key.kind) :
    listed (Assoc.alter key.kind f index) other = listed index other := by
  rw [listed, listed, Assoc.get?_alter_of_ne _ _ h]

theorem listed_indexKey {index : List (RouteKind × RouteNode)} (tidy : TidyIndex index)
    (h : Handle) (key other : RouteKey) :
    listed (indexKey h index key) other =
      if other = key then listed index other ++ [h] else listed index other := by
  by_cases same : other.kind = key.kind
  · have node := tidy.node key.kind
    simp only [listed, indexKey, same, Assoc.get?_alter _ tidy.distinct, Option.getD_some,
      RouteNode.bucket_add node]
    have ids : other = key ↔ other.id = key.id := by
      cases other
      cases key
      simp_all
    simp only [ids]
  · have different : other ≠ key := fun e => same (e ▸ rfl)
    rw [indexKey, listed_of_kind_ne _ _ _ _ same, if_neg different]

theorem listed_unindexKey {index : List (RouteKind × RouteNode)} (tidy : TidyIndex index)
    (h : Handle) (key other : RouteKey) :
    listed (unindexKey h index key) other =
      if other = key then (listed index other).filter (fun g => g ≠ h)
      else listed index other := by
  by_cases same : other.kind = key.kind
  · have node := tidy.node key.kind
    have ids : other = key ↔ other.id = key.id := by
      cases other
      cases key
      simp_all
    simp only [listed, unindexKey, same, Assoc.get?_alter _ tidy.distinct, ids]
    cases found : Assoc.get? key.kind index with
    | none => simp
    | some n =>
      rw [found, Option.getD_some] at node
      rw [Option.bind_some, Option.getD_some, ← RouteNode.bucket_remove node]
      split
      next void =>
        rw [(RouteNode.isEmpty_iff_bucket (node.remove _ _)).mp void]
        exact RouteNode.bucket_empty _
      next => rfl
  · have different : other ≠ key := fun e => same (e ▸ rfl)
    rw [unindexKey, listed_of_kind_ne _ _ _ _ same, if_neg different]

theorem TidyIndex.indexKey {index : List (RouteKind × RouteNode)} (tidy : TidyIndex index)
    (h : Handle) (key : RouteKey) : TidyIndex (Router.indexKey h index key) where
  distinct := Assoc.nodup_alter _ _ tidy.distinct
  nodes e he := by
    rcases Assoc.mem_alter he with he | ⟨-, he⟩
    · exact tidy.nodes e he
    · rw [← Option.some.inj he]
      exact (tidy.node key.kind).add _ _
  filled e he := by
    rcases Assoc.mem_alter he with he | ⟨-, he⟩
    · exact tidy.filled e he
    · rw [← Option.some.inj he]
      exact RouteNode.isEmpty_add (tidy.node key.kind) _ _

theorem TidyIndex.unindexKey {index : List (RouteKind × RouteNode)} (tidy : TidyIndex index)
    (h : Handle) (key : RouteKey) : TidyIndex (Router.unindexKey h index key) := by
  have changed : ∀ e ∈ Router.unindexKey h index key,
      e ∈ index ∨ e.2.Tidy ∧ e.2.isEmpty = false := by
    intro e he
    rcases Assoc.mem_alter he with he | ⟨-, he⟩
    · exact Or.inl he
    · obtain ⟨n, found, left⟩ := Option.bind_eq_some_iff.mp he
      have node := (tidy.nodes _ (Assoc.mem_of_get? found)).remove key.id h
      dsimp only at left
      split at left
      next => simp at left
      next full =>
        rw [← Option.some.inj left]
        exact Or.inr ⟨node, by simpa using full⟩
  refine ⟨Assoc.nodup_alter _ _ tidy.distinct, fun e he => ?_, fun e he => ?_⟩
  · exact (changed e he).elim (tidy.nodes e) And.left
  · exact (changed e he).elim (tidy.filled e) And.right

theorem TidyIndex.foldl_indexKey {index : List (RouteKind × RouteNode)} (tidy : TidyIndex index)
    (h : Handle) (keys : List RouteKey) : TidyIndex (keys.foldl (Router.indexKey h) index) := by
  induction keys generalizing index with
  | nil => exact tidy
  | cons key rest ih => exact ih (tidy.indexKey h key)

theorem TidyIndex.foldl_unindexKey {index : List (RouteKind × RouteNode)} (tidy : TidyIndex index)
    (h : Handle) (keys : List RouteKey) : TidyIndex (keys.foldl (Router.unindexKey h) index) := by
  induction keys generalizing index with
  | nil => exact tidy
  | cons key rest ih => exact ih (tidy.unindexKey h key)

/-- Under each key the handle is listed as often as the key was given. -/
theorem listed_foldl_indexKey {index : List (RouteKind × RouteNode)} (tidy : TidyIndex index)
    (h : Handle) (keys : List RouteKey) (other : RouteKey) :
    listed (keys.foldl (Router.indexKey h) index) other =
      listed index other ++ List.replicate (keys.count other) h := by
  induction keys generalizing index with
  | nil => simp
  | cons key rest ih =>
    rw [List.foldl_cons, ih (tidy.indexKey h key), listed_indexKey tidy]
    by_cases same : other = key
    · simp [same, List.replicate_succ]
    · simp [same, List.count_cons_of_ne (Ne.symm same)]

/-- A key that was pruned on the way is not needed again: what it lists is gone either way. -/
theorem listed_foldl_unindexKey {index : List (RouteKind × RouteNode)} (tidy : TidyIndex index)
    (h : Handle) (keys : List RouteKey) (other : RouteKey) :
    listed (keys.foldl (Router.unindexKey h) index) other =
      if other ∈ keys then (listed index other).filter (fun g => g ≠ h)
      else listed index other := by
  induction keys generalizing index with
  | nil => simp
  | cons key rest ih =>
    rw [List.foldl_cons, ih (tidy.unindexKey h key), listed_unindexKey tidy]
    by_cases same : other = key
    · by_cases more : key ∈ rest <;> simp [same, more]
    · simp [same]

end Router

end WampClient
