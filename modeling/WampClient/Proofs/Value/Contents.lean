import WampClient.Value
import Mathlib.Data.List.Basic
import Mathlib.Data.String.Basic

/-! What is within a value, and what becomes of it when it is written and read again. Numbers that
can be held unsigned are; the entries of a dictionary come back in rising order of their keys, in
whatever order they were written. -/
namespace WampClient

/-! ### Dictionaries -/

namespace Dictionary

variable {d : Dictionary} {es fs : List (String × Value)} {key : String} {value : Value}

theorem mem_insert {e : String × Value} (there : e ∈ insert key value d) :
    e = (key, value) ∨ e ∈ d := by
  induction d with
  | nil => exact Or.inl (List.mem_singleton.mp there)
  | cons x rest ih =>
    rw [insert] at there
    split at there
    · exact List.mem_cons.mp there
    · split at there
      · exact (List.mem_cons.mp there).imp_right (List.mem_cons_of_mem x)
      · rcases List.mem_cons.mp there with rfl | there
        · exact Or.inr List.mem_cons_self
        · exact (ih there).imp_right (List.mem_cons_of_mem x)

theorem sorted_cons {e : String × Value} :
    Sorted (e :: d) ↔ (∀ x ∈ d, e.1 < x.1) ∧ Sorted d := by
  simp [Sorted, List.pairwise_map]

theorem sorted_insert (sorted : Sorted d) : Sorted (insert key value d) := by
  induction d with
  | nil => simp [insert, Sorted]
  | cons x rest ih =>
    obtain ⟨below, later⟩ := sorted_cons.mp sorted
    rw [insert]
    split
    next less =>
      refine sorted_cons.mpr ⟨fun y there => ?_, sorted⟩
      rcases List.mem_cons.mp there with rfl | there
      · exact less
      · exact lt_trans less (below y there)
    next notLess =>
      split
      next same => exact sorted_cons.mpr ⟨same ▸ below, later⟩
      next other =>
        refine sorted_cons.mpr ⟨fun y there => ?_, ih later⟩
        rcases mem_insert there with rfl | there
        · exact lt_of_le_of_ne (not_lt.mp notLess) (Ne.symm other)
        · exact below y there

theorem perm_insert (unknown : key ∉ d.map Prod.fst) :
    (insert key value d).Perm ((key, value) :: d) := by
  induction d with
  | nil => exact .refl _
  | cons x rest ih =>
    have other : key ≠ x.1 := fun same => unknown (same ▸ List.mem_cons_self)
    have later : key ∉ rest.map Prod.fst := fun there => unknown (List.mem_cons_of_mem _ there)
    rw [insert]
    split
    · exact .refl _
    · exact ((ih later).cons x).trans (.swap _ _ _)

theorem sorted_foldl_insert (sorted : Sorted d) :
    Sorted (es.foldl (fun d e => insert e.1 e.2 d) d) := by
  induction es generalizing d with
  | nil => exact sorted
  | cons e rest ih => exact ih (sorted_insert sorted)

theorem perm_foldl_insert (distinct : ((d ++ es).map Prod.fst).Nodup) :
    (es.foldl (fun d e => insert e.1 e.2 d) d).Perm (d ++ es) := by
  induction es generalizing d with
  | nil =>
    rw [List.append_nil]
    exact .refl _
  | cons e rest ih =>
    have moved : (d ++ e :: rest).Perm (e :: d ++ rest) := List.perm_middle
    have distinct' : ((e :: d ++ rest).map Prod.fst).Nodup :=
      (moved.map Prod.fst).nodup_iff.mp distinct
    have unknown : e.1 ∉ d.map Prod.fst := by
      simp only [List.cons_append, List.map_cons, List.map_append, List.nodup_cons,
        List.mem_append, not_or] at distinct'
      exact distinct'.1.1
    have placed : (insert e.1 e.2 d ++ rest).Perm (e :: d ++ rest) :=
      (perm_insert unknown).append_right rest
    exact (ih ((placed.map Prod.fst).nodup_iff.mpr distinct')).trans (placed.trans moved.symm)

theorem eq_of_perm_of_sorted {a b : Dictionary} (perm : a.Perm b) (first : Sorted a)
    (second : Sorted b) : a = b :=
  perm.eq_of_pairwise (fun _ _ _ _ less more => absurd (lt_trans less more) (lt_irrefl _))
    (List.pairwise_map.mp first) (List.pairwise_map.mp second)

theorem Sorted.nodup (sorted : Sorted d) : (d.map Prod.fst).Nodup :=
  List.Pairwise.imp ne_of_lt sorted

/-- In whatever order the entries of a dictionary come, they are put into the one order. -/
theorem ofList_of_perm (perm : es.Perm fs) (distinct : (es.map Prod.fst).Nodup) :
    ofList es = ofList fs := by
  have first : (ofList es).Perm es := perm_foldl_insert (d := []) distinct
  have second : (ofList fs).Perm fs :=
    perm_foldl_insert (d := []) ((perm.map Prod.fst).nodup_iff.mp distinct)
  exact eq_of_perm_of_sorted (first.trans (perm.trans second.symm))
    (sorted_foldl_insert .nil) (sorted_foldl_insert .nil)

theorem ofList_of_sorted (sorted : Sorted es) : ofList es = es :=
  eq_of_perm_of_sorted (perm_foldl_insert (d := []) sorted.nodup) (sorted_foldl_insert .nil) sorted

end Dictionary

namespace Value

theorem ofInt64_of_nonneg {i : Int64} (positive : 0 ≤ i.toInt) :
    ofInt64 i = .unsigned (UInt64.ofNat i.toInt.toNat) := by
  have positive' : 0 ≤ i := Int64.le_iff_toInt_le.mpr positive
  have fits : i.toInt.toNat < 0x10000000000000000 := by
    have bound := i.toInt_lt
    omega
  have same : i.toUInt64 = UInt64.ofNat i.toInt.toNat := by
    apply UInt64.toNat_inj.mp
    rw [Int64.toNat_toUInt64_of_le positive', UInt64.toNat_ofNat_of_lt' fits]
    rfl
  rw [ofInt64, if_pos positive', same]

theorem ofInt64_of_negative {i : Int64} (negative : i.toInt < 0) : ofInt64 i = .signed i := by
  rw [ofInt64, if_neg]
  exact Int64.not_le.mpr (Int64.lt_iff_toInt_lt.mpr negative)

/-! ### Within a value -/

def isScalar : Value → Bool
  | .list _ => false
  | .dictionary _ => false
  | _ => true

/-- The property holds of the value and of everything within it. -/
inductive Everywhere (p : Value → Prop) : Value → Prop where
  | scalar {v : Value} (scalar : v.isScalar = true) (own : p v) : Everywhere p v
  | list {items : List Value} (own : p (.list items)) (inner : ∀ v ∈ items, Everywhere p v) :
      Everywhere p (.list items)
  | dictionary {entries : Dictionary} (own : p (.dictionary entries))
      (inner : ∀ e ∈ entries, Everywhere p e.2) : Everywhere p (.dictionary entries)

mutual

/-- Whether a test is passed by the value and by everything within it. -/
def passes (p : Value → Bool) : Value → Bool
  | .list items => p (.list items) && passesItems p items
  | .dictionary entries => p (.dictionary entries) && passesEntries p entries
  | v => p v

def passesItems (p : Value → Bool) : List Value → Bool
  | [] => true
  | v :: rest => passes p v && passesItems p rest

def passesEntries (p : Value → Bool) : List (String × Value) → Bool
  | [] => true
  | (_, v) :: rest => passes p v && passesEntries p rest

end

mutual

/-- How often lists and dictionaries stand within each other. -/
def depth : Value → Nat
  | .list items => depthItems items + 1
  | .dictionary entries => depthEntries entries + 1
  | _ => 0

def depthItems : List Value → Nat
  | [] => 0
  | v :: rest => max (depth v) (depthItems rest)

def depthEntries : List (String × Value) → Nat
  | [] => 0
  | (_, v) :: rest => max (depth v) (depthEntries rest)

end

mutual

/-- The value with every number within it made anew. -/
def rewrapAll : Value → Value
  | .list items => .list (rewrapItems items)
  | .dictionary entries => .dictionary (rewrapEntries entries)
  | v => v.rewrap

def rewrapItems : List Value → List Value
  | [] => []
  | v :: rest => rewrapAll v :: rewrapItems rest

def rewrapEntries : List (String × Value) → List (String × Value)
  | [] => []
  | (k, v) :: rest => (k, rewrapAll v) :: rewrapEntries rest

end

mutual

/-- What is read where the value was written: its numbers are made anew, and its dictionaries from
their entries. -/
def reread : Value → Value
  | .list items => .list (rereadItems items)
  | .dictionary entries => .dictionary (Dictionary.ofList (rereadEntries entries))
  | v => v.rewrap

def rereadItems : List Value → List Value
  | [] => []
  | v :: rest => reread v :: rereadItems rest

def rereadEntries : List (String × Value) → List (String × Value)
  | [] => []
  | (k, v) :: rest => (k, reread v) :: rereadEntries rest

end

/-- The entries of a dictionary, the value's own or one within it, are put into another order. -/
inductive Reorders : Value → Value → Prop where
  | refl (v : Value) : Reorders v v
  | trans {u v w : Value} (first : Reorders u v) (second : Reorders v w) : Reorders u w
  | entries {es fs : Dictionary} (perm : es.Perm fs) : Reorders (.dictionary es) (.dictionary fs)
  | item (before after : List Value) {v w : Value} (inner : Reorders v w) :
      Reorders (.list (before ++ v :: after)) (.list (before ++ w :: after))
  | entry (before after : Dictionary) (key : String) {v w : Value} (inner : Reorders v w) :
      Reorders (.dictionary (before ++ (key, v) :: after))
        (.dictionary (before ++ (key, w) :: after))

variable {v w : Value} {items : List Value} {entries : Dictionary} {p : Value → Prop} {n : Nat}

theorem everywhere_list :
    Everywhere p (.list items) ↔ p (.list items) ∧ ∀ v ∈ items, Everywhere p v := by
  constructor
  · rintro (⟨scalar, -⟩ | ⟨own, inner⟩ | -)
    · exact nomatch scalar
    · exact ⟨own, inner⟩
  · rintro ⟨own, inner⟩
    exact .list own inner

theorem everywhere_dictionary :
    Everywhere p (.dictionary entries) ↔
      p (.dictionary entries) ∧ ∀ e ∈ entries, Everywhere p e.2 := by
  constructor
  · rintro (⟨scalar, -⟩ | - | ⟨own, inner⟩)
    · exact nomatch scalar
    · exact ⟨own, inner⟩
  · rintro ⟨own, inner⟩
    exact .dictionary own inner

theorem everywhere_scalar (scalar : v.isScalar = true) : Everywhere p v ↔ p v := by
  constructor
  · rintro (⟨-, own⟩ | - | -)
    · exact own
    · exact nomatch scalar
    · exact nomatch scalar
  · exact Everywhere.scalar scalar

theorem Everywhere.own (every : v.Everywhere p) : p v := by
  cases every <;> assumption

theorem depthItems_le : depthItems items ≤ n ↔ ∀ v ∈ items, v.depth ≤ n := by
  induction items with
  | nil => simp [depthItems]
  | cons v rest ih => simp [depthItems, ih]

theorem depthEntries_le : depthEntries entries ≤ n ↔ ∀ e ∈ entries, e.2.depth ≤ n := by
  induction entries with
  | nil => simp [depthEntries]
  | cons e rest ih => simp [depthEntries, ih]

theorem depth_list_le :
    (Value.list items).depth ≤ n ↔ ∃ m, n = m + 1 ∧ ∀ v ∈ items, v.depth ≤ m := by
  cases n with
  | zero => simp [depth]
  | succ m => simp [depth, depthItems_le]

theorem depth_dictionary_le :
    (Value.dictionary entries).depth ≤ n ↔ ∃ m, n = m + 1 ∧ ∀ e ∈ entries, e.2.depth ≤ m := by
  cases n with
  | zero => simp [depth]
  | succ m => simp [depth, depthEntries_le]

theorem rewrapItems_eq (items : List Value) : rewrapItems items = items.map rewrapAll := by
  induction items with
  | nil => rfl
  | cons v rest ih => rw [rewrapItems, ih, List.map_cons]

theorem rewrapEntries_eq (entries : Dictionary) :
    rewrapEntries entries = entries.map fun e => (e.1, e.2.rewrapAll) := by
  induction entries with
  | nil => rfl
  | cons e rest ih => rw [rewrapEntries, ih, List.map_cons]

theorem rereadItems_eq (items : List Value) : rereadItems items = items.map reread := by
  induction items with
  | nil => rfl
  | cons v rest ih => rw [rereadItems, ih, List.map_cons]

theorem rereadEntries_eq (entries : Dictionary) :
    rereadEntries entries = entries.map fun e => (e.1, e.2.reread) := by
  induction entries with
  | nil => rfl
  | cons e rest ih => rw [rereadEntries, ih, List.map_cons]

theorem keys_rereadEntries (entries : Dictionary) :
    (rereadEntries entries).map Prod.fst = entries.map Prod.fst := by
  simp [rereadEntries_eq]

/-- What holds of scalars, and of lists and dictionaries where it holds within them, holds of every
value. -/
theorem induct {motive : Value → Prop} (scalar : ∀ v : Value, v.isScalar = true → motive v)
    (list : ∀ items, (∀ v ∈ items, motive v) → motive (.list items))
    (dictionary : ∀ entries : Dictionary, (∀ e ∈ entries, motive e.2) →
      motive (.dictionary entries)) (v : Value) : motive v := by
  refine @Value.rec motive (fun items => ∀ v ∈ items, motive v)
    (fun entries => ∀ e ∈ entries, motive e.2) (fun e => motive e.2)
    (fun _ => scalar _ rfl) (fun _ => scalar _ rfl) (fun _ => scalar _ rfl) (fun _ => scalar _ rfl)
    (fun _ => scalar _ rfl) list dictionary (scalar _ rfl) (by simp) ?_ (by simp) ?_ ?_ v
  · intro v rest first later w there
    exact (List.mem_cons.mp there).elim (fun same => same ▸ first) (later w)
  · intro e rest first later x there
    exact (List.mem_cons.mp there).elim (fun same => same ▸ first) (later x)
  · intro key v own
    exact own

theorem passesItems_iff {q : Value → Bool} :
    passesItems q items = true ↔ ∀ v ∈ items, v.passes q = true := by
  induction items with
  | nil => simp [passesItems]
  | cons v rest ih => simp [passesItems, ih]

theorem passesEntries_iff {q : Value → Bool} :
    passesEntries q entries = true ↔ ∀ e ∈ entries, e.2.passes q = true := by
  induction entries with
  | nil => simp [passesEntries]
  | cons e rest ih => simp [passesEntries, ih]

theorem passes_iff [DecidablePred p] (v : Value) :
    v.passes (fun v => decide (p v)) = true ↔ v.Everywhere p := by
  induction v using induct with
  | scalar v scalar =>
    rw [everywhere_scalar scalar]
    cases v <;> first | exact decide_eq_true_iff | exact nomatch scalar
  | list items ih =>
    rw [passes, Bool.and_eq_true, decide_eq_true_iff, passesItems_iff, everywhere_list]
    exact and_congr_right fun _ => forall₂_congr ih
  | dictionary entries ih =>
    rw [passes, Bool.and_eq_true, decide_eq_true_iff, passesEntries_iff, everywhere_dictionary]
    exact and_congr_right fun _ => forall₂_congr ih

instance [DecidablePred p] : DecidablePred (Everywhere p) :=
  fun v => decidable_of_iff _ (passes_iff v)

theorem rewrapAll_of_scalar (scalar : v.isScalar = true) : v.rewrapAll = v.rewrap := by
  cases v <;> first | rfl | exact nomatch scalar

theorem reread_of_scalar (scalar : v.isScalar = true) : v.reread = v.rewrap := by
  cases v <;> first | rfl | exact nomatch scalar

/-! ### Order -/

theorem canonicalItems_iff : CanonicalItems items ↔ ∀ v ∈ items, v.Canonical := by
  induction items with
  | nil => simp [CanonicalItems]
  | cons v rest ih => simp [CanonicalItems, ih]

theorem canonicalEntries_iff : CanonicalEntries entries ↔ ∀ e ∈ entries, e.2.Canonical := by
  induction entries with
  | nil => simp [CanonicalEntries]
  | cons e rest ih => simp [CanonicalEntries, ih]

/-- A dictionary has no key twice. -/
def OnceEach : Value → Prop
  | .dictionary entries => (entries.map Prod.fst).Nodup
  | _ => True

/-- No dictionary within the value has a key twice. -/
abbrev Distinct : Value → Prop := Everywhere OnceEach

theorem distinct_of_canonical (v : Value) (canonical : v.Canonical) : v.Distinct := by
  induction v using induct with
  | scalar v scalar =>
    refine .scalar scalar ?_
    cases v <;> trivial
  | list items ih =>
    have inner := canonicalItems_iff.mp canonical
    exact .list trivial fun v there => ih v there (inner v there)
  | dictionary entries ih =>
    obtain ⟨sorted, canonical⟩ : Dictionary.Sorted entries ∧ CanonicalEntries entries := canonical
    have inner := canonicalEntries_iff.mp canonical
    exact .dictionary sorted.nodup fun e there => ih e there (inner e there)

/-- Where dictionaries are in order, reading makes numbers anew and does nothing else. -/
theorem reread_of_canonical (v : Value) (canonical : v.Canonical) : v.reread = v.rewrapAll := by
  induction v using induct with
  | scalar v scalar => rw [reread_of_scalar scalar, rewrapAll_of_scalar scalar]
  | list items ih =>
    have inner := canonicalItems_iff.mp canonical
    have same : items.map reread = items.map rewrapAll :=
      List.map_congr_left fun v there => ih v there (inner v there)
    rw [reread, rewrapAll, rereadItems_eq, rewrapItems_eq, same]
  | dictionary entries ih =>
    obtain ⟨sorted, canonical⟩ : Dictionary.Sorted entries ∧ CanonicalEntries entries := canonical
    have inner := canonicalEntries_iff.mp canonical
    have ordered : Dictionary.Sorted (rereadEntries entries) := by
      rwa [Dictionary.Sorted, keys_rereadEntries]
    have same : rereadEntries entries = rewrapEntries entries := by
      rw [rereadEntries_eq, rewrapEntries_eq]
      exact List.map_congr_left fun e there => by rw [ih e there (inner e there)]
    rw [reread, rewrapAll, Dictionary.ofList_of_sorted ordered, same]

/-- A list stays one, whatever order its dictionaries are put into. -/
theorem Reorders.list_of_list (reorders : v.Reorders w) {items : List Value}
    (listed : v = .list items) : ∃ moved, w = .list moved := by
  induction reorders generalizing items with
  | refl v => exact ⟨items, listed⟩
  | trans first second ih ih' =>
    obtain ⟨between, listed'⟩ := ih listed
    exact ih' listed'
  | entries perm => exact nomatch listed
  | item before after inner ih => exact ⟨_, rfl⟩
  | entry before after key inner ih => exact nomatch listed

theorem Reorders.onceEach (reorders : v.Reorders w) (own : v.OnceEach) : w.OnceEach := by
  induction reorders with
  | refl v => exact own
  | trans first second ih ih' => exact ih' (ih own)
  | entries perm => exact (perm.map Prod.fst).nodup_iff.mp own
  | item before after inner ih => trivial
  | entry before after key inner ih => simpa [OnceEach] using own

/-- A property that does not depend on order holds everywhere within, in whatever order. -/
theorem Reorders.everywhere (reorders : v.Reorders w)
    (alike : ∀ {a b : Value}, a.Reorders b → p a → p b) (every : v.Everywhere p) :
    w.Everywhere p := by
  induction reorders with
  | refl v => exact every
  | trans first second ih ih' => exact ih' (ih every)
  | entries perm =>
    obtain ⟨own, inner⟩ := everywhere_dictionary.mp every
    exact .dictionary (alike (.entries perm) own) fun e there => inner e (perm.mem_iff.mpr there)
  | item before after within ih =>
    obtain ⟨own, inner⟩ := everywhere_list.mp every
    refine .list (alike (.item before after within) own) ?_
    simp only [List.forall_mem_append, List.forall_mem_cons] at inner ⊢
    exact ⟨inner.1, ih inner.2.1, inner.2.2⟩
  | entry before after key within ih =>
    obtain ⟨own, inner⟩ := everywhere_dictionary.mp every
    refine .dictionary (alike (.entry before after key within) own) ?_
    simp only [List.forall_mem_append, List.forall_mem_cons] at inner ⊢
    exact ⟨inner.1, ih inner.2.1, inner.2.2⟩

theorem Reorders.depth_le (reorders : v.Reorders w) (nests : v.depth ≤ n) : w.depth ≤ n := by
  induction reorders generalizing n with
  | refl v => exact nests
  | trans first second ih ih' => exact ih' (ih nests)
  | entries perm =>
    obtain ⟨m, rfl, inner⟩ := depth_dictionary_le.mp nests
    exact depth_dictionary_le.mpr ⟨m, rfl, fun e there => inner e (perm.mem_iff.mpr there)⟩
  | item before after within ih =>
    obtain ⟨m, rfl, inner⟩ := depth_list_le.mp nests
    refine depth_list_le.mpr ⟨m, rfl, ?_⟩
    simp only [List.forall_mem_append, List.forall_mem_cons] at inner ⊢
    exact ⟨inner.1, ih inner.2.1, inner.2.2⟩
  | entry before after key within ih =>
    obtain ⟨m, rfl, inner⟩ := depth_dictionary_le.mp nests
    refine depth_dictionary_le.mpr ⟨m, rfl, ?_⟩
    simp only [List.forall_mem_append, List.forall_mem_cons] at inner ⊢
    exact ⟨inner.1, ih inner.2.1, inner.2.2⟩

theorem Reorders.reread_eq (reorders : v.Reorders w) (distinct : v.Distinct) :
    w.reread = v.reread := by
  induction reorders with
  | refl v => rfl
  | trans first second ih ih' =>
    rw [ih' (first.everywhere Reorders.onceEach distinct), ih distinct]
  | @entries es fs perm =>
    have keys : ((rereadEntries es).map Prod.fst).Nodup := by
      rw [keys_rereadEntries]
      exact distinct.own
    have same : (rereadEntries es).Perm (rereadEntries fs) := by
      rw [rereadEntries_eq, rereadEntries_eq]
      exact perm.map _
    rw [reread, reread, Dictionary.ofList_of_perm same keys]
  | @item before after v w within ih =>
    obtain ⟨-, inner⟩ := everywhere_list.mp distinct
    have same := ih (inner v (by simp))
    simp only [reread, rereadItems_eq, List.map_append, List.map_cons, same]
  | @entry before after key v w within ih =>
    obtain ⟨-, inner⟩ := everywhere_dictionary.mp distinct
    have same := ih (inner (key, v) (by simp))
    simp only [reread, rereadEntries_eq, List.map_append, List.map_cons, same]

/-- However the entries of its dictionaries are ordered when a value is written, it is read with its
numbers made anew and not changed in any other way. -/
theorem Reorders.reread_rewrapAll (reorders : v.Reorders w) (canonical : v.Canonical) :
    w.reread = v.rewrapAll := by
  rw [reorders.reread_eq (distinct_of_canonical v canonical), reread_of_canonical v canonical]

end Value

end WampClient
