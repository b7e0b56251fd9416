import WampClient.Route.Router
import Mathlib.Data.List.Nodup

/-! Association lists read through `get?`. A key that occurs once is changed by `alter` and taken
out by `erase`; every other key keeps its value. -/
namespace WampClient.Assoc

variable {κ α : Type} [DecidableEq κ]

theorem mem_of_get? {key : κ} {a : α} {entries : List (κ × α)} (h : get? key entries = some a) :
    (key, a) ∈ entries := by
  induction entries with
  | nil => simp [get?] at h
  | cons e rest ih =>
    obtain ⟨k, b⟩ := e
    by_cases same : k = key
    · simp_all [get?]
    · exact List.mem_cons_of_mem _ (ih (by simpa [get?, same] using h))

theorem get?_eq_none_iff {key : κ} {entries : List (κ × α)} :
    get? key entries = none ↔ key ∉ entries.map Prod.fst := by
  induction entries with
  | nil => simp [get?]
  | cons e rest ih =>
    by_cases same : e.1 = key
    · simp [get?, same]
    · simp [get?, same, Ne.symm same, ih]

theorem get?_of_mem {key : κ} {a : α} {entries : List (κ × α)}
    (distinct : (entries.map Prod.fst).Nodup) (h : (key, a) ∈ entries) :
    get? key entries = some a := by
  induction entries with
  | nil => simp at h
  | cons e rest ih =>
    rw [List.map_cons, List.nodup_cons] at distinct
    rcases List.mem_cons.mp h with rfl | h
    · simp [get?]
    · have other : e.1 ≠ key := by
        intro same
        exact distinct.1 (same ▸ List.mem_map_of_mem h)
      simpa [get?, other] using ih distinct.2 h

theorem get?_alter_of_ne {key other : κ} (f : Option α → Option α) (entries : List (κ × α))
    (h : other ≠ key) : get? other (alter key f entries) = get? other entries := by
  induction entries with
  | nil => cases hf : f none <;> simp [alter, get?, hf, h.symm]
  | cons e rest ih =>
    by_cases same : e.1 = key
    · cases hf : f (some e.2) <;> simp [alter, get?, hf, same, h.symm]
    · rw [alter, if_neg same, get?, get?, ih]

theorem get?_alter {key : κ} (f : Option α → Option α) {entries : List (κ × α)}
    (distinct : (entries.map Prod.fst).Nodup) :
    get? key (alter key f entries) = f (get? key entries) := by
  induction entries with
  | nil => cases hf : f none <;> simp [alter, get?, hf]
  | cons e rest ih =>
    rw [List.map_cons, List.nodup_cons] at distinct
    by_cases same : e.1 = key
    · have absent : get? key rest = none := get?_eq_none_iff.mpr (same ▸ distinct.1)
      cases hf : f (some e.2) <;> simp [alter, get?, hf, same, absent]
    · simp [alter, get?, same, ih distinct.2]

/-- What is put under a key is found there. -/
theorem get?_alter_self (key : κ) (a : α) (entries : List (κ × α)) :
    get? key (alter key (fun _ => some a) entries) = some a := by
  induction entries with
  | nil => simp [alter, get?]
  | cons e rest ih =>
    by_cases same : e.1 = key
    · simp [alter, get?, same]
    · rw [alter, if_neg same, get?, if_neg same, ih]

@[simp] theorem get?_erase_self (key : κ) (entries : List (κ × α)) :
    get? key (erase key entries) = none := by
  rw [get?_eq_none_iff]
  simp [erase]

theorem get?_erase_of_ne {key other : κ} (entries : List (κ × α)) (h : other ≠ key) :
    get? other (erase key entries) = get? other entries := by
  induction entries with
  | nil => rfl
  | cons e rest ih =>
    rw [erase] at ih ⊢
    by_cases same : e.1 = key
    · rw [List.filter_cons_of_neg (by simpa using same), ih, get?, if_neg (same ▸ Ne.symm h)]
    · rw [List.filter_cons_of_pos (by simpa using same), get?, get?, ih]

theorem nodup_erase (key : κ) {entries : List (κ × α)} (distinct : (entries.map Prod.fst).Nodup) :
    ((erase key entries).map Prod.fst).Nodup :=
  distinct.sublist (List.filter_sublist.map Prod.fst)

/-- Taking out a key takes out its one value. -/
theorem perm_erase {key : κ} {a : α} {entries : List (κ × α)}
    (distinct : (entries.map Prod.fst).Nodup) (found : get? key entries = some a) :
    (entries.map Prod.snd).Perm (a :: (erase key entries).map Prod.snd) := by
  induction entries with
  | nil => simp [get?] at found
  | cons e rest ih =>
    rw [List.map_cons, List.nodup_cons] at distinct
    by_cases same : e.1 = key
    · obtain rfl : e.2 = a := by simpa [get?, same] using found
      have others : erase key rest = rest := by
        refine List.filter_eq_self.mpr fun x there => ?_
        have other : x.1 ≠ key := fun mine =>
          distinct.1 (same.trans mine.symm ▸ List.mem_map_of_mem there)
        simpa using other
      rw [erase, List.filter_cons_of_neg (by simpa using same), ← erase, others]
      exact List.Perm.refl _
    · rw [erase, List.filter_cons_of_pos (by simpa using same), ← erase]
      exact ((ih distinct.2 (by simpa [get?, same] using found)).cons e.2).trans (.swap a e.2 _)

/-- Putting a value under a key lets go of the one that was there. -/
theorem perm_alter (key : κ) (a : α) (entries : List (κ × α)) :
    ((get? key entries).toList ++ (alter key (fun _ => some a) entries).map Prod.snd).Perm
      (a :: entries.map Prod.snd) := by
  induction entries with
  | nil => simp [get?, alter]
  | cons e rest ih =>
    by_cases same : e.1 = key
    · simpa [get?, alter, same] using List.Perm.swap a e.2 _
    · rw [get?, if_neg same, alter, if_neg same, List.map_cons, List.map_cons]
      exact List.perm_middle.trans ((ih.cons e.2).trans (.swap a e.2 _))

theorem mem_alter {key : κ} {f : Option α → Option α} {entries : List (κ × α)} {e : κ × α}
    (h : e ∈ alter key f entries) : e ∈ entries ∨ e.1 = key ∧ f (get? key entries) = some e.2 := by
  induction entries with
  | nil =>
    cases hf : f none <;> simp_all [alter, get?]
  | cons x rest ih =>
    by_cases same : x.1 = key
    · cases hf : f (some x.2) <;> simp_all [alter, get?]
      grind
    · simp only [alter, same, ↓reduceIte, List.mem_cons] at h
      rcases h with rfl | h
      · exact Or.inl List.mem_cons_self
      · rcases ih h with h | h
        · exact Or.inl (List.mem_cons_of_mem _ h)
        · exact Or.inr (by simpa [get?, same] using h)

theorem nodup_alter (key : κ) (f : Option α → Option α) {entries : List (κ × α)}
    (distinct : (entries.map Prod.fst).Nodup) : ((alter key f entries).map Prod.fst).Nodup := by
  induction entries with
  | nil => cases hf : f none <;> simp [alter, hf]
  | cons x rest ih =>
    rw [List.map_cons, List.nodup_cons] at distinct
    by_cases same : x.1 = key
    · cases hf : f (some x.2) <;> simp_all [alter]
    · have fresh : x.1 ∉ (alter key f rest).map Prod.fst := by
        intro h
        obtain ⟨e, he, hk⟩ := List.mem_map.mp h
        rcases mem_alter he with he | ⟨he, -⟩
        · exact distinct.1 (hk ▸ List.mem_map_of_mem he)
        · exact same (hk.symm.trans he)
      simpa [alter, same] using ⟨by simpa using fresh, ih distinct.2⟩

end WampClient.Assoc
