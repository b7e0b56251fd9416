import WampClient.Uri
import Mathlib.Computability.Language

/-! The texts that are URIs and the texts that are patterns, by their components. Reading on through
a text accepts what the expressions for the two describe: rows of runs of characters with points
between them, where only a pattern may have empty runs. -/
namespace WampClient

open scoped Computability

namespace Uri

variable {cs part : List Char} {c : Char}

/-! ### Splitting at points -/

theorem splitPoints_eq (cs : List Char) : splitPoints cs = cs.splitOn '.' := by
  rw [List.splitOn_eq_splitOnP]
  induction cs with
  | nil => rfl
  | cons c rest ih =>
    rw [splitPoints, List.splitOnP_cons_eq_if_modifyHead, ih]
    by_cases point : c = '.'
    · simp [point]
    · obtain ⟨first, others, split⟩ :=
        List.exists_cons_of_ne_nil (List.splitOnP_ne_nil (fun c => c == '.') rest)
      simp [point, split]

/-- Every character is a point or in one of the parts. -/
theorem forall_mem_parts {P : Char → Prop} :
    (∀ part ∈ cs.splitOn '.', ∀ c ∈ part, P c) ↔ ∀ c ∈ cs, c = '.' ∨ P c := by
  rw [← splitPoints_eq]
  induction cs with
  | nil => simp [splitPoints]
  | cons c rest ih =>
    rw [splitPoints, List.forall_mem_cons, ← ih]
    by_cases point : c = '.'
    · simp [point]
    · rcases split : splitPoints rest with _ | ⟨first, others⟩
      · simp [point]
      · simp [point, and_assoc]

theorem not_mem_part (there : part ∈ cs.splitOn '.') : '.' ∉ part := fun point =>
  forall_mem_parts.mpr (fun c _ => em (c = '.')) part there '.' point rfl

theorem components_toList (u : Uri) :
    u.components.map String.toList = u.text.toList.splitOn '.' := by
  rw [components, splitPoints_eq, List.map_map]
  exact (List.map_congr_left fun part _ => String.toList_ofList).trans (List.map_id _)

theorem intercalate_components (u : Uri) : ".".intercalate u.components = u.text := by
  refine String.toList_injective ?_
  rw [String.toList_intercalate, components_toList]
  exact List.intercalate_splitOn '.'

/-! ### Reading on -/

/-- One or more characters of a component. -/
structure IsComponent (part : List Char) : Prop where
  some' : part ≠ []
  name : ∀ c ∈ part, isNameChar c = true

theorem isNameChar_iff : isNameChar c = true ↔ c ≠ '.' ∧ c ≠ '#' ∧ Text.isBlank c = false := by
  simp [isNameChar, and_assoc]

/-- The rest of a text is read through if all of its parts are components; the first one goes on
with what was read before. -/
theorem scan_iff (begun : Bool) (cs : List Char) :
    scan begun cs = true ↔ ∃ first others, splitPoints cs = first :: others ∧
      (begun = true ∨ first ≠ []) ∧ (∀ c ∈ first, isNameChar c = true) ∧
        ∀ part ∈ others, IsComponent part := by
  induction cs generalizing begun with
  | nil => simp [scan, splitPoints]
  | cons c rest ih =>
    by_cases point : c = '.'
    · rw [scan, if_pos point, Bool.and_eq_true, ih, splitPoints, if_pos point]
      constructor
      · rintro ⟨yes, first, others, split, some', name, good⟩
        refine ⟨[], first :: others, by rw [split], Or.inl yes, by simp, ?_⟩
        exact List.forall_mem_cons.mpr ⟨⟨some'.resolve_left (by simp), name⟩, good⟩
      · rintro ⟨first, others, split, some', -, good⟩
        obtain ⟨rfl, rfl⟩ := List.cons.inj split
        refine ⟨some'.resolve_right (by simp), ?_⟩
        obtain ⟨next, later, split⟩ : ∃ next later, splitPoints rest = next :: later := by
          rw [splitPoints_eq, List.splitOn_eq_splitOnP]
          exact List.exists_cons_of_ne_nil (List.splitOnP_ne_nil _ rest)
        rw [split] at good
        obtain ⟨own, good⟩ := List.forall_mem_cons.mp good
        exact ⟨next, later, split, Or.inr own.some', own.name, good⟩
    · rw [scan, if_neg point, Bool.and_eq_true, ih, splitPoints, if_neg point]
      constructor
      · rintro ⟨yes, first, others, split, -, name, good⟩
        refine ⟨c :: first, others, by rw [split], Or.inr (by simp), ?_, good⟩
        exact List.forall_mem_cons.mpr ⟨yes, name⟩
      · rintro ⟨first, others, split, -, name, good⟩
        rcases next : splitPoints rest with _ | ⟨next', later⟩
        · rw [splitPoints_eq, List.splitOn_eq_splitOnP] at next
          exact absurd next (List.splitOnP_ne_nil _ rest)
        · rw [next] at split
          obtain ⟨rfl, rfl⟩ := List.cons.inj split
          obtain ⟨yes, name⟩ := List.forall_mem_cons.mp name
          exact ⟨yes, next', later, rfl, Or.inl rfl, name, good⟩

theorem isValidText_iff (s : String) :
    isValidText s = true ↔ ∀ part ∈ s.toList.splitOn '.', IsComponent part := by
  rw [isValidText, scan_iff, ← splitPoints_eq]
  constructor
  · rintro ⟨first, others, split, some', name, good⟩
    rw [split]
    exact List.forall_mem_cons.mpr ⟨⟨some'.resolve_left (by simp), name⟩, good⟩
  · intro good
    rcases split : splitPoints s.toList with _ | ⟨first, others⟩
    · rw [splitPoints_eq, List.splitOn_eq_splitOnP] at split
      exact absurd split (List.splitOnP_ne_nil _ _)
    · rw [split] at good
      obtain ⟨own, good⟩ := List.forall_mem_cons.mp good
      exact ⟨first, others, rfl, Or.inr own.some', own.name, good⟩

theorem isComponent_iff (there : part ∈ cs.splitOn '.') :
    IsComponent part ↔ part ≠ [] ∧ ∀ c ∈ part, c ≠ '#' ∧ Text.isBlank c = false := by
  have pointless : ∀ c ∈ part, c ≠ '.' := fun c among point =>
    not_mem_part there (point ▸ among)
  constructor
  · exact fun own => ⟨own.some', fun c among => (isNameChar_iff.mp (own.name c among)).2⟩
  · exact fun ⟨some', clean⟩ =>
      ⟨some', fun c among => isNameChar_iff.mpr ⟨pointless c among, clean c among⟩⟩

/-! ### Expressions -/

def nameChars : Language Char := {part | ∃ c, isNameChar c = true ∧ part = [c]}

theorem mem_nameChars : part ∈ nameChars ↔ ∃ c, isNameChar c = true ∧ part = [c] := Iff.rfl

theorem mem_nameChars_kstar : part ∈ nameChars∗ ↔ ∀ c ∈ part, isNameChar c = true := by
  rw [Language.mem_kstar]
  constructor
  · rintro ⟨pieces, rfl, each⟩ c among
    obtain ⟨piece, there, among⟩ := List.mem_flatten.mp among
    obtain ⟨d, name, rfl⟩ := mem_nameChars.mp (each piece there)
    exact (List.mem_singleton.mp among) ▸ name
  · intro name
    refine ⟨part.map fun c => [c], ?_, fun piece there => ?_⟩
    · rw [← List.flatMap_def, List.flatMap_singleton']
    · obtain ⟨c, among, rfl⟩ := List.mem_map.mp there
      exact mem_nameChars.mpr ⟨c, name c among, rfl⟩

theorem mem_nameChars_plus : part ∈ nameChars * nameChars∗ ↔ IsComponent part := by
  rw [Language.mem_mul]
  constructor
  · rintro ⟨first, one, others, more, rfl⟩
    obtain ⟨c, name, rfl⟩ := mem_nameChars.mp one
    exact ⟨by simp, List.forall_mem_cons.mpr ⟨name, mem_nameChars_kstar.mp more⟩⟩
  · rintro ⟨some', name⟩
    obtain ⟨c, others, rfl⟩ := List.exists_cons_of_ne_nil some'
    obtain ⟨first, name⟩ := List.forall_mem_cons.mp name
    exact ⟨[c], mem_nameChars.mpr ⟨c, first, rfl⟩, others, mem_nameChars_kstar.mpr name, rfl⟩

/-- A run, as often as one likes with a point behind it, and then a run. -/
def rowsOf (run : Language Char) : Language Char := (run * {['.']})∗ * run

theorem intercalate_concat (parts : List (List Char)) (last : List Char) :
    ['.'].intercalate (parts ++ [last]) =
      (parts.map fun part => part ++ ['.']).flatten ++ last := by
  induction parts with
  | nil => simp [List.intercalate]
  | cons part rest ih =>
    obtain ⟨next, later, same⟩ := List.exists_cons_of_ne_nil
      (List.append_ne_nil_of_right_ne_nil rest (List.cons_ne_nil last []))
    rw [List.map_cons, List.flatten_cons, List.append_assoc, ← ih, List.cons_append, same]
    simp [List.intercalate]

theorem mem_rowsOf {run : Language Char} (pointless : ∀ part ∈ run, '.' ∉ part) :
    cs ∈ rowsOf run ↔ ∀ part ∈ cs.splitOn '.', part ∈ run := by
  rw [rowsOf, Language.mem_mul]
  constructor
  · rintro ⟨before, starred, last, own, rfl⟩
    obtain ⟨pieces, rfl, each⟩ := Language.mem_kstar.mp starred
    clear starred
    obtain ⟨parts, same, runs⟩ : ∃ parts : List (List Char),
        pieces = parts.map (fun part => part ++ ['.']) ∧ ∀ part ∈ parts, part ∈ run := by
      induction pieces with
      | nil => exact ⟨[], rfl, by simp⟩
      | cons piece rest ih =>
        obtain ⟨first, others⟩ := List.forall_mem_cons.mp each
        obtain ⟨part, isRun, point, rfl, rfl⟩ := Language.mem_mul.mp first
        obtain ⟨parts, rfl, runs⟩ := ih others
        exact ⟨part :: parts, rfl, List.forall_mem_cons.mpr ⟨isRun, runs⟩⟩
    have all : ∀ part ∈ parts ++ [last], part ∈ run := by
      simp only [List.mem_append, List.mem_singleton]
      rintro part (among | rfl)
      · exact runs part among
      · exact own
    rw [same, ← intercalate_concat, List.splitOn_intercalate '.' (fun part there =>
      pointless part (all part there)) (by simp)]
    exact all
  · intro all
    have some' : cs.splitOn '.' ≠ [] := by
      rw [List.splitOn_eq_splitOnP]
      exact List.splitOnP_ne_nil _ cs
    refine ⟨((cs.splitOn '.').dropLast.map fun part => part ++ ['.']).flatten, ?_,
      (cs.splitOn '.').getLast some', all _ (List.getLast_mem some'), ?_⟩
    · refine Language.join_mem_kstar fun piece there => ?_
      obtain ⟨part, among, rfl⟩ := List.mem_map.mp there
      exact Language.append_mem_mul (all part (List.mem_of_mem_dropLast among)) rfl
    · rw [← intercalate_concat, List.dropLast_append_getLast]
      exact List.intercalate_splitOn '.'

/-! ### Texts -/

theorem ofString_ok (s : String) {u : Uri} (valid : ofString s = .ok u) :
    isValidText s = true ∧ u = ⟨s⟩ := by
  unfold ofString at valid
  split at valid
  · next good => exact ⟨good, (Except.ok.inj valid).symm⟩
  · cases valid

theorem exists_ofString (s : String) : (∃ u, ofString s = .ok u) ↔ isValidText s = true :=
  ⟨fun ⟨_, valid⟩ => (ofString_ok s valid).1, fun good => ⟨⟨s⟩, if_pos good⟩⟩

theorem isValidText_iff_clean (s : String) :
    isValidText s = true ↔ ∀ part ∈ s.toList.splitOn '.',
      part ≠ [] ∧ ∀ c ∈ part, c ≠ '#' ∧ Text.isBlank c = false :=
  (isValidText_iff s).trans (forall₂_congr fun _ there => isComponent_iff there)

theorem isValidText_iff_mem_rowsOf (s : String) :
    isValidText s = true ↔ s.toList ∈ rowsOf (nameChars * nameChars∗) := by
  rw [isValidText_iff, mem_rowsOf]
  · exact forall₂_congr fun _ _ => mem_nameChars_plus.symm
  · exact fun part own point =>
      (isNameChar_iff.mp ((mem_nameChars_plus.mp own).name '.' point)).1 rfl

end Uri

namespace UriPattern

theorem isValidText_iff (s : String) :
    isValidText s = true ↔ ∀ c ∈ s.toList, c = '.' ∨ Uri.isNameChar c = true := by
  simp [isValidText]

theorem isValidText_iff_clean (s : String) :
    isValidText s = true ↔ ∀ c ∈ s.toList, c ≠ '#' ∧ Text.isBlank c = false := by
  rw [isValidText_iff]
  refine forall₂_congr fun c _ => ?_
  rw [Uri.isNameChar_iff]
  constructor
  · rintro (rfl | ⟨-, clean⟩)
    · decide
    · exact clean
  · exact fun clean => (em (c = '.')).imp_right fun other => ⟨other, clean⟩

theorem isValidText_iff_mem_rowsOf (s : String) :
    isValidText s = true ↔ s.toList ∈ Uri.rowsOf Uri.nameChars∗ := by
  rw [isValidText_iff, ← Uri.forall_mem_parts, Uri.mem_rowsOf]
  · exact forall₂_congr fun _ _ => Uri.mem_nameChars_kstar.symm
  · exact fun part own point =>
      (Uri.isNameChar_iff.mp (Uri.mem_nameChars_kstar.mp own '.' point)).1 rfl

theorem ofString_ok (s : String) {p : UriPattern} (valid : ofString s = .ok p) :
    isValidText s = true ∧ p = ⟨s⟩ := by
  unfold ofString at valid
  split at valid
  · next good => exact ⟨good, (Except.ok.inj valid).symm⟩
  · cases valid

theorem exists_ofString (s : String) : (∃ p, ofString s = .ok p) ↔ isValidText s = true :=
  ⟨fun ⟨_, valid⟩ => (ofString_ok s valid).1, fun good => ⟨⟨s⟩, if_pos good⟩⟩

/-- A pattern is a URI where no component is empty. -/
theorem isValidText_toUri {s : String} (valid : isValidText s = true) :
    Uri.isValidText s = true ↔ [] ∉ s.toList.splitOn '.' := by
  rw [isValidText_iff, ← Uri.forall_mem_parts] at valid
  rw [Uri.isValidText_iff]
  constructor
  · exact fun own empty => (own [] empty).some' rfl
  · exact fun full part there => ⟨fun empty => full (empty ▸ there), valid part there⟩

end UriPattern

namespace Uri

theorem isValidText_toPattern {s : String} (valid : isValidText s = true) :
    UriPattern.isValidText s = true := by
  rw [UriPattern.isValidText_iff, ← forall_mem_parts]
  exact fun part there => ((isValidText_iff s).mp valid part there).name

/-- Which texts are URIs and which are patterns, said of their components and as expressions; and
what becomes of a text that is one: it stays as it is, its components with points between them are
the text again, a URI goes to patterns and back, and a pattern without an empty component is a
URI. -/
theorem texts_by_components (s : String) :
    ((∃ u, Uri.ofString s = .ok u) ↔ ∀ part ∈ s.toList.splitOn '.',
      part ≠ [] ∧ ∀ c ∈ part, c ≠ '#' ∧ Text.isBlank c = false) ∧
    ((∃ u, Uri.ofString s = .ok u) ↔ s.toList ∈ rowsOf (nameChars * nameChars∗)) ∧
    ((∃ p, UriPattern.ofString s = .ok p) ↔ ∀ c ∈ s.toList, c ≠ '#' ∧ Text.isBlank c = false) ∧
    ((∃ p, UriPattern.ofString s = .ok p) ↔ s.toList ∈ rowsOf nameChars∗) ∧
    (∀ u, Uri.ofString s = .ok u →
      u.text = s ∧ u.components.map String.toList = s.toList.splitOn '.' ∧
        ".".intercalate u.components = s ∧
        UriPattern.ofString u.text = .ok u.toPattern ∧ u.toPattern.toUri = .ok u) ∧
    (∀ p, UriPattern.ofString s = .ok p →
      p.text = s ∧ ((∃ u, p.toUri = .ok u) ↔ [] ∉ s.toList.splitOn '.') ∧
        ∀ u, p.toUri = .ok u → u.text = s) ∧
    (∀ e, Uri.ofString s = .error e ∨ UriPattern.ofString s = .error e → e.text = s) := by
  rw [exists_ofString, UriPattern.exists_ofString]
  refine ⟨isValidText_iff_clean s, isValidText_iff_mem_rowsOf s,
    UriPattern.isValidText_iff_clean s, UriPattern.isValidText_iff_mem_rowsOf s,
    fun u valid => ?uri, fun p valid => ?pattern, fun e wrong => ?wrong⟩
  case uri =>
    obtain ⟨good, rfl⟩ := ofString_ok s valid
    exact ⟨rfl, components_toList ⟨s⟩, intercalate_components ⟨s⟩,
      if_pos (isValidText_toPattern good), if_pos good⟩
  case pattern =>
    obtain ⟨good, rfl⟩ := UriPattern.ofString_ok s valid
    refine ⟨rfl, (exists_ofString s).trans (UriPattern.isValidText_toUri good), fun u back => ?_⟩
    obtain ⟨-, rfl⟩ := ofString_ok s back
    rfl
  case wrong =>
    rcases wrong with wrong | wrong
    · unfold ofString at wrong
      split at wrong
      · cases wrong
      · exact (Except.error.inj wrong) ▸ rfl
    · unfold UriPattern.ofString at wrong
      split at wrong
      · cases wrong
      · exact (Except.error.inj wrong) ▸ rfl

/-- A URI of two components, and a pattern whose middle component is empty. -/
theorem texts_by_components_com :
    Uri.ofString "com.add" = .ok ⟨"com.add"⟩ ∧
      ".".intercalate (components ⟨"com.add"⟩) = "com.add" ∧
      UriPattern.ofString "com..add" = .ok ⟨"com..add"⟩ ∧
      ¬ ∃ u, UriPattern.toUri ⟨"com..add"⟩ = .ok u := by
  obtain ⟨-, -, -, -, uri, -, -⟩ := texts_by_components "com.add"
  obtain ⟨-, -, -, -, -, pattern, -⟩ := texts_by_components "com..add"
  refine ⟨by decide, (uri ⟨"com.add"⟩ (by decide)).2.2.1, by decide, fun back => ?_⟩
  exact ((pattern ⟨"com..add"⟩ (by decide)).2.1.mp back) (by decide)

end Uri

end WampClient
