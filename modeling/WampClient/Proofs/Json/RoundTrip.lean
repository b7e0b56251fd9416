import WampClient.Proofs.Json.Scalars
import WampClient.Proofs.Value.Contents

/-! What was written as JSON text is read as it was. Floats are left out, for a number that is read
from its digits may be off in the last place. -/
namespace WampClient.Json

def NoFloat : Value → Prop
  | .float _ => False
  | _ => True

instance : DecidablePred NoFloat
  | .float _ => inferInstanceAs (Decidable False)
  | .unsigned _ | .signed _ | .bool _ | .string _ | .list _ | .dictionary _ | .null =>
    inferInstanceAs (Decidable True)

variable {v w : Value} {items : List Value} {entries : Dictionary} {depth n : Nat} {c : Char}
  {bound text rest : List Char} {item : List Char → Option (Value × List Char)}

theorem noFloat_reorders (reorders : v.Reorders w) (whole : NoFloat v) : NoFloat w := by
  induction reorders with
  | refl v => exact whole
  | trans first second ih ih' => exact ih' (ih whole)
  | entries perm => trivial
  | item before after inner ih => trivial
  | entry before after key inner ih => trivial

/-! ### Where values begin -/

/-- Whether a scalar may begin with the character. -/
def leads (c : Char) : Bool :=
  c.isDigit || c == '-' || c == '"' || c == 'n' || c == 't' || c == 'f'

theorem ne_of_isDigit {b : Char} (digit : c.isDigit = true) (other : b.isDigit = false) : c ≠ b :=
  fun same => Bool.noConfusion ((same ▸ digit).symm.trans other)

theorem leads_apart (first : leads c = true) :
    isSpace c = false ∧ c ≠ '[' ∧ c ≠ '{' ∧ c ≠ ']' := by
  simp only [leads, Bool.or_eq_true, beq_iff_eq] at first
  rcases first with ((((digit | rfl) | rfl) | rfl) | rfl) | rfl
  · have space : isSpace c = false := by
      simp [isSpace, ne_of_isDigit digit]
    exact ⟨space, ne_of_isDigit digit rfl, ne_of_isDigit digit rfl, ne_of_isDigit digit rfl⟩
  all_goals decide

theorem natText_leads (n : Nat) :
    ∃ c text, Decimal.natText n = c :: text ∧ c.isDigit = true := by
  cases written : Decimal.natText n with
  | nil => exact absurd written Nat.toDigits_ne_nil
  | cons c text =>
    have there : c ∈ Nat.toDigits 10 n := by
      rw [← Decimal.natText, written]
      exact List.mem_cons_self
    exact ⟨c, text, rfl, Nat.isDigit_of_mem_toDigits (by decide) (by decide) there⟩

theorem write_scalar_leads (scalar : v.isScalar = true) (whole : NoFloat v) :
    ∃ c text, write v = c :: text ∧ leads c = true := by
  cases v with
  | unsigned n =>
    obtain ⟨c, text, written, digit⟩ := natText_leads n.toNat
    exact ⟨c, text, written, by simp [leads, digit]⟩
  | signed n =>
    rw [write, writeInt]
    split
    · exact ⟨'-', _, rfl, rfl⟩
    · obtain ⟨c, text, written, digit⟩ := natText_leads n.toInt.natAbs
      exact ⟨c, text, written, by simp [leads, digit]⟩
  | float x => exact whole.elim
  | bool b => cases b <;> exact ⟨_, _, rfl, rfl⟩
  | string s => exact ⟨'"', _, rfl, rfl⟩
  | null => exact ⟨'n', _, rfl, rfl⟩
  | list items => exact nomatch scalar
  | dictionary entries => exact nomatch scalar

/-- No value begins with a blank, or with what closes a list. -/
theorem write_begins (v : Value) (whole : NoFloat v) :
    ∃ c text, write v = c :: text ∧ isSpace c = false ∧ c ≠ ']' := by
  cases v with
  | list items => exact ⟨'[', _, rfl, by decide⟩
  | dictionary entries => exact ⟨'{', _, rfl, by decide⟩
  | _ =>
    obtain ⟨c, text, written, first⟩ := write_scalar_leads rfl whole
    obtain ⟨space, -, -, noEnd⟩ := leads_apart first
    exact ⟨c, text, written, space, noEnd⟩

theorem skipSpace_cons (solid : isSpace c = false) : skipSpace (c :: text) = c :: text := by
  rw [skipSpace, List.dropWhile_cons, solid]
  rfl

/-! ### Scalars -/

theorem readScalar_number (first : c.isDigit = true ∨ c = '-') :
    readScalar (c :: text) = readNumber (c :: text) := by
  rcases first with digit | rfl
  · rw [readScalar] <;> exact ne_of_isDigit digit rfl
  · rfl

theorem readScalar_natText (fits : n < 0x10000000000000000) (ends : Ends rest) :
    readScalar (Decimal.natText n ++ rest) = some (.unsigned (UInt64.ofNat n), rest) := by
  have read : unsignedPart false (Decimal.natText n ++ rest) = some (wholeNumber false n, rest) :=
    unsignedPart_natText fits ends
  obtain ⟨c, text, written, digit⟩ := natText_leads n
  rw [written, List.cons_append] at read ⊢
  rw [readScalar_number (Or.inl digit), readNumber, read]
  · rfl
  · exact fun _ same => ne_of_isDigit digit rfl (List.cons.inj same).1

theorem wholeNumber_negative {i : Int64} (negative : i.toInt < 0) :
    wholeNumber true i.toInt.natAbs = .signed i := by
  have least : -0x8000000000000000 ≤ i.toInt := i.minValue_le_toInt
  have range : 0 < i.toInt.natAbs ∧ i.toInt.natAbs ≤ 0x8000000000000000 := by omega
  have back : -((i.toInt.natAbs : Nat) : Int) = i.toInt := by omega
  rw [wholeNumber, if_neg (by decide), if_pos range, back, Int64.ofInt_toInt]

theorem readScalar_writeInt (i : Int64) (ends : Ends rest) :
    readScalar (writeInt i.toInt ++ rest) = some (Value.ofInt64 i, rest) := by
  have least : -0x8000000000000000 ≤ i.toInt := i.minValue_le_toInt
  have greatest : i.toInt < 0x8000000000000000 := i.toInt_lt
  have fits : i.toInt.natAbs < 0x10000000000000000 := by omega
  rw [writeInt]
  split
  next negative =>
    rw [List.cons_append, readScalar_number (Or.inr rfl), readNumber,
      unsignedPart_natText fits ends, wholeNumber_negative negative,
      Value.ofInt64_of_negative negative]
  next positive =>
    have size : i.toInt.natAbs = i.toInt.toNat := by omega
    rw [readScalar_natText fits ends, size, Value.ofInt64_of_nonneg (Int.not_lt.mp positive)]

theorem readScalar_write (scalar : v.isScalar = true) (whole : NoFloat v) (ends : Ends rest) :
    readScalar (write v ++ rest) = some (v.rewrap, rest) := by
  cases v with
  | unsigned n =>
    rw [write, readScalar_natText n.toNat_lt ends, UInt64.ofNat_toNat]
    rfl
  | signed n => exact readScalar_writeInt n ends
  | float x => exact whole.elim
  | bool b => cases b <;> simp [write, writeBool, readScalar, word, Value.rewrap]
  | string s => simp [write, writeString, readScalar, readString_write, Value.rewrap]
  | null => simp [write, readScalar, word, Value.rewrap]
  | list items => exact nomatch scalar
  | dictionary entries => exact nomatch scalar

theorem readValue_scalar (scalar : v.isScalar = true) (whole : NoFloat v) (ends : Ends rest) :
    readValue depth (write v ++ rest) = some (v.rewrap, rest) := by
  have read := readScalar_write scalar whole ends
  obtain ⟨c, text, written, first⟩ := write_scalar_leads scalar whole
  obtain ⟨space, noList, noObject, -⟩ := leads_apart first
  rw [written, List.cons_append] at read ⊢
  cases depth with
  | zero => rw [readValue, skipSpace_cons space, read]
  | succ depth => simpa [readValue, skipSpace_cons space, noList, noObject] using read

/-! ### Lists and objects -/

theorem length_writeItems (whole : ∀ v ∈ items, NoFloat v) :
    items.length ≤ (writeItems items).length := by
  induction items with
  | nil => exact Nat.le_refl 0
  | cons v items ih =>
    obtain ⟨first, later⟩ := List.forall_mem_cons.mp whole
    obtain ⟨c, text, written, -⟩ := write_begins v first
    have inside := ih later
    cases items with
    | nil => simp [writeItems, written]
    | cons w items =>
      simp only [writeItems, written, List.length_append, List.length_cons] at inside ⊢
      omega

theorem length_writeEntries (entries : Dictionary) :
    entries.length ≤ (writeEntries entries).length := by
  induction entries with
  | nil => exact Nat.le_refl 0
  | cons e entries ih =>
    cases entries with
    | nil => simp [writeEntries, writeString]
    | cons f entries =>
      simp only [writeEntries, writeString, List.length_append, List.length_cons] at ih ⊢
      omega

theorem readItems_last {b : Char} (read : item text = some (v, ']' :: rest)) :
    readItems item (b :: bound) text = some ([v], rest) := by
  rw [readItems, read]
  rfl

theorem readItems_more {b : Char} {more : List Char} {vs : List Value}
    (read : item text = some (v, ',' :: more))
    (later : readItems item bound more = some (vs, rest)) :
    readItems item (b :: bound) text = some (v :: vs, rest) := by
  rw [readItems, read]
  show (readItems item bound more).bind _ = _
  rw [later]
  rfl

theorem readItems_writeItems (rest : List Char)
    (each : ∀ w ∈ v :: items, ∀ rest, Ends rest → item (write w ++ rest) = some (w.reread, rest))
    (bounded : items.length < bound.length) :
    readItems item bound (writeItems (v :: items) ++ ']' :: rest) =
      some (Value.rereadItems (v :: items), rest) := by
  induction items generalizing v bound with
  | nil =>
    cases bound with
    | nil => exact absurd bounded (Nat.not_lt_zero _)
    | cons b bound =>
      exact readItems_last (each v List.mem_cons_self (']' :: rest) (Or.inr (Or.inl rfl)))
  | cons w items ih =>
    cases bound with
    | nil => exact absurd bounded (Nat.not_lt_zero _)
    | cons b bound =>
      obtain ⟨first, others⟩ := List.forall_mem_cons.mp each
      have later := ih others (Nat.lt_of_succ_lt_succ bounded)
      have read := first (',' :: (writeItems (w :: items) ++ ']' :: rest)) (Or.inl rfl)
      rw [writeItems, List.append_assoc, Value.rereadItems]
      · exact readItems_more read later
      · exact List.cons_ne_nil w items

/-- An entry up to its value, which decides what comes next. -/
theorem readEntries_entry {b : Char} {key : String} :
    readEntries item (b :: bound) (writeString key ++ ':' :: text) =
      (item text).bind fun read =>
        match skipSpace read.2 with
        | ',' :: rest =>
          (readEntries item bound rest).bind fun later => some ((key, read.1) :: later.1, later.2)
        | '}' :: rest => some ([(key, read.1)], rest)
        | _ => none := by
  have named := readString_write key (':' :: text)
  rw [writeString, List.cons_append, List.cons_append, List.append_assoc, List.singleton_append]
  show (readString _).bind _ = _
  rw [named]
  rfl

theorem readEntries_last {b : Char} {key : String} (read : item text = some (v, '}' :: rest)) :
    readEntries item (b :: bound) (writeString key ++ ':' :: text) = some ([(key, v)], rest) := by
  rw [readEntries_entry, read]
  rfl

theorem readEntries_more {b : Char} {key : String} {more : List Char} {es : Dictionary}
    (read : item text = some (v, ',' :: more))
    (later : readEntries item bound more = some (es, rest)) :
    readEntries item (b :: bound) (writeString key ++ ':' :: text) =
      some ((key, v) :: es, rest) := by
  rw [readEntries_entry, read]
  show (readEntries item bound more).bind _ = _
  rw [later]
  rfl

theorem readEntries_writeEntries {e : String × Value} (rest : List Char)
    (each : ∀ f ∈ e :: entries, ∀ rest, Ends rest →
      item (write f.2 ++ rest) = some (f.2.reread, rest))
    (bounded : entries.length < bound.length) :
    readEntries item bound (writeEntries (e :: entries) ++ '}' :: rest) =
      some (Value.rereadEntries (e :: entries), rest) := by
  induction entries generalizing e bound with
  | nil =>
    cases bound with
    | nil => exact absurd bounded (Nat.not_lt_zero _)
    | cons b bound =>
      have read := each e List.mem_cons_self ('}' :: rest) (Or.inr (Or.inr rfl))
      rw [writeEntries, List.append_assoc, List.cons_append]
      exact readEntries_last read
  | cons f entries ih =>
    cases bound with
    | nil => exact absurd bounded (Nat.not_lt_zero _)
    | cons b bound =>
      obtain ⟨first, others⟩ := List.forall_mem_cons.mp each
      have later := ih others (Nat.lt_of_succ_lt_succ bounded)
      have read := first (',' :: (writeEntries (f :: entries) ++ '}' :: rest)) (Or.inl rfl)
      rw [writeEntries, Value.rereadEntries]
      · simp only [List.append_assoc, List.cons_append]
        exact readEntries_more read later
      · exact List.cons_ne_nil f entries

theorem readList_items (solid : isSpace c = false) (opens : c ≠ ']') :
    readList item (c :: text) = readItems item (c :: text) (c :: text) := by
  rw [readList, skipSpace_cons solid]
  split
  next same => exact absurd (List.cons.inj same).1 opens
  next => rfl

theorem writeItems_cons (v : Value) (items : List Value) :
    ∃ others, writeItems (v :: items) = write v ++ others := by
  cases items with
  | nil => exact ⟨[], (List.append_nil _).symm⟩
  | cons w items => exact ⟨_, rfl⟩

theorem readList_write (whole : ∀ v ∈ items, NoFloat v)
    (each : ∀ v ∈ items, ∀ rest, Ends rest → item (write v ++ rest) = some (v.reread, rest)) :
    readList item (writeItems items ++ ']' :: rest) = some (Value.rereadItems items, rest) := by
  cases items with
  | nil => rfl
  | cons v items =>
    have bounded : items.length < (writeItems (v :: items) ++ ']' :: rest).length := by
      have inside := length_writeItems whole
      rw [List.length_cons] at inside
      rw [List.length_append]
      omega
    have read := readItems_writeItems rest each bounded
    obtain ⟨others, front⟩ := writeItems_cons v items
    obtain ⟨c, text, written, solid, opens⟩ := write_begins v (whole v List.mem_cons_self)
    rw [front, written, List.append_assoc, List.cons_append] at read ⊢
    rw [readList_items solid opens, read]

theorem writeEntries_cons (e : String × Value) (entries : Dictionary) :
    ∃ others, writeEntries (e :: entries) = '"' :: others := by
  cases entries with
  | nil => exact ⟨_, rfl⟩
  | cons f entries => exact ⟨_, rfl⟩

theorem readObject_write
    (each : ∀ e ∈ entries, ∀ rest, Ends rest → item (write e.2 ++ rest) = some (e.2.reread, rest)) :
    readObject item (writeEntries entries ++ '}' :: rest) =
      some (Dictionary.ofList (Value.rereadEntries entries), rest) := by
  cases entries with
  | nil => rfl
  | cons e entries =>
    have bounded : entries.length < (writeEntries (e :: entries) ++ '}' :: rest).length := by
      have inside := length_writeEntries (e :: entries)
      rw [List.length_cons] at inside
      rw [List.length_append]
      omega
    have read := readEntries_writeEntries rest each bounded
    obtain ⟨others, front⟩ := writeEntries_cons e entries
    rw [front, List.cons_append] at read ⊢
    show (readEntries item _ _).map _ = _
    rw [read]
    rfl

/-! ### All values -/

/-- A value without floats that nests no deeper than is allowed is read where it was written. -/
theorem readValue_write (v : Value) (whole : v.Everywhere NoFloat) (nests : v.depth ≤ depth)
    (ends : Ends rest) : readValue depth (write v ++ rest) = some (v.reread, rest) := by
  induction whole generalizing depth rest with
  | scalar scalar own => rw [readValue_scalar scalar own ends, Value.reread_of_scalar scalar]
  | @list items own inner ih =>
    obtain ⟨within, rfl, shallow⟩ := Value.depth_list_le.mp nests
    have read : readList (readValue within) (writeItems items ++ ']' :: rest) =
        some (Value.rereadItems items, rest) :=
      readList_write (fun v there => (inner v there).own) fun v there _ ends =>
        ih v there (shallow v there) ends
    rw [write, List.cons_append, List.cons_append, List.append_assoc]
    show (readList _ _).map _ = _
    rw [List.singleton_append, read]
    rfl
  | @dictionary entries own inner ih =>
    obtain ⟨within, rfl, shallow⟩ := Value.depth_dictionary_le.mp nests
    have read : readObject (readValue within) (writeEntries entries ++ '}' :: rest) =
        some (Dictionary.ofList (Value.rereadEntries entries), rest) :=
      readObject_write fun e there _ ends => ih e there (shallow e there) ends
    rw [write, List.cons_append, List.cons_append, List.append_assoc]
    show (readObject _ _).map _ = _
    rw [List.singleton_append, read]
    rfl

/-- The list that a text was written for is read from it. -/
theorem readList_text (whole : (Value.list items).Everywhere NoFloat)
    (nests : (Value.list items).depth ≤ depthLimit) :
    readList (readValue (depthLimit - 1)) (writeItems items ++ [']']) =
      some (Value.rereadItems items, []) := by
  obtain ⟨-, inner⟩ := Value.everywhere_list.mp whole
  obtain ⟨within, limit, shallow⟩ := Value.depth_list_le.mp nests
  rw [limit, Nat.add_sub_cancel]
  exact readList_write (fun v there => (inner v there).own) fun v there _ ends =>
    readValue_write v (inner v there) (shallow v there) ends

end WampClient.Json
