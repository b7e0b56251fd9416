import WampClient.Proofs.MessagePack.Lead
import WampClient.Proofs.Text.Utf8
import WampClient.Proofs.Value.Contents

/-! What was written in MessagePack is read as it was, whatever bytes follow it. -/
namespace WampClient.MessagePack

/-- The sizes that a header can tell: strings by their bytes, lists and maps by what they hold. -/
def sizeLimit : Nat := 0x100000000

abbrev FitsText (s : String) : Prop := s.utf8ByteSize < sizeLimit

/-- The value's own header can tell its size, and so can those of its keys. -/
def Fits : Value → Prop
  | .string s => FitsText s
  | .list items => items.length < sizeLimit
  | .dictionary entries => entries.length < sizeLimit ∧ ∀ e ∈ entries, FitsText e.1
  | _ => True

instance : DecidablePred Fits
  | .unsigned _ | .signed _ | .float _ | .bool _ | .null => inferInstanceAs (Decidable True)
  | .string s => inferInstanceAs (Decidable (FitsText s))
  | .list items => inferInstanceAs (Decidable (items.length < sizeLimit))
  | .dictionary entries =>
    inferInstanceAs (Decidable (entries.length < sizeLimit ∧ ∀ e ∈ entries, FitsText e.1))

variable {v w : Value} {items : List Value} {entries : Dictionary} {s : String} {depth : Nat}
  {bytes rest : Bytes} {item : Bytes → Option (Value × Bytes)}

theorem fits_reorders (reorders : v.Reorders w) (fits : Fits v) : Fits w := by
  induction reorders with
  | refl v => exact fits
  | trans first second ih ih' => exact ih' (ih fits)
  | entries perm =>
    obtain ⟨short, keys⟩ := fits
    exact ⟨perm.length_eq ▸ short, fun e there => keys e (perm.mem_iff.mpr there)⟩
  | item before after inner ih => simpa [Fits] using fits
  | entry before after key inner ih =>
    obtain ⟨short, keys⟩ := fits
    refine ⟨by simpa using short, ?_⟩
    simp only [List.forall_mem_append, List.forall_mem_cons] at keys ⊢
    exact keys

/-! ### Texts -/

theorem takeBytes_append (front : Bytes) :
    takeBytes front.length (front ++ rest) = some (front, rest) := by
  induction front with
  | nil => rfl
  | cons b front ih => simp [takeBytes, ih]

theorem readText_bytesOf :
    readText (Text.bytesOf s).length (Text.bytesOf s ++ rest) = some (s, rest) := by
  simp [readText, takeBytes_append]

theorem readLead_writeString (fits : FitsText s) :
    readLead (writeString s ++ rest) =
      some (.text (Text.bytesOf s).length, Text.bytesOf s ++ rest) := by
  have short : (Text.bytesOf s).length < sizeLimit := by rwa [Text.length_bytesOf]
  rw [writeString, List.append_assoc, readLead_stringHeader short]

theorem readKey_writeString (fits : FitsText s) :
    readKey (writeString s ++ rest) = some (s, rest) := by
  simp [readKey, readLead_writeString fits, readText_bytesOf]

/-! ### Values -/

theorem readItems_writeItems
    (each : ∀ v ∈ items, ∀ rest, item (write v ++ rest) = some (v.reread, rest)) :
    readItems item items.length (writeItems items ++ rest) =
      some (Value.rereadItems items, rest) := by
  induction items with
  | nil => rfl
  | cons v items ih =>
    obtain ⟨first, later⟩ := List.forall_mem_cons.mp each
    simp [readItems, writeItems, Value.rereadItems, first, ih later]

theorem readEntries_writeEntries (keys : ∀ e ∈ entries, FitsText e.1)
    (each : ∀ e ∈ entries, ∀ rest, item (write e.2 ++ rest) = some (e.2.reread, rest)) :
    readEntries item entries.length (writeEntries entries ++ rest) =
      some (Value.rereadEntries entries, rest) := by
  induction entries with
  | nil => rfl
  | cons e entries ih =>
    obtain ⟨key, laterKeys⟩ := List.forall_mem_cons.mp keys
    obtain ⟨first, later⟩ := List.forall_mem_cons.mp each
    simp [readEntries, writeEntries, Value.rereadEntries, readKey_writeString key, first,
      ih laterKeys later]

/-- A value that its first byte announces whole is read at every depth. -/
theorem readValue_whole (announced : readLead bytes = some (.value v, rest)) :
    readValue depth bytes = some (v, rest) := by
  cases depth <;> simp [readValue, announced, readBody]

theorem readValue_scalar (scalar : v.isScalar = true) (fits : Fits v) :
    readValue depth (write v ++ rest) = some (v.rewrap, rest) := by
  cases v with
  | unsigned n =>
    apply readValue_whole
    rw [write, readLead_writeNat n.toNat_lt, unsigned, UInt64.ofNat_toNat]
    rfl
  | signed n => exact readValue_whole (readLead_writeInt n)
  | float x =>
    have bits : Binary64.ofNatBits x.bits.toNat = x := by
      rw [Binary64.ofNatBits, UInt64.ofNat_toNat]
    apply readValue_whole
    rw [write, readLead_marked x.bits.toNat_lt fun _ => rfl, double, bits]
    rfl
  | bool b => cases b <;> exact readValue_whole rfl
  | string s =>
    cases depth <;>
      simp [readValue, write, readLead_writeString fits, readBody, readText_bytesOf, Value.rewrap]
  | null => exact readValue_whole rfl
  | list items => exact nomatch scalar
  | dictionary entries => exact nomatch scalar

/-- A value that nests no deeper than is allowed is read where it was written. -/
theorem readValue_write (v : Value) (fits : v.Everywhere Fits) (nests : v.depth ≤ depth) :
    readValue depth (write v ++ rest) = some (v.reread, rest) := by
  induction fits generalizing depth rest with
  | scalar scalar own => rw [readValue_scalar scalar own, Value.reread_of_scalar scalar]
  | @list items own inner ih =>
    obtain ⟨within, rfl, shallow⟩ := Value.depth_list_le.mp nests
    have read : ∀ rest, readItems (readValue within) items.length (writeItems items ++ rest) =
        some (Value.rereadItems items, rest) := fun _ =>
      readItems_writeItems fun v there _ => ih v there (shallow v there)
    simp [readValue, write, readLead_listHeader own, readBody, read, Value.reread]
  | @dictionary entries own inner ih =>
    obtain ⟨within, rfl, shallow⟩ := Value.depth_dictionary_le.mp nests
    have read : ∀ rest, readEntries (readValue within) entries.length
        (writeEntries entries ++ rest) = some (Value.rereadEntries entries, rest) := fun _ =>
      readEntries_writeEntries own.2 fun e there _ => ih e there (shallow e there)
    simp [readValue, write, readLead_mapHeader own.1, readBody, read, Value.reread]

/-- The list that a frame was written for is read from it, with or without bytes behind it. -/
theorem readFrame_write (fits : (Value.list items).Everywhere Fits)
    (nests : (Value.list items).depth ≤ depthLimit) (trailing : Bytes) :
    readFrame (write (.list items) ++ trailing) = some (Value.rereadItems items) := by
  obtain ⟨short, inner⟩ := Value.everywhere_list.mp fits
  obtain ⟨within, limit, shallow⟩ := Value.depth_list_le.mp nests
  have read : readItems (readValue within) items.length (writeItems items ++ trailing) =
      some (Value.rereadItems items, trailing) :=
    readItems_writeItems fun v there _ => readValue_write v (inner v there) (shallow v there)
  simp [readFrame, write, readLead_listHeader short, limit, read]

end WampClient.MessagePack
