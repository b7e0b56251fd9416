import WampClient.MessagePack.Reader
import WampClient.MessagePack.Writer
import WampClient.Proofs.Value.Contents

/-! The first byte of each form and the number behind it. Whatever is written in the shortest of its
forms is announced for what it is, through every change from one form to the next longer one. -/
namespace WampClient.MessagePack

variable {n m width : Nat} {bytes rest : Bytes} {f : Nat → Lead}

/-! ### Numbers of a known width -/

theorem readNat_succ {b : UInt8} (front : readNat width m bytes = some (n, b :: rest)) :
    readNat (width + 1) m bytes = some (n * 256 + b.toNat, rest) := by
  induction width generalizing m bytes with
  | zero =>
    cases front
    rfl
  | succ width ih =>
    cases bytes with
    | nil => exact nomatch front
    | cons c bytes => exact ih front

theorem readNat_bigEndian (fits : n < Nat.pow 256 width) :
    readNat width m (bigEndian width n ++ rest) = some (m * Nat.pow 256 width + n, rest) := by
  induction width generalizing n rest with
  | zero =>
    have none : n = 0 := Nat.lt_one_iff.mp fits
    rw [none, bigEndian, readNat]
    show some (m, [] ++ rest) = some (m * 1 + 0, rest)
    rw [Nat.mul_one, Nat.add_zero, List.nil_append]
  | succ width ih =>
    have power : Nat.pow 256 (width + 1) = Nat.pow 256 width * 256 := rfl
    have high : n / 256 < Nat.pow 256 width := by omega
    rw [bigEndian, List.append_assoc, List.singleton_append, readNat_succ (ih high), power,
      UInt8.toNat_ofNat']
    have value : (m * Nat.pow 256 width + n / 256) * 256 + n % 256 =
        m * (Nat.pow 256 width * 256) + n := by
      rw [Nat.add_mul, Nat.mul_assoc]
      omega
    exact congrArg (fun k => some (k, rest)) value

theorem sized_bigEndian (fits : n < Nat.pow 256 width) :
    sized width f (bigEndian width n ++ rest) = some (f n, rest) := by
  rw [sized, readNat_bigEndian fits, Option.map_some, Nat.zero_mul, Nat.zero_add]

/-- A number behind its marker, where the marker tells its width and what it is for. -/
theorem readLead_marked {marker : UInt8} (fits : n < Nat.pow 256 width)
    (announced : ∀ rest, readLead (marker :: rest) = sized width f rest) :
    readLead (marked marker width n ++ rest) = some (f n, rest) := by
  rw [marked, List.cons_append, announced, sized_bigEndian fits]

/-! ### First bytes that hold a number themselves -/

theorem toNat_ofNat (byte : n < 0x100) : (UInt8.ofNat n).toNat = n :=
  UInt8.toNat_ofNat_of_lt' byte

theorem readLead_small (small : n < 0x80) :
    readLead (UInt8.ofNat n :: rest) = some (unsigned n, rest) := by
  simp [readLead, toNat_ofNat (by omega : n < 0x100), small]

theorem readLead_shortMap (short : n < 16) :
    readLead (UInt8.ofNat (0x80 + n) :: rest) = some (.map n, rest) := by
  have byte : 0x80 + n < 0x100 := by omega
  have low : ¬ 0x80 + n < 0x80 := by omega
  have high : 0x80 + n < 0x90 := by omega
  simp only [readLead, toNat_ofNat byte, if_neg low, if_pos high, Nat.add_sub_cancel_left]

theorem readLead_shortList (short : n < 16) :
    readLead (UInt8.ofNat (0x90 + n) :: rest) = some (.list n, rest) := by
  have byte : 0x90 + n < 0x100 := by omega
  have low : ¬ 0x90 + n < 0x80 := by omega
  have low' : ¬ 0x90 + n < 0x90 := by omega
  have high : 0x90 + n < 0xA0 := by omega
  simp only [readLead, toNat_ofNat byte, if_neg low, if_neg low', if_pos high,
    Nat.add_sub_cancel_left]

theorem readLead_shortText (short : n < 32) :
    readLead (UInt8.ofNat (0xA0 + n) :: rest) = some (.text n, rest) := by
  have byte : 0xA0 + n < 0x100 := by omega
  have low : ¬ 0xA0 + n < 0x80 := by omega
  have low' : ¬ 0xA0 + n < 0x90 := by omega
  have low'' : ¬ 0xA0 + n < 0xA0 := by omega
  have high : 0xA0 + n < 0xC0 := by omega
  simp only [readLead, toNat_ofNat byte, if_neg low, if_neg low', if_neg low'', if_pos high,
    Nat.add_sub_cancel_left]

theorem readLead_smallNegative (high : 0xE0 ≤ n) (byte : n < 0x100) :
    readLead (UInt8.ofNat n :: rest) = some (complement 8 n, rest) := by
  have low : ¬ n < 0x80 := by omega
  have low' : ¬ n < 0x90 := by omega
  have low'' : ¬ n < 0xA0 := by omega
  have low''' : ¬ n < 0xC0 := by omega
  simp only [readLead, toNat_ofNat byte, if_neg low, if_neg low', if_neg low'', if_neg low''',
    if_pos high]

/-! ### Headers -/

theorem readLead_stringHeader (short : n < 0x100000000) :
    readLead (stringHeader n ++ rest) = some (.text n, rest) := by
  rw [stringHeader]
  split
  next small => exact readLead_shortText small
  split
  next one => exact readLead_marked one fun _ => rfl
  split
  next two => exact readLead_marked two fun _ => rfl
  exact readLead_marked short fun _ => rfl

theorem readLead_listHeader (short : n < 0x100000000) :
    readLead (listHeader n ++ rest) = some (.list n, rest) := by
  rw [listHeader]
  split
  next small => exact readLead_shortList small
  split
  next two => exact readLead_marked two fun _ => rfl
  exact readLead_marked short fun _ => rfl

theorem readLead_mapHeader (short : n < 0x100000000) :
    readLead (mapHeader n ++ rest) = some (.map n, rest) := by
  rw [mapHeader]
  split
  next small => exact readLead_shortMap small
  split
  next two => exact readLead_marked two fun _ => rfl
  exact readLead_marked short fun _ => rfl

/-! ### Numbers as values -/

theorem readLead_writeNat (fits : n < 0x10000000000000000) :
    readLead (writeNat n ++ rest) = some (unsigned n, rest) := by
  rw [writeNat]
  split
  next small => exact readLead_small small
  split
  next one => exact readLead_marked one fun _ => rfl
  split
  next two => exact readLead_marked two fun _ => rfl
  split
  next four => exact readLead_marked four fun _ => rfl
  exact readLead_marked fits fun _ => rfl

/-- A negative number and its complement, where `half` is what the highest bit counts. -/
theorem complement_of_negative {i : Int64} (bits half : Nat) {full : Int}
    (upper : 1 <<< (bits - 1) = half) (whole : ((1 <<< bits : Nat) : Int) = full)
    (double : full = 2 * half) (negative : i.toInt < 0) (fits : -(half : Int) ≤ i.toInt) :
    complement bits (i.toInt + full).toNat = .value (Value.ofInt64 i) := by
  have high : ¬ (i.toInt + full).toNat < half := by omega
  have back : (((i.toInt + full).toNat : Nat) : Int) - full = i.toInt := by omega
  rw [complement, upper, whole, if_neg high, back, Int64.ofInt_toInt]

theorem readLead_writeNegative {i : Int64} (negative : i.toInt < 0) :
    readLead (writeInt i.toInt ++ rest) = some (.value (Value.ofInt64 i), rest) := by
  have least : -0x8000000000000000 ≤ i.toInt := i.minValue_le_toInt
  rw [writeInt, if_neg (by omega)]
  split
  next small =>
    rw [← complement_of_negative 8 0x80 rfl rfl rfl negative (by omega)]
    exact readLead_smallNegative (by omega) (by omega)
  split
  next one =>
    have byte : (i.toInt + 0x100).toNat < 0x100 := by omega
    rw [← complement_of_negative 8 0x80 rfl rfl rfl negative (by omega)]
    exact readLead_marked byte fun _ => rfl
  split
  next two =>
    have bytes : (i.toInt + 0x10000).toNat < 0x10000 := by omega
    rw [← complement_of_negative 16 0x8000 rfl rfl rfl negative (by omega)]
    exact readLead_marked bytes fun _ => rfl
  split
  next four =>
    have bytes : (i.toInt + 0x100000000).toNat < 0x100000000 := by omega
    rw [← complement_of_negative 32 0x80000000 rfl rfl rfl negative (by omega)]
    exact readLead_marked bytes fun _ => rfl
  have bytes : (i.toInt + 0x10000000000000000).toNat < 0x10000000000000000 := by omega
  rw [← complement_of_negative 64 0x8000000000000000 rfl rfl rfl negative (by omega)]
  exact readLead_marked bytes fun _ => rfl

theorem readLead_writeInt (i : Int64) :
    readLead (writeInt i.toInt ++ rest) = some (.value (Value.ofInt64 i), rest) := by
  by_cases negative : i.toInt < 0
  · exact readLead_writeNegative negative
  · have positive : 0 ≤ i.toInt := Int.not_lt.mp negative
    have greatest : i.toInt < 0x8000000000000000 := i.toInt_lt
    rw [writeInt, if_pos positive, readLead_writeNat (by omega), Value.ofInt64_of_nonneg positive]
    rfl

end WampClient.MessagePack
