import WampClient.Text.Utf8

/-! The bytes of a text, read, are the text. -/
namespace WampClient.Text

theorem toList_loop (b : ByteArray) (i : Nat) (front : List UInt8) :
    ByteArray.toList.loop b i front = front.reverse ++ b.data.toList.drop i := by
  fun_induction ByteArray.toList.loop b i front with
  | case1 i front inside ih =>
    have inside' : i < b.data.toList.length := by simpa using inside
    rw [ih, List.drop_eq_getElem_cons inside']
    simp [ByteArray.get!, inside]
  | case2 i front outside =>
    have past : b.data.toList.length ≤ i := by simpa using Nat.le_of_not_lt outside
    rw [List.drop_eq_nil_of_le past, List.append_nil]

theorem bytesOf_eq (s : String) : bytesOf s = s.toByteArray.data.toList := by
  rw [bytesOf, ByteArray.toList, toList_loop]
  rfl

theorem length_bytesOf (s : String) : (bytesOf s).length = s.utf8ByteSize := by
  rw [bytesOf_eq]
  rfl

theorem toByteArray_bytesOf (s : String) : (bytesOf s).toByteArray = s.toByteArray := by
  apply ByteArray.ext
  rw [bytesOf_eq, List.data_toByteArray, Array.toArray_toList]

@[simp] theorem ofBytes?_bytesOf (s : String) : ofBytes? (bytesOf s) = some s := by
  rw [ofBytes?, toByteArray_bytesOf, String.fromUTF8?, dif_pos s.isValidUTF8]
  rfl

@[simp] theorem charsOf_bytesOf (s : String) : charsOf (bytesOf s) = s.toList := by
  rw [charsOf, ofBytes?_bytesOf]

end WampClient.Text
