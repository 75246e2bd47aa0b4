import Mathlib.Data.List.TakeDrop

/-!
The bytes of texts as lists: how many they are, and that they tell texts apart.
-/

set_option autoImplicit false
set_option relaxedAutoImplicit false

namespace ShaderPipeline.Text

private theorem toList_loop (bytes : ByteArray) (i : Nat) (read : List UInt8) :
    ByteArray.toList.loop bytes i read = read.reverse ++ bytes.data.toList.drop i := by
  have length : bytes.data.toList.length = bytes.size := Array.length_toList
  fun_induction ByteArray.toList.loop bytes i read with
  | case1 i read less ih =>
    have inside : i < bytes.data.toList.length := length ▸ less
    have here : bytes.get! i = bytes.data.toList[i] := by
      rw [ByteArray.get!, Array.getElem_toList]
      exact getElem!_pos bytes.data i less
    rw [ih, List.drop_eq_getElem_cons inside, here, List.reverse_cons, List.append_assoc,
      List.singleton_append]
  | case2 i read more =>
    have beyond : bytes.data.toList.length ≤ i := length ▸ Nat.le_of_not_lt more
    rw [List.drop_eq_nil_of_le beyond, List.append_nil]

private theorem toList_eq_data (bytes : ByteArray) : bytes.toList = bytes.data.toList := by
  rw [ByteArray.toList, toList_loop]
  rfl

theorem length_encoded (text : String) : text.toUTF8.toList.length = text.utf8ByteSize := by
  rw [toList_eq_data]
  rfl

theorem encoded_injective {text other : String} (same : text.toUTF8.toList = other.toUTF8.toList) :
    text = other := by
  rw [toList_eq_data, toList_eq_data] at same
  exact String.toByteArray_inj.mp (ByteArray.ext (Array.toList_inj.mp same))

end ShaderPipeline.Text
