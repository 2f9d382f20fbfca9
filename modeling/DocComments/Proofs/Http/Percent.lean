import DocComments.Http.Address
import Mathlib.Data.List.Basic

/-! Decoding of text in addresses. What holds no percent sign stands for itself. -/
namespace DocComments.Http

section Bytes

private theorem toList_loop (bytes : ByteArray) (i : Nat) (done : List UInt8) :
    ByteArray.toList.loop bytes i done = done.reverse ++ bytes.data.toList.drop i := by
  fun_induction ByteArray.toList.loop bytes i done with
  | case1 i done hlt ih =>
    have hlength : i < bytes.data.toList.length := by simpa using hlt
    have hget : bytes.get! i = bytes.data.toList[i] := by
      obtain ⟨data⟩ := bytes
      exact getElem!_pos data i hlt
    rw [ih, hget, List.drop_eq_getElem_cons hlength, List.reverse_cons, List.append_assoc,
      List.singleton_append]
  | case2 i done hge =>
    rw [List.drop_eq_nil_of_le (by simpa using Nat.le_of_not_lt hge), List.append_nil]

private theorem toList_bytes (bytes : ByteArray) : bytes.toList = bytes.data.toList := by
  rw [ByteArray.toList, toList_loop]
  rfl

private theorem bytesOf_eq (s : List Char) : bytesOf s = s.flatMap String.utf8EncodeChar := by
  rw [bytesOf, toList_bytes, String.toUTF8_eq_toByteArray, String.toByteArray_ofList, List.utf8Encode,
    List.toList_data_toByteArray]

end Bytes

private theorem percentDecode_of_not_mem {s : List Char} (h : '%' ∉ s) :
    percentDecode s = s.flatMap String.utf8EncodeChar := by
  induction s with
  | nil => rfl
  | cons c s ih =>
    rw [List.mem_cons, not_or] at h
    rw [percentDecode, ih h.2, bytesOf_eq, List.flatMap_singleton, List.flatMap_cons]
    exact fun _ _ _ hc => absurd hc.symm h.1

theorem decodedText?_of_not_mem {s : String} (h : '%' ∉ s.toList) : decodedText? s.toList = some s := by
  have hbytes : (⟨(percentDecode s.toList).toArray⟩ : ByteArray) = s.toByteArray := by
    rw [percentDecode_of_not_mem h, ← String.utf8Encode_toList, List.utf8Encode]
    exact ByteArray.ext (Array.toList_inj.mp List.toList_data_toByteArray.symm)
  rw [decodedText?, hbytes, String.fromUTF8?, dif_pos s.isValidUTF8]
  rfl

end DocComments.Http
