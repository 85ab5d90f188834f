/-
This file says which bytes a text is stored as.
-/

namespace LightList.Text

def bytes (text : String) : List UInt8 := text.toUTF8.toList

/-- The bytes from the index on are put behind those in front. -/
theorem loop_eq_append_drop (array : ByteArray) (index : Nat) (front : List UInt8) :
    ByteArray.toList.loop array index front = front.reverse ++ array.data.toList.drop index := by
  fun_induction ByteArray.toList.loop array index front with
  | case1 index front within inductionHypothesis =>
      have inside : index < array.data.toList.length := within
      have found : array.get! index = array.data.toList[index] := by
        simp [ByteArray.get!, within]
      rw [inductionHypothesis, List.reverse_cons, List.append_assoc, found,
        List.drop_eq_getElem_cons inside, List.singleton_append]
  | case2 index front beyond =>
      have outside : array.data.toList.length ≤ index := Nat.le_of_not_lt beyond
      rw [List.drop_eq_nil_of_le outside, List.append_nil]

/-- The characters are encoded one after the other. -/
theorem bytes_eq (text : String) : bytes text = text.toList.flatMap String.utf8EncodeChar := by
  unfold bytes ByteArray.toList
  rw [loop_eq_append_drop, List.reverse_nil, List.nil_append, List.drop_zero,
    String.toUTF8_eq_toByteArray, ← String.utf8Encode_toList, List.utf8Encode,
    List.data_toByteArray]

/-- An ASCII character is one byte. -/
theorem utf8EncodeChar_ascii {character : Char} (ascii : character.toNat < 128) :
    String.utf8EncodeChar character = [UInt8.ofNat character.toNat] :=
  if_pos (Nat.le_of_lt_succ ascii)

theorem bytes_append (first second : String) :
    bytes (first ++ second) = bytes first ++ bytes second := by
  rw [bytes_eq, bytes_eq, bytes_eq, String.toList_append, List.flatMap_append]

theorem bytes_ofList (characters : List Char) :
    bytes (String.ofList characters) = characters.flatMap String.utf8EncodeChar := by
  rw [bytes_eq, String.toList_ofList]

theorem bytes_join (texts : List String) : bytes (String.join texts) = texts.flatMap bytes := by
  induction texts with
  | nil => rw [String.join_nil, bytes_eq, String.toList_empty, List.flatMap_nil, List.flatMap_nil]
  | cons text rest inductionHypothesis =>
      rw [String.join_cons, bytes_append, inductionHypothesis, List.flatMap_cons]

/-- The bytes of a text are decoded to it. -/
theorem fromUTF8?_bytes (text : String) :
    String.fromUTF8? ⟨(bytes text).toArray⟩ = some text := by
  have encoded : (⟨(bytes text).toArray⟩ : ByteArray) = text.toByteArray := by
    rw [bytes_eq, ← String.utf8Encode_toList, List.utf8Encode, ByteArray.ext_iff,
      List.data_toByteArray]
  unfold String.fromUTF8?
  rw [encoded, dif_pos text.isValidUTF8]
  rfl

end LightList.Text
