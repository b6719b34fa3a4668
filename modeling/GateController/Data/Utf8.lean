import Mathlib.Data.List.Basic

/-!
# UTF-8

The bytes of a text, as a list, and the text of bytes.
-/

namespace Data

namespace Utf8

/-- `encode("utf-8")`. -/
def encode (text : String) : List UInt8 := text.toByteArray.data.toList

/-- `decode("utf-8")`, without a value where the bytes are not UTF-8. -/
def decode (bytes : List UInt8) : Option String := String.fromUTF8? ⟨bytes.toArray⟩

@[simp] theorem decode_encode (text : String) : decode (encode text) = some text := by
  rw [decode, encode, Array.toArray_toList, String.fromUTF8?, dif_pos (String.isValidUTF8 _)]
  rfl

/-- The bytes of a list of characters. -/
theorem encode_ofList (text : List Char) :
    encode (String.ofList text) = text.flatMap String.utf8EncodeChar := by
  rw [encode, String.toByteArray_ofList, List.utf8Encode, List.data_toByteArray]

theorem encode_append (text other : String) :
    encode (text ++ other) = encode text ++ encode other := by
  rw [← String.ofList_toList (s := text ++ other), String.toList_append, encode_ofList,
    List.flatMap_append, ← encode_ofList, ← encode_ofList, String.ofList_toList,
    String.ofList_toList]

/-- A character is at least one byte. -/
theorem length_le_encode (text : List Char) : text.length ≤ (encode (String.ofList text)).length := by
  rw [encode_ofList]
  induction text with
  | nil => exact Nat.le_refl 0
  | cons c rest ih =>
      have hc := String.length_utf8EncodeChar c
      have hpos := Char.utf8Size_pos c
      rw [List.flatMap_cons, List.length_append, List.length_cons]
      omega

end Utf8

end Data
