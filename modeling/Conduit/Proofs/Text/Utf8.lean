import Conduit.Text.Utf8

/-!
Text in bytes. Encoding keeps the order of texts and tells them apart, and strict decoding undoes it.
-/
namespace Conduit.Text

theorem encode_append (s t : String) : encode (s ++ t) = encode s ++ encode t := by
  simp [encode]

theorem encode_inj {s t : String} : encode s = encode t ↔ s = t := by
  rw [encode, encode, Array.toList_inj, ← ByteArray.ext_iff]
  exact String.toByteArray_inj

theorem encode_eq_nil {s : String} : encode s = [] ↔ s = "" :=
  encode_inj (t := "")

theorem decode?_encode (s : String) : decode? (encode s) = some s := by
  have hbytes : (⟨(encode s).toArray⟩ : ByteArray) = s.toUTF8 := by simp [encode]
  have hvalid : s.toUTF8.IsValidUTF8 := s.isValidUTF8
  rw [decode?, hbytes, String.fromUTF8?, dif_pos hvalid]
  rfl

end Conduit.Text
