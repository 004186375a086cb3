import QueryTelemetry.Text.Utf8

/-!
# Texts in UTF-8

A text is read back from its bytes, and a byte below 128 stands for itself only, so a control
character that is not in a text is not among its bytes.
-/

namespace QueryTelemetry

namespace Text

/-- A text is read back from its bytes. -/
theorem ofUtf8?_utf8 (text : String) : ofUtf8? (utf8 text) = some text := by
  have hbytes : ByteArray.mk (utf8 text).toArray = text.toByteArray := by
    rw [utf8, Array.toArray_toList]
    rfl
  have hvalid : text.toByteArray.IsValidUTF8 := text.isValidUTF8
  rw [ofUtf8?, hbytes, String.fromUTF8?, dif_pos hvalid]
  rfl

/-- The bytes of a text are those of its characters. -/
theorem utf8_eq_flatMap (text : String) :
    utf8 text = text.toList.flatMap String.utf8EncodeChar := by
  have hencode : text.toByteArray = text.toList.utf8Encode := String.utf8Encode_toList.symm
  rw [utf8, String.toUTF8, hencode, List.utf8Encode]
  exact List.toList_data_toByteArray

/-- A byte of a character is the character itself, or it is not below 128. -/
theorem toNat_of_mem_utf8EncodeChar {c : Char} {byte : UInt8}
    (h : byte ∈ String.utf8EncodeChar c) : byte.toNat = c.toNat ∨ 128 ≤ byte.toNat := by
  unfold String.utf8EncodeChar at h
  simp only at h
  split at h
  · rename_i hascii
    obtain rfl := List.mem_singleton.mp h
    refine .inl ?_
    rw [UInt8.toNat_ofNat', Char.toNat]
    omega
  · -- each byte of a longer form has its highest bit set
    refine .inr ?_
    repeat' split at h
    all_goals
      simp only [List.mem_cons, List.not_mem_nil, or_false] at h
      rcases h with rfl | rfl | rfl | rfl
      all_goals
        rw [UInt8.toNat_ofNat']
        omega

/-- Without control characters in a text there are none among its bytes. -/
theorem toNat_ge_of_mem_utf8 {text : String} (h : ∀ c ∈ text.toList, 0x20 ≤ c.toNat) {byte : UInt8}
    (hbyte : byte ∈ utf8 text) : 0x20 ≤ byte.toNat := by
  rw [utf8_eq_flatMap, List.mem_flatMap] at hbyte
  obtain ⟨c, hc, hbyte⟩ := hbyte
  have hbound := h c hc
  rcases toNat_of_mem_utf8EncodeChar hbyte with hsame | hhigh
  · omega
  · omega

end Text

end QueryTelemetry
