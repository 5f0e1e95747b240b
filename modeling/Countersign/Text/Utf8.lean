/-! Texts as bytes in UTF-8. -/

namespace Countersign.Text

def utf8 (s : String) : List UInt8 := s.toList.flatMap String.utf8EncodeChar

/-- The text that is written in `bs`, if they are well-formed. -/
def ofUtf8? (bs : List UInt8) : Option String := String.fromUTF8? bs.toByteArray

theorem toByteArray_utf8 (s : String) : (utf8 s).toByteArray = s.toByteArray := by
  conv => rhs; rw [← String.ofList_toList (s := s), String.toByteArray_ofList]
  rfl

theorem ofUtf8?_utf8 (s : String) : ofUtf8? (utf8 s) = some s := by
  rw [ofUtf8?, toByteArray_utf8, String.fromUTF8?, dif_pos s.isValidUTF8]
  rfl

theorem eq_utf8_of_ofUtf8? {bs : List UInt8} {s : String} (h : ofUtf8? bs = some s) :
    bs = utf8 s := by
  rw [ofUtf8?, String.fromUTF8?] at h
  split at h
  · cases h
    have hbytes := toByteArray_utf8 (String.fromUTF8 bs.toByteArray ‹_›)
    have hdata : (utf8 _).toByteArray.data = bs.toByteArray.data := congrArg ByteArray.data hbytes
    rw [List.data_toByteArray, List.data_toByteArray] at hdata
    exact (List.toArray_inj hdata).symm
  · cases h

theorem utf8_append (s t : String) : utf8 (s ++ t) = utf8 s ++ utf8 t := by
  simp [utf8]

theorem eq_of_mem_utf8EncodeChar {c : Char} {b : UInt8} (hb : b.toNat < 0x80)
    (h : b ∈ String.utf8EncodeChar c) : b.toNat = c.toNat := by
  have hc : c.val.toNat = c.toNat := rfl
  simp only [String.utf8EncodeChar, hc] at h
  split at h
  · have hb' : b = UInt8.ofNat c.toNat := by simpa using h
    rw [hb', UInt8.toNat_ofNat']
    omega
  -- Every byte of a longer form has its highest bit set.
  · split at h
    · simp only [List.mem_cons, List.not_mem_nil, or_false] at h
      rcases h with rfl | rfl <;> rw [UInt8.toNat_ofNat'] at hb <;> omega
    · split at h
      · simp only [List.mem_cons, List.not_mem_nil, or_false] at h
        rcases h with rfl | rfl | rfl <;> rw [UInt8.toNat_ofNat'] at hb <;> omega
      · simp only [List.mem_cons, List.not_mem_nil, or_false] at h
        rcases h with rfl | rfl | rfl | rfl <;> rw [UInt8.toNat_ofNat'] at hb <;> omega

/-- A byte of the ASCII range stands for its character. -/
theorem exists_mem_of_mem_utf8 {s : String} {b : UInt8} (hb : b.toNat < 0x80) (h : b ∈ utf8 s) :
    ∃ c ∈ s.toList, c.toNat = b.toNat := by
  obtain ⟨c, hc, hmem⟩ := List.mem_flatMap.1 h
  exact ⟨c, hc, (eq_of_mem_utf8EncodeChar hb hmem).symm⟩

end Countersign.Text
