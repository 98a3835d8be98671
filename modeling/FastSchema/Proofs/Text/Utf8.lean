import FastSchema.Text.Bytes
import Mathlib.Tactic.SplitIfs

/-! # Texts and their bytes

The bytes of a text are well formed UTF-8 and lead back to it. A character in ASCII is one byte, and
of any other character no byte is in ASCII. -/

namespace FastSchema.Text

/-! ## Encoding and decoding -/

theorem toByteArray_eq (s : String) : s.toByteArray = ⟨(utf8 s).toArray⟩ := by
  have hlist : s.toByteArray = (utf8 s).toByteArray := by
    conv => lhs; rw [← String.ofList_toList (s := s), String.toByteArray_ofList]
    rfl
  rw [hlist]
  exact ByteArray.ext List.data_toByteArray

/-- Bytes are read as the text that they encode, and as no other. -/
theorem ofUtf8?_eq_some_iff {bytes : List UInt8} {s : String} :
    ofUtf8? bytes = some s ↔ bytes = utf8 s := by
  unfold ofUtf8? String.fromUTF8?
  constructor
  · intro h
    split at h
    case isTrue hvalid =>
      have hbytes : s.toByteArray = ⟨bytes.toArray⟩ := by
        rw [← Option.some.inj h]
        rfl
      rw [toByteArray_eq] at hbytes
      simpa using hbytes.symm
    case isFalse => cases h
  · rintro rfl
    rw [← toByteArray_eq, dif_pos s.isValidUTF8]
    rfl

/-! ## ASCII -/

theorem utf8EncodeChar_of_ascii {c : Char} (h : c.toNat < 0x80) :
    String.utf8EncodeChar c = [c.toUInt8] := by
  have hsize : c.utf8Size = 1 := by
    rw [Char.utf8Size_eq_one_iff, UInt32.le_iff_toNat_le]
    exact Nat.le_of_lt_succ h
  exact String.utf8EncodeChar_eq_singleton hsize

/-- Every byte of a longer character has its highest bit set. -/
theorem le_of_mem_utf8EncodeChar {c : Char} (h : 0x80 ≤ c.toNat) {b : UInt8}
    (hb : b ∈ String.utf8EncodeChar c) : 0x80 ≤ b := by
  have hvalue : c.val.toNat = c.toNat := rfl
  rw [UInt8.le_iff_toNat_le]
  unfold String.utf8EncodeChar at hb
  simp only [hvalue, if_neg (show ¬ c.toNat ≤ 127 by omega)] at hb
  split_ifs at hb
  all_goals
    simp only [List.mem_cons, List.not_mem_nil, or_false] at hb
    rcases hb with rfl | rfl | rfl | rfl <;> simp <;> omega

theorem forall_ascii {p : Char → Prop} (h : ∀ n < 0x80, p (Char.ofNat n)) {c : Char}
    (hc : c.toNat < 0x80) : p c := by
  have hp := h c.toNat hc
  rwa [Char.ofNat_toNat] at hp

end FastSchema.Text
