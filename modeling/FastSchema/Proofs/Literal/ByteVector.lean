import FastSchema.Literal.ByteVector
import FastSchema.Proofs.Text.Utf8
import Mathlib.Algebra.Ring.Parity

/-! # Byte vector literals as characters

A literal is read byte by byte, yet what comes of it can be told from its characters: the first one
that may not stand there, the number of its digits, and the bytes that they spell in pairs. -/

namespace FastSchema.ByteVector

open Text

/-! ## Characters and bytes -/

def blanks : List Char := [' ', '\t', '\r', '\n']

def hexDigits : List Char := "0123456789abcdefABCDEF".toList

def Permitted (c : Char) : Prop := c ∈ blanks ∨ c ∈ hexDigits

theorem ascii_of_permitted {c : Char} (h : Permitted c) : c.toNat < 0x80 := by
  have hall : (blanks ++ hexDigits).all fun c => c.toNat < 0x80 := by decide
  exact of_decide_eq_true (List.all_eq_true.mp hall c (List.mem_append.mpr h))

theorem not_mem_blanks_of_mem_hexDigits {c : Char} (h : c ∈ hexDigits) : c ∉ blanks := by
  have hall : hexDigits.all fun c => c ∉ blanks := by decide
  exact of_decide_eq_true (List.all_eq_true.mp hall c h)

theorem isIgnored_of_ascii {c : Char} (h : c.toNat < 0x80) :
    isIgnored c.toUInt8 = decide (c ∈ blanks) :=
  forall_ascii (p := fun c => isIgnored c.toUInt8 = decide (c ∈ blanks)) (by decide +kernel) h

theorem isOther_of_ascii {c : Char} (h : c.toNat < 0x80) :
    isOther c.toUInt8 = decide (c ∉ hexDigits) :=
  forall_ascii (p := fun c => isOther c.toUInt8 = decide (c ∉ hexDigits)) (by decide +kernel) h

/-- A byte outside ASCII is neither passed over nor a digit. -/
theorem of_high_byte {b : UInt8} (h : 0x80 ≤ b) : isIgnored b = false ∧ isOther b = true := by
  have hall : ∀ n < 0x100, 0x80 ≤ n →
      isIgnored (.ofNat n) = false ∧ isOther (.ofNat n) = true := by decide +kernel
  have hbyte := hall b.toNat b.toNat_lt (UInt8.le_iff_toNat_le.mp h)
  rwa [UInt8.ofNat_toNat] at hbyte

theorem filter_utf8EncodeChar (c : Char) :
    (String.utf8EncodeChar c).filter (!isIgnored ·) =
      if c ∈ blanks then [] else String.utf8EncodeChar c := by
  rcases Nat.lt_or_ge c.toNat 0x80 with hascii | hhigh
  · rw [utf8EncodeChar_of_ascii hascii, List.filter_cons, isIgnored_of_ascii hascii]
    by_cases hc : c ∈ blanks <;> simp [hc]
  · have hc : c ∉ blanks := fun hc => Nat.not_le_of_lt (ascii_of_permitted (.inl hc)) hhigh
    rw [if_neg hc, List.filter_eq_self]
    intro b hb
    simp [(of_high_byte (le_of_mem_utf8EncodeChar hhigh hb)).1]

/-- Passing over bytes is passing over characters. -/
theorem filter_utf8 (cs : List Char) :
    (cs.flatMap String.utf8EncodeChar).filter (!isIgnored ·) =
      (cs.filter (· ∉ blanks)).flatMap String.utf8EncodeChar := by
  induction cs with
  | nil => rfl
  | cons c cs ih =>
      rw [List.flatMap_cons, List.filter_append, ih, filter_utf8EncodeChar, List.filter_cons]
      by_cases hc : c ∈ blanks <;> simp [hc]

theorem flatMap_utf8_of_hexDigits {cs : List Char} (h : ∀ c ∈ cs, c ∈ hexDigits) :
    cs.flatMap String.utf8EncodeChar = cs.map Char.toUInt8 := by
  induction cs with
  | nil => rfl
  | cons c cs ih =>
      rw [List.forall_mem_cons] at h
      rw [List.flatMap_cons, utf8EncodeChar_of_ascii (ascii_of_permitted (.inr h.1)), ih h.2]
      rfl

theorem find?_of_hexDigits {cs : List Char} (h : ∀ c ∈ cs, c ∈ hexDigits) :
    (cs.map Char.toUInt8).find? isOther = none := by
  rw [List.find?_eq_none]
  intro b hb
  obtain ⟨c, hc, rfl⟩ := List.mem_map.mp hb
  simp [isOther_of_ascii (ascii_of_permitted (.inr (h c hc))), h c hc]

/-! ## The offending character -/

/-- The first byte that is no digit belongs to the first character that is none. -/
theorem find?_first {before : List Char} {c : Char} (h : ∀ x ∈ before, x ∈ hexDigits)
    (hc : c ∉ hexDigits) (after : List Char) :
    ∃ b ∈ String.utf8EncodeChar c,
      ((before ++ c :: after).flatMap String.utf8EncodeChar).find? isOther = some b := by
  rw [List.flatMap_append, List.flatMap_cons, flatMap_utf8_of_hexDigits h, List.find?_append,
    find?_of_hexDigits h, Option.none_or, List.find?_append]
  have hother : ∀ b ∈ String.utf8EncodeChar c, isOther b := by
    intro b hb
    rcases Nat.lt_or_ge c.toNat 0x80 with hascii | hhigh
    · rw [utf8EncodeChar_of_ascii hascii, List.mem_singleton] at hb
      simp [hb, isOther_of_ascii hascii, hc]
    · exact (of_high_byte (le_of_mem_utf8EncodeChar hhigh hb)).2
  obtain ⟨b, bytes, hbytes⟩ := List.exists_cons_of_ne_nil (String.utf8EncodeChar_ne_nil (c := c))
  rw [hbytes] at hother ⊢
  exact ⟨b, by simp, by simp [hother b (by simp)]⟩

/-- The character that is reported for a byte is the one that the byte belongs to, where only ASCII
stands before it. -/
theorem offender_eq {literal : String} {before after : List Char} {c : Char} {b : UInt8}
    (hliteral : literal.toList = before ++ c :: after) (hbefore : ∀ x ∈ before, x.toNat < 0x80)
    (hb : b ∈ String.utf8EncodeChar c) : offender literal b = c := by
  unfold offender
  rcases Nat.lt_or_ge c.toNat 0x80 with hascii | hhigh
  · rw [utf8EncodeChar_of_ascii hascii, List.mem_singleton] at hb
    have hvalue : b.toNat = c.toNat := by
      rw [hb, Char.toUInt8, UInt32.toNat_toUInt8]
      exact Nat.mod_eq_of_lt (Nat.lt_trans hascii (by decide))
    rw [if_pos (UInt8.lt_iff_toNat_lt.mpr (hvalue ▸ hascii)), hvalue, Char.ofNat_toNat]
  · have hlow : ¬ b < 0x80 := UInt8.not_lt.mpr (le_of_mem_utf8EncodeChar hhigh hb)
    have hnone : before.find? (0x80 ≤ ·.toNat) = none := by
      rw [List.find?_eq_none]
      intro x hx
      simpa using hbefore x hx
    rw [if_neg hlow, hliteral, List.find?_append, hnone]
    simp [hhigh]

/-! ## Spelling -/

/-- Digits, in any case, that spell bytes in pairs: the high half of each byte and then the low
one. -/
inductive Spells : List UInt8 → List Char → Prop where
  | nil : Spells [] []
  | cons {b : UInt8} {bytes : List UInt8} {high low : Char} {cs : List Char}
      (hhigh : high ∈ [lowerDigit (b.toNat / 16), upperDigit (b.toNat / 16)])
      (hlow : low ∈ [lowerDigit (b.toNat % 16), upperDigit (b.toNat % 16)])
      (hrest : Spells bytes cs) : Spells (b :: bytes) (high :: low :: cs)

theorem nibble?_of_digit {n : ℕ} (hn : n < 16) {c : Char} (hc : c ∈ [lowerDigit n, upperDigit n]) :
    c ∈ hexDigits ∧ nibble? c.toUInt8 = some n := by
  have hall : ∀ n < 16, [lowerDigit n, upperDigit n].all fun c =>
      c ∈ hexDigits ∧ nibble? c.toUInt8 = some n := by decide +kernel
  exact of_decide_eq_true (List.all_eq_true.mp (hall n hn) c hc)

theorem exists_nibble? {c : Char} (hc : c ∈ hexDigits) :
    ∃ n < 16, nibble? c.toUInt8 = some n ∧ c ∈ [lowerDigit n, upperDigit n] := by
  have hall : hexDigits.all fun c => (List.range 16).any fun n =>
      nibble? c.toUInt8 = some n ∧ c ∈ [lowerDigit n, upperDigit n] := by decide +kernel
  obtain ⟨n, hn, hdigit⟩ := List.any_eq_true.mp (List.all_eq_true.mp hall c hc)
  exact ⟨n, List.mem_range.mp hn, of_decide_eq_true hdigit⟩

theorem decodePairs_cons {high low : UInt8} {h l : ℕ} (hh : nibble? high = some h)
    (hl : nibble? low = some l) (index : ℕ) (rest : List UInt8) :
    decodePairs index (high :: low :: rest) =
      (decodePairs (index + 2) rest).map (.ofNat (16 * h + l) :: ·) := by
  simp only [decodePairs, nibbleAt, hh, hl]
  rfl

/-- What spells bytes is decoded to them. -/
theorem Spells.decodePairs_eq {bytes : List UInt8} {cs : List Char} (h : Spells bytes cs)
    (index : ℕ) : decodePairs index (cs.map Char.toUInt8) = .ok bytes := by
  induction h generalizing index with
  | nil => rfl
  | @cons b bytes high low cs hhigh hlow _ ih =>
      have hbyte : b.toNat < 256 := b.toNat_lt
      rw [List.map_cons, List.map_cons, decodePairs_cons (nibble?_of_digit (by omega) hhigh).2
        (nibble?_of_digit (by omega) hlow).2, ih (index + 2), Nat.div_add_mod, UInt8.ofNat_toNat]
      rfl

theorem Spells.hexDigits {bytes : List UInt8} {cs : List Char} (h : Spells bytes cs) :
    (∀ c ∈ cs, c ∈ hexDigits) ∧ Even cs.length := by
  induction h with
  | nil => exact ⟨by simp, by simp⟩
  | @cons b bytes high low cs hhigh hlow _ ih =>
      have hbyte : b.toNat < 256 := b.toNat_lt
      have hhigh := (nibble?_of_digit (by omega) hhigh).1
      have hlow := (nibble?_of_digit (by omega) hlow).1
      exact ⟨by simpa [hhigh, hlow] using ih.1, by simpa [Nat.even_add_one] using ih.2⟩

/-- Digits of an even number spell some bytes. -/
theorem exists_spells : ∀ cs : List Char, (∀ c ∈ cs, c ∈ hexDigits) → Even cs.length →
    ∃ bytes, Spells bytes cs
  | [], _, _ => ⟨[], .nil⟩
  | [_], _, heven => absurd heven (by simp)
  | high :: low :: cs, hdigits, heven => by
    rw [List.forall_mem_cons, List.forall_mem_cons] at hdigits
    obtain ⟨hhigh, hlow, hrest⟩ := hdigits
    obtain ⟨bytes, hbytes⟩ := exists_spells cs hrest (by simpa [Nat.even_add_one] using heven)
    obtain ⟨h, hh, -, hhigh⟩ := exists_nibble? hhigh
    obtain ⟨l, hl, -, hlow⟩ := exists_nibble? hlow
    have hbyte : (UInt8.ofNat (16 * h + l)).toNat = 16 * h + l := by
      rw [UInt8.toNat_ofNat']
      exact Nat.mod_eq_of_lt (by omega)
    refine ⟨.ofNat (16 * h + l) :: bytes, .cons ?_ ?_ hbytes⟩
    · rwa [hbyte, show (16 * h + l) / 16 = h by omega]
    · rwa [hbyte, show (16 * h + l) % 16 = l by omega]

/-! ## Reading -/

def written (literal : String) : List Char := literal.toList.filter (· ∉ blanks)

theorem digits_eq (literal : String) :
    digits literal = (written literal).flatMap String.utf8EncodeChar :=
  filter_utf8 literal.toList

theorem hexDigits_of_permitted {cs : List Char} (h : ∀ c ∈ cs, Permitted c) :
    ∀ c ∈ cs.filter (· ∉ blanks), c ∈ hexDigits := by
  intro c hc
  obtain ⟨hc, hblank⟩ := List.mem_filter.mp hc
  exact (h c hc).resolve_left (by simpa using hblank)

theorem permitted_of_hexDigits {cs : List Char} (h : ∀ c ∈ cs.filter (· ∉ blanks), c ∈ hexDigits) :
    ∀ c ∈ cs, Permitted c := by
  intro c hc
  by_cases hblank : c ∈ blanks
  · exact .inl hblank
  · exact .inr (h c (List.mem_filter.mpr ⟨hc, by simpa using hblank⟩))

theorem parse_of_first {literal : String} {before after : List Char} {c : Char}
    (hliteral : literal.toList = before ++ c :: after) (hbefore : ∀ x ∈ before, Permitted x)
    (hc : ¬ Permitted c) : parse literal = .error (.invalidByteVectorChar literal c) := by
  obtain ⟨hblank, hdigit⟩ := not_or.mp hc
  have hwritten : written literal =
      before.filter (· ∉ blanks) ++ c :: after.filter (· ∉ blanks) := by
    rw [written, hliteral, List.filter_append, List.filter_cons_of_pos (by simpa using hblank)]
  obtain ⟨b, hb, hfind⟩ := find?_first (hexDigits_of_permitted hbefore) hdigit
    (after.filter (· ∉ blanks))
  have hoffender := offender_eq hliteral (fun x hx => ascii_of_permitted (hbefore x hx)) hb
  rw [parse, digits_eq, hwritten, hfind, ← hoffender]

variable {literal : String}

theorem digits_of_permitted (h : ∀ c ∈ literal.toList, Permitted c) :
    digits literal = (written literal).map Char.toUInt8 ∧
      (digits literal).find? isOther = none := by
  have hdigits : digits literal = (written literal).map Char.toUInt8 := by
    rw [digits_eq]
    exact flatMap_utf8_of_hexDigits (hexDigits_of_permitted h)
  refine ⟨hdigits, ?_⟩
  rw [hdigits]
  exact find?_of_hexDigits (hexDigits_of_permitted h)

theorem parse_of_odd (h : ∀ c ∈ literal.toList, Permitted c) (hodd : Odd (written literal).length) :
    parse literal = .error (.oddByteVector literal) := by
  obtain ⟨hdigits, hfind⟩ := digits_of_permitted h
  have hlength : (digits literal).length % 2 ≠ 0 := by
    rw [hdigits, List.length_map, Nat.odd_iff.mp hodd]
    decide
  rw [parse, hfind]
  exact if_pos hlength

theorem parse_of_spells {bytes : List UInt8} (h : Spells bytes (written literal)) :
    parse literal = .ok bytes := by
  obtain ⟨hhex, heven⟩ := h.hexDigits
  obtain ⟨hdigits, hfind⟩ := digits_of_permitted (permitted_of_hexDigits hhex)
  have hlength : (digits literal).length % 2 = 0 := by
    rw [hdigits, List.length_map, Nat.even_iff.mp heven]
  have hdecode : decodeHex (digits literal) = .ok bytes := by
    rw [decodeHex, if_pos hlength, hdigits, h.decodePairs_eq 0]
  rw [parse, hfind]
  simp only [hlength, hdecode]
  rfl

/-- A literal has a first character that may not stand there, or none. -/
theorem permitted_or_exists_first (cs : List Char) :
    (∀ c ∈ cs, Permitted c) ∨ ∃ before c after, cs = before ++ c :: after ∧
      (∀ x ∈ before, Permitted x) ∧ ¬ Permitted c := by
  induction cs with
  | nil => exact .inl (by simp)
  | cons c cs ih =>
      by_cases hc : Permitted c
      · rcases ih with hall | ⟨before, d, after, rfl, hbefore, hd⟩
        · exact .inl (List.forall_mem_cons.mpr ⟨hc, hall⟩)
        · exact .inr ⟨c :: before, d, after, rfl, List.forall_mem_cons.mpr ⟨hc, hbefore⟩, hd⟩
      · exact .inr ⟨[], c, cs, rfl, by simp, hc⟩

/-- A literal is read, or the fault names what is wrong with it. -/
theorem parse_cases (literal : String) :
    (∃ c, parse literal = .error (.invalidByteVectorChar literal c)) ∨
      parse literal = .error (.oddByteVector literal) ∨ ∃ bytes, parse literal = .ok bytes := by
  rcases permitted_or_exists_first literal.toList with h | ⟨before, c, after, hliteral, hbefore, hc⟩
  · rcases Nat.even_or_odd (written literal).length with heven | hodd
    · obtain ⟨bytes, hbytes⟩ := exists_spells _ (hexDigits_of_permitted h) heven
      exact .inr (.inr ⟨bytes, parse_of_spells hbytes⟩)
    · exact .inr (.inl (parse_of_odd h hodd))
  · exact .inl ⟨c, parse_of_first hliteral hbefore hc⟩

/-- What reading the literal of a byte vector has to answer. A character that may not stand there is
reported before an odd number of digits is. -/
structure HexSpec (literal : String) : Prop where
  invalid : ∀ before c after, literal.toList = before ++ c :: after →
    (∀ x ∈ before, Permitted x) → ¬ Permitted c →
    parse literal = .error (.invalidByteVectorChar literal c)
  odd : (∀ c ∈ literal.toList, Permitted c) → Odd (literal.toList.countP (· ∈ hexDigits)) →
    parse literal = .error (.oddByteVector literal)
  even : (∀ c ∈ literal.toList, Permitted c) → Even (literal.toList.countP (· ∈ hexDigits)) →
    ∃ bytes, parse literal = .ok bytes ∧ Spells bytes (literal.toList.filter (· ∉ blanks))
  spelled : ∀ bytes, Spells bytes (literal.toList.filter (· ∉ blanks)) → parse literal = .ok bytes
  not_internal : ∀ misuse, parse literal ≠ .error (.internal misuse)

theorem countP_hexDigits (h : ∀ c ∈ literal.toList, Permitted c) :
    literal.toList.countP (· ∈ hexDigits) = (written literal).length := by
  rw [List.countP_eq_length_filter, written]
  congr 1
  refine List.filter_congr fun c hc => decide_eq_decide.mpr ?_
  exact ⟨not_mem_blanks_of_mem_hexDigits, fun hblank => (h c hc).resolve_left hblank⟩

theorem hex_spec (literal : String) : HexSpec literal := by
  refine ⟨fun before c after => parse_of_first, fun h hodd => ?_, fun h heven => ?_,
    fun bytes => parse_of_spells, fun misuse hparse => ?_⟩
  · rw [countP_hexDigits h] at hodd
    exact parse_of_odd h hodd
  · rw [countP_hexDigits h] at heven
    obtain ⟨bytes, hbytes⟩ := exists_spells _ (hexDigits_of_permitted h) heven
    exact ⟨bytes, parse_of_spells hbytes, hbytes⟩
  · rcases parse_cases literal with ⟨c, h⟩ | h | ⟨bytes, h⟩ <;> rw [h] at hparse <;> cases hparse

end FastSchema.ByteVector
