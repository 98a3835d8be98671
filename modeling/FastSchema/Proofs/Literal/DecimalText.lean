import FastSchema.Proofs.Literal.Decimal
import Mathlib.RingTheory.Multiplicity

/-! # Reading back the text of a decimal

The text of a pair denotes its number, whether the pair is canonical or not. So reading the text
finds the canonical pair of that number. -/

namespace FastSchema

/-! ## Literals are trimmed -/

theorem isBlank_of_isDigit {d : Char} (h : d.isDigit) : Text.isBlank d = false := by
  have hrange : 48 ≤ d.toNat ∧ d.toNat ≤ 57 := Char.isDigit_iff_toNat.mp h
  unfold Text.isBlank
  simp
  omega

theorem isDigit_or_eq_point {s : List Char} {v : ℚ} (h : DenotesUnsigned s v) {c : Char}
    (hc : c ∈ s) : c.isDigit ∨ c = '.' := by
  cases h with
  | whole hds => exact .inl ((isDigits_iff.mp hds).2 c hc)
  | pointed hds hfs =>
      rcases List.mem_append.mp hc with hc | hc
      · exact .inl ((isDigits_iff.mp hds).2 c hc)
      · rcases List.mem_cons.mp hc with rfl | hc
        · exact .inr rfl
        · exact .inl (hfs c hc)
  | fraction hfs =>
      rcases List.mem_cons.mp hc with rfl | hc
      · exact .inr rfl
      · exact .inl ((isDigits_iff.mp hfs).2 c hc)

/-- A literal is made of digits, a point and a sign. -/
theorem isDigit_or_mem_of_denotes {s : List Char} {v : ℚ} (h : Denotes s v) {c : Char}
    (hc : c ∈ s) : c.isDigit ∨ c ∈ ['.', '+', '-'] := by
  have hunsigned : ∀ {t : List Char} {w : ℚ}, DenotesUnsigned t w → c ∈ t →
      c.isDigit ∨ c ∈ ['.', '+', '-'] := by
    intro t w ht hct
    rcases isDigit_or_eq_point ht hct with hdigit | rfl
    · exact .inl hdigit
    · exact .inr (by decide)
  cases h with
  | unsigned h => exact hunsigned h hc
  | plus h =>
      rcases List.mem_cons.mp hc with rfl | hc
      · exact .inr (by decide)
      · exact hunsigned h hc
  | minus h =>
      rcases List.mem_cons.mp hc with rfl | hc
      · exact .inr (by decide)
      · exact hunsigned h hc

theorem isBlank_of_denotes {s : List Char} {v : ℚ} (h : Denotes s v) {c : Char} (hc : c ∈ s) :
    Text.isBlank c = false := by
  have hmarks : ['.', '+', '-'].all fun c => !Text.isBlank c := by decide
  rcases isDigit_or_mem_of_denotes h hc with hdigit | hmark
  · exact isBlank_of_isDigit hdigit
  · simpa using List.all_eq_true.mp hmarks c hmark

/-- A literal has no blank characters to be trimmed. -/
theorem trim_of_denotes {s : List Char} {v : ℚ} (h : Denotes s v) : Text.trim s = s := by
  have hkept : ∀ cs : List Char, (∀ c ∈ cs, c ∈ s) → cs.dropWhile Text.isBlank = cs := by
    intro cs hcs
    rw [List.dropWhile_eq_self_iff]
    intro hne
    simp [isBlank_of_denotes h (hcs _ (List.getElem_mem hne))]
  rw [Text.trim, hkept s fun _ hc => hc, hkept s.reverse fun _ hc => List.mem_reverse.mp hc,
    List.reverse_reverse]

namespace Decimal

/-! ## The number of a pair -/

def value (d : Decimal) : ℚ := d.mantissa.toInt * 10 ^ d.exponent.toInt

/-- Placing the point by the exponent multiplies with the power of ten. -/
theorem denotesUnsigned_unsignedText {ds : List Char} (h : isDigits ds) (e : ℤ) :
    DenotesUnsigned (unsignedText ds e) (digitsValue ds * 10 ^ e) := by
  obtain ⟨hne, hall⟩ := isDigits_iff.mp h
  have hzeros (n : ℕ) : ∀ d ∈ List.replicate n '0', d.isDigit := fun d hd => by
    rw [List.eq_of_mem_replicate hd]
    decide
  unfold unsignedText
  split
  case isTrue he =>
    obtain ⟨n, rfl⟩ := Int.eq_ofNat_of_zero_le he
    have hdigits : isDigits (ds ++ List.replicate n '0') :=
      isDigits_iff.mpr ⟨by simp [hne], List.forall_mem_append.mpr ⟨hall, hzeros n⟩⟩
    have hvalue : (digitsValue (ds ++ List.replicate n '0') : ℚ) =
        digitsValue ds * 10 ^ (n : ℤ) := by
      rw [digitsValue_append, digitsValue_replicate_zero, List.length_replicate]
      push_cast
      rw [add_zero, zpow_natCast]
    rw [Int.toNat_natCast, ← hvalue]
    exact .whole hdigits
  case isFalse he =>
    obtain ⟨scale, rfl⟩ : ∃ scale : ℕ, e = -scale := ⟨(-e).toNat, by omega⟩
    have hten : (10 : ℚ) ^ scale ≠ 0 := pow_ne_zero _ (by norm_num)
    simp only [neg_neg, Int.toNat_natCast, zpow_neg, zpow_natCast, ← div_eq_mul_inv]
    split
    case isTrue hscale =>
      -- The point stands among the digits.
      obtain ⟨whole, fraction, rfl, hlength⟩ :
          ∃ whole fraction, ds = whole ++ fraction ∧ fraction.length = scale :=
        ⟨ds.take (ds.length - scale), ds.drop (ds.length - scale),
          (List.take_append_drop _ _).symm, by rw [List.length_drop]; omega⟩
      have hwhole : whole ≠ [] := by
        rintro rfl
        simp [hlength] at hscale
      rw [List.forall_mem_append] at hall
      have hplace : (whole ++ fraction).length - scale = whole.length := by
        rw [List.length_append, hlength, Nat.add_sub_cancel]
      have hvalue : (digitsValue (whole ++ fraction) : ℚ) / 10 ^ scale =
          digitsValue whole + digitsValue fraction / 10 ^ fraction.length := by
        rw [digitsValue_append, hlength]
        push_cast
        field_simp
      rw [hplace, List.take_left, List.drop_left, hvalue]
      exact .pointed (isDigits_iff.mpr ⟨hwhole, hall.1⟩) hall.2
    case isFalse hscale =>
      -- All digits stand after the point, behind zeros.
      have hlength : (List.replicate (scale - ds.length) '0' ++ ds).length = scale := by
        rw [List.length_append, List.length_replicate]
        omega
      have hvalue : (digitsValue ds : ℚ) / 10 ^ scale = digitsValue ['0'] +
          digitsValue (List.replicate (scale - ds.length) '0' ++ ds) /
            10 ^ (List.replicate (scale - ds.length) '0' ++ ds).length := by
        rw [hlength, digitsValue_append, digitsValue_replicate_zero, Nat.zero_mul, Nat.zero_add]
        simp [digitsValue, digitValue]
      have hwhole : isDigits ['0'] := by decide
      rw [hvalue]
      exact .pointed hwhole (List.forall_mem_append.mpr ⟨hzeros _, hall⟩)

theorem cast_eq_natAbs (n : ℤ) : (n : ℚ) = if n < 0 then -(n.natAbs : ℚ) else n.natAbs := by
  have hcast : (n.natAbs : ℚ) = ((n.natAbs : ℤ) : ℚ) := (Int.cast_natCast _).symm
  rw [hcast]
  split
  case isTrue hnegative =>
    rw [← Int.cast_neg, Int.ofNat_natAbs_of_nonpos hnegative.le, neg_neg]
  case isFalse hnegative => rw [Int.natAbs_of_nonneg (not_lt.mp hnegative)]

theorem denotes_text (d : Decimal) : Denotes d.text.toList d.value := by
  unfold text value
  split
  case isTrue hzero =>
    have hvalue : ((0 : Int64).toInt * 10 ^ d.exponent.toInt : ℚ) = digitsValue ['0'] := by
      simp [digitsValue, digitValue]
    rw [hzero, hvalue]
    exact .unsigned (.whole (by decide))
  case isFalse =>
    have hunsigned := denotesUnsigned_unsignedText (isDigits_toDigits d.mantissa.toInt.natAbs)
      d.exponent.toInt
    rw [digitsValue_toDigits] at hunsigned
    simp only [String.toList_ofList]
    rw [cast_eq_natAbs, ite_mul]
    split
    case isTrue =>
      rw [neg_mul]
      exact .minus hunsigned
    case isFalse => exact .unsigned hunsigned

/-! ## Reading the text -/

theorem parse_text_eq_ok_iff {d d' : Decimal} :
    parse d.text = .ok d' ↔ IsCanonical d'.mantissa.toInt d'.exponent.toInt d.value := by
  have htrim : Text.trim d.text.toList = d.text.toList := trim_of_denotes d.denotes_text
  rw [parse_eq_ok_iff, htrim]
  constructor
  · rintro ⟨v, hv, hcanonical⟩
    rwa [denotes_unique d.denotes_text hv]
  · intro hcanonical
    exact ⟨d.value, d.denotes_text, hcanonical⟩

/-- The trailing zeros of the mantissa can be moved to the exponent. -/
theorem exists_trailing_zeros {n : ℤ} (h : n ≠ 0) :
    ∃ (m : ℤ) (zeros : ℕ), n = m * 10 ^ zeros ∧ ¬ 10 ∣ m := by
  have hfinite : FiniteMultiplicity 10 n := Int.finiteMultiplicity_iff.mpr ⟨by decide, h⟩
  obtain ⟨m, hm, hdvd⟩ := hfinite.exists_eq_pow_mul_and_not_dvd
  exact ⟨m, _, hm.trans (mul_comm _ _), hdvd⟩

theorem isCanonical_value {d : Decimal} {m : ℤ} {zeros : ℕ}
    (h : d.mantissa.toInt = m * 10 ^ zeros) (hm : ¬ 10 ∣ m) :
    IsCanonical m (d.exponent.toInt + zeros) d.value := by
  have hvalue : d.value = m * 10 ^ (d.exponent.toInt + zeros) := by
    rw [value, h, zpow_add₀ (by norm_num), zpow_natCast]
    push_cast
    ring
  refine .inr ⟨?_, hvalue, hm⟩
  have hne : (m : ℚ) ≠ 0 := by
    intro hzero
    have hzero : m = 0 := by exact_mod_cast hzero
    exact hm (hzero ▸ dvd_zero 10)
  rw [hvalue]
  exact mul_ne_zero hne (zpow_ne_zero _ (by norm_num))

/-- A mantissa without its trailing zeros is still in the range of the words. -/
theorem bounds_of_eq_mul {n m : ℤ} {zeros : ℕ} (hn : -2 ^ 63 ≤ n ∧ n < 2 ^ 63)
    (h : n = m * 10 ^ zeros) : -2 ^ 63 ≤ m ∧ m < 2 ^ 63 := by
  have hten : (1 : ℤ) ≤ 10 ^ zeros := one_le_pow₀ (by norm_num)
  rcases Int.lt_or_le m 0 with hnegative | hpositive
  · have hle : m * 10 ^ zeros ≤ m := mul_le_of_one_le_right hnegative.le hten
    omega
  · have hle : m ≤ m * 10 ^ zeros := le_mul_of_one_le_right hpositive hten
    omega

/-- What reading back the text of a pair has to answer. All zeros at the end of the mantissa are
moved to the exponent, and reading fails only if that gets too large. -/
structure ReparseSpec (d : Decimal) : Prop where
  zero : d.mantissa = 0 → parse d.text = .ok ⟨0, 0⟩
  nonzero : d.mantissa ≠ 0 → ∃ (m : ℤ) (zeros : ℕ), d.mantissa.toInt = m * 10 ^ zeros ∧ ¬ 10 ∣ m ∧
    if d.exponent.toInt + zeros ≤ Int32.maxValue.toInt then
      ∃ d', parse d.text = .ok d' ∧ d'.mantissa.toInt = m ∧
        d'.exponent.toInt = d.exponent.toInt + zeros
    else parse d.text = .error (.invalidDecimal d.text)
  canonical : ∀ d', parse d.text = .ok d' →
    IsCanonical d'.mantissa.toInt d'.exponent.toInt d.value
  again : ∀ literal, parse literal = .ok d → parse d.text = .ok d

theorem reparse_spec (d : Decimal) : ReparseSpec d := by
  refine ⟨fun hzero => ?_, fun hne => ?_, fun d' h => parse_text_eq_ok_iff.mp h,
    fun literal h => ?_⟩
  · rw [parse_text_eq_ok_iff]
    refine .inl ⟨?_, rfl, rfl⟩
    simp [value, hzero]
  · have hmantissa : d.mantissa.toInt ≠ 0 := fun h => hne (Int64.toInt_inj.mp h)
    obtain ⟨m, zeros, hm, hdvd⟩ := exists_trailing_zeros hmantissa
    have hcanonical := isCanonical_value hm hdvd
    refine ⟨m, zeros, hm, hdvd, ?_⟩
    split
    case isTrue hfits =>
      rw [Int32.toInt_maxValue] at hfits
      have hlow := d.exponent.le_toInt
      obtain ⟨d', hm', he'⟩ := exists_of_bounds
        (bounds_of_eq_mul ⟨d.mantissa.le_toInt, d.mantissa.toInt_lt⟩ hm)
        (e := d.exponent.toInt + zeros) ⟨by omega, by omega⟩
      refine ⟨d', parse_text_eq_ok_iff.mpr ?_, hm', he'⟩
      rwa [hm', he']
    case isFalse hlarge =>
      refine (parse_eq_ok_or_error d.text).resolve_left ?_
      rintro ⟨d', hd'⟩
      have hexponent := ((parse_text_eq_ok_iff.mp hd').unique hcanonical).2
      exact hlarge (hexponent ▸ d'.exponent.toInt_le)
  · obtain ⟨v, -, hcanonical⟩ := parse_eq_ok_iff.mp h
    rw [parse_text_eq_ok_iff]
    rcases hcanonical with ⟨-, hm, he⟩ | ⟨hne, hv, hdvd⟩
    · exact .inl ⟨by simp [value, hm], hm, he⟩
    · subst hv
      exact .inr ⟨hne, rfl, hdvd⟩

/-- A pair that is not canonical is read as the canonical pair of its number. -/
example : parse (text ⟨-100, -1⟩) = .ok ⟨-1, 1⟩ := by decide +kernel

end Decimal

end FastSchema
