import FastSchema.Literal.Basic
import Mathlib.Data.Nat.Digits.Defs
import Mathlib.Tactic.Ring

/-! # The value of decimal digits

How the value of a run of digits depends on its parts, which runs have a last zero, and how many
digits a number has. -/

namespace FastSchema

theorem digitsValue_eq_ofDigitChars (ds : List Char) :
    digitsValue ds = Nat.ofDigitChars 10 ds 0 := by
  rw [Nat.ofDigitChars_eq_foldl]
  rfl

theorem digitsValue_append (ds es : List Char) :
    digitsValue (ds ++ es) = digitsValue ds * 10 ^ es.length + digitsValue es := by
  simp only [digitsValue_eq_ofDigitChars]
  rw [Nat.ofDigitChars_append, Nat.ofDigitChars_eq_ofDigitChars_zero, Nat.mul_comm]

@[simp] theorem digitsValue_replicate_zero (n : ℕ) :
    digitsValue (List.replicate n '0') = 0 := by
  rw [digitsValue_eq_ofDigitChars, Nat.ofDigitChars_replicate_zero, Nat.mul_zero]

/-- The digits of a number denote it. -/
@[simp] theorem digitsValue_toDigits (n : ℕ) : digitsValue (Nat.toDigits 10 n) = n := by
  rw [digitsValue_eq_ofDigitChars, Nat.ofDigitChars_ten_toDigits]

/-- The value of digits that do not end in a zero is no multiple of ten. -/
theorem not_ten_dvd_digitsValue {ds : List Char} {d : Char} (hd : d.isDigit) (hzero : d ≠ '0') :
    ¬ 10 ∣ digitsValue (ds ++ [d]) := by
  have hlast : digitsValue (ds ++ [d]) = digitsValue ds * 10 + digitValue d := by
    rw [digitsValue_append, List.length_singleton, Nat.pow_one]
    simp [digitsValue]
  have hrange : 48 ≤ d.toNat ∧ d.toNat ≤ 57 := Char.isDigit_iff_toNat.mp hd
  have hne : d.toNat ≠ 48 := fun h => hzero (Char.toNat_inj.mp h)
  have hdigit : digitValue d = d.toNat - 48 := rfl
  omega

theorem digitsValue_lt {ds : List Char} (h : ∀ d ∈ ds, d.isDigit) :
    digitsValue ds < 10 ^ ds.length := by
  induction ds with
  | nil => decide
  | cons d ds ih =>
      rw [List.forall_mem_cons] at h
      have hfirst : digitsValue (d :: ds) = digitValue d * 10 ^ ds.length + digitsValue ds := by
        rw [← List.singleton_append, digitsValue_append]
        simp [digitsValue]
      have hrange : 48 ≤ d.toNat ∧ d.toNat ≤ 57 := Char.isDigit_iff_toNat.mp h.1
      have hdigit : digitValue d ≤ 9 := by
        change d.toNat - 48 ≤ 9
        omega
      calc digitsValue (d :: ds) < digitValue d * 10 ^ ds.length + 10 ^ ds.length := by
            rw [hfirst]
            exact Nat.add_lt_add_left (ih h.2) _
        _ ≤ 9 * 10 ^ ds.length + 10 ^ ds.length :=
            Nat.add_le_add_right (Nat.mul_le_mul_right _ hdigit) _
        _ = 10 ^ (d :: ds).length := by rw [List.length_cons]; ring

theorem isDigits_iff {ds : List Char} : isDigits ds ↔ ds ≠ [] ∧ ∀ d ∈ ds, d.isDigit := by
  simp [isDigits]

theorem isDigits_toDigits (n : ℕ) : isDigits (Nat.toDigits 10 n) :=
  isDigits_iff.mpr ⟨Nat.toDigits_ne_nil, fun _ hd =>
    Nat.isDigit_of_mem_toDigits (by omega) (by omega) hd⟩

/-- A number has no more digits than any run of digits that denotes it. -/
theorem length_toDigits_le {ds : List Char} (h : isDigits ds) :
    (Nat.toDigits 10 (digitsValue ds)).length ≤ ds.length := by
  obtain ⟨hne, hall⟩ := isDigits_iff.mp h
  exact Nat.toDigits_length 10 _ _ (List.length_pos_iff.mpr hne) (digitsValue_lt hall)

end FastSchema
