import FastSchema.Proofs.Json.Grammar
import FastSchema.Proofs.Literal.Digits

/-! # Reading integer constants back

A decimal literal of C++ has no sign. A minus before it is an operator, so the magnitude of a
negative number, and not the number, has to be a value of the type that the suffix selects. -/

namespace FastSchema.Cpp

/-! ## Reading -/

/-- A type of decimal literals. -/
structure LiteralType where
  signed : Bool
  bits : ℕ
deriving DecidableEq

namespace LiteralType

/-- The widest type that a literal with the given suffix may have. -/
def ofSuffix? : List Char → Option LiteralType
  | [] => some ⟨true, 64⟩
  | ['U'] => some ⟨false, 32⟩
  | ['L', 'L'] => some ⟨true, 64⟩
  | ['U', 'L', 'L'] => some ⟨false, 64⟩
  | _ => none

def max (t : LiteralType) : ℕ :=
  if t.signed then 2 ^ (t.bits - 1) - 1 else 2 ^ t.bits - 1

/-- The result of a minus before a value of the type; an unsigned one is taken modulo the number of
values. -/
def negate (t : LiteralType) (n : ℕ) : ℤ :=
  if t.signed then -n else (2 ^ t.bits - n) % 2 ^ t.bits

end LiteralType

/-- Decimal digits, which begin with a zero only if there is no other. -/
def isDecimal (digits : List Char) : Bool :=
  isDigits digits && (digits = ['0'] || digits.head? ≠ some '0')

/-- The type and the value of a literal. There is none for a value that the type does not have. -/
def literal? (text : List Char) : Option (LiteralType × ℕ) :=
  let digits := text.takeWhile Char.isDigit
  (LiteralType.ofSuffix? (text.dropWhile Char.isDigit)).bind fun t =>
    if isDecimal digits && digitsValue digits ≤ t.max then some (t, digitsValue digits) else none

def constant? (text : List Char) : Option ℤ :=
  if text.head? = some '-' then (literal? text.tail).map fun (t, n) => t.negate n
  else (literal? text).map fun (_, n) => (n : ℤ)

/-! ## Numbers with a suffix -/

theorem isDecimal_toDigits (n : ℕ) : isDecimal (Nat.toDigits 10 n) := by
  rcases Json.isNatural_toDigits n with hzero | ⟨hdigits, hhead⟩
  · rw [hzero]
    decide
  · simp [isDecimal, hdigits, hhead]

theorem takeWhile_isDigit_suffix {suffix : List Char} {t : LiteralType}
    (h : LiteralType.ofSuffix? suffix = some t) : suffix.takeWhile Char.isDigit = [] := by
  unfold LiteralType.ofSuffix? at h
  split at h
  · rfl
  · rfl
  · rfl
  · rfl
  · cases h

/-- Digits with a suffix are a literal of the type that the suffix selects, if it has the number. -/
theorem literal?_toDigits {suffix : List Char} {t : LiteralType}
    (h : LiteralType.ofSuffix? suffix = some t) (n : ℕ) :
    literal? (Nat.toDigits 10 n ++ suffix) = if n ≤ t.max then some (t, n) else none := by
  have hdigits : ∀ d ∈ Nat.toDigits 10 n, d.isDigit := (isDigits_iff.mp (isDigits_toDigits n)).2
  have htake : (Nat.toDigits 10 n ++ suffix).takeWhile Char.isDigit = Nat.toDigits 10 n := by
    rw [List.takeWhile_append_of_pos hdigits, takeWhile_isDigit_suffix h, List.append_nil]
  have hdrop : (Nat.toDigits 10 n ++ suffix).dropWhile Char.isDigit = suffix := by
    have hsplit := List.takeWhile_append_dropWhile (p := Char.isDigit)
      (l := Nat.toDigits 10 n ++ suffix)
    rw [htake] at hsplit
    exact List.append_cancel_left hsplit
  simp only [literal?, htake, hdrop, h, Option.bind_some, isDecimal_toDigits, digitsValue_toDigits,
    Bool.true_and, decide_eq_true_eq]

/-- A number that is written with a suffix is read back if the type of the suffix has its
magnitude. -/
theorem constant?_toString {suffix : List Char} {t : LiteralType}
    (h : LiteralType.ofSuffix? suffix = some t) {n : ℤ} (hsign : 0 ≤ n ∨ t.signed) :
    constant? ((toString n).toList ++ suffix) = if n.natAbs ≤ t.max then some n else none := by
  have hne : Nat.toDigits 10 n.natAbs ≠ [] := Nat.toDigits_ne_nil
  obtain ⟨d, ds, hdigits⟩ := List.exists_cons_of_ne_nil hne
  rw [Json.toList_toString_int]
  by_cases hneg : n < 0
  · have hsigned : t.signed := hsign.resolve_left (by omega)
    have habs : -(n.natAbs : ℤ) = n := by omega
    rw [if_pos hneg, List.singleton_append, List.cons_append, constant?,
      if_pos List.head?_cons, List.tail_cons, literal?_toDigits h]
    split_ifs
    · simp only [Option.map_some, LiteralType.negate, hsigned, if_true, habs]
    · rfl
  · have habs : (n.natAbs : ℤ) = n := by omega
    have hd : d.isDigit :=
      (isDigits_iff.mp (isDigits_toDigits n.natAbs)).2 d (hdigits ▸ List.mem_cons_self)
    have hstart : (Nat.toDigits 10 n.natAbs ++ suffix).head? ≠ some '-' := by
      rw [hdigits, List.cons_append, List.head?_cons]
      rintro ⟨rfl⟩
      cases hd
    rw [if_neg hneg, List.nil_append, constant?, if_neg hstart, literal?_toDigits h]
    split_ifs
    · simp only [Option.map_some, habs]
    · rfl

end FastSchema.Cpp
