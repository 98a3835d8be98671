import FastSchema.Literal.Decimal
import FastSchema.Proofs.Literal.Digits
import Mathlib.Algebra.Order.Field.Rat
import Mathlib.Data.List.DropRight
import Mathlib.Data.List.TakeWhile
import Mathlib.Tactic.FieldSimp
import Mathlib.Tactic.NormNum

/-! # What decimal literals denote

The grammar of decimal literals with the rational number of each, and the canonical pair of a
number. Reading a literal finds the canonical pair of the number that it denotes, if there is one
that fits. -/

namespace FastSchema

/-! ## The grammar -/

/-- Digits with at most one point, which has digits on one of its sides or on both. -/
inductive DenotesUnsigned : List Char → ℚ → Prop where
  | whole {ds : List Char} (h : isDigits ds) : DenotesUnsigned ds (digitsValue ds)
  | pointed {ds fs : List Char} (hds : isDigits ds) (hfs : ∀ d ∈ fs, d.isDigit) :
      DenotesUnsigned (ds ++ '.' :: fs) (digitsValue ds + digitsValue fs / 10 ^ fs.length)
  | fraction {fs : List Char} (h : isDigits fs) :
      DenotesUnsigned ('.' :: fs) (digitsValue fs / 10 ^ fs.length)

/-- The number that a decimal literal denotes: an unsigned literal, possibly after a sign. -/
inductive Denotes : List Char → ℚ → Prop where
  | unsigned {s : List Char} {v : ℚ} (h : DenotesUnsigned s v) : Denotes s v
  | plus {s : List Char} {v : ℚ} (h : DenotesUnsigned s v) : Denotes ('+' :: s) v
  | minus {s : List Char} {v : ℚ} (h : DenotesUnsigned s v) : Denotes ('-' :: s) (-v)

/-- The pair `(mantissa, exponent)` for a number, of which there is one. -/
def IsCanonical (mantissa exponent : ℤ) (v : ℚ) : Prop :=
  v = 0 ∧ mantissa = 0 ∧ exponent = 0 ∨
    v ≠ 0 ∧ v = mantissa * 10 ^ exponent ∧ ¬ 10 ∣ mantissa

namespace IsCanonical

variable {m m' e e' : ℤ} {v v' : ℚ}

theorem le_of_eq (h : (m : ℚ) * 10 ^ e = m' * 10 ^ e') (hm : ¬ 10 ∣ m) : e' ≤ e := by
  by_contra hlt
  obtain ⟨k, hk⟩ : ∃ k : ℕ, e' = e + (k + 1) := ⟨(e' - e - 1).toNat, by omega⟩
  -- A pair with a greater exponent leaves a power of ten to the mantissa.
  have hpow : (10 : ℚ) ^ e' = 10 ^ e * 10 ^ (k + 1) := by
    rw [hk, zpow_add₀ (by norm_num)]
    norm_cast
  have hten : (10 : ℚ) ^ e ≠ 0 := zpow_ne_zero _ (by norm_num)
  have hmantissa : (m : ℚ) = m' * 10 ^ (k + 1) := by
    rw [hpow] at h
    apply mul_right_cancel₀ hten
    rw [h]
    ring
  have hint : m = m' * 10 ^ (k + 1) := by exact_mod_cast hmantissa
  exact hm ⟨m' * 10 ^ k, by rw [hint]; ring⟩

/-- A number has one canonical pair. -/
theorem unique (h : IsCanonical m e v) (h' : IsCanonical m' e' v) : m = m' ∧ e = e' := by
  rcases h with ⟨hzero, rfl, rfl⟩ | ⟨hzero, hv, hm⟩
  · rcases h' with ⟨-, rfl, rfl⟩ | ⟨hzero', -, -⟩
    · exact ⟨rfl, rfl⟩
    · exact (hzero' hzero).elim
  · rcases h' with ⟨hzero', -, -⟩ | ⟨-, hv', hm'⟩
    · exact (hzero hzero').elim
    · have heq : (m : ℚ) * 10 ^ e = m' * 10 ^ e' := hv.symm.trans hv'
      have hexponent : e = e' := le_antisymm (le_of_eq heq.symm hm') (le_of_eq heq hm)
      subst hexponent
      have hten : (10 : ℚ) ^ e ≠ 0 := zpow_ne_zero _ (by norm_num)
      exact ⟨by exact_mod_cast mul_right_cancel₀ hten heq, rfl⟩

theorem value_unique (h : IsCanonical m e v) (h' : IsCanonical m e v') : v = v' := by
  rcases h with ⟨hzero, rfl, rfl⟩ | ⟨-, hv, hm⟩
  · rcases h' with ⟨hzero', -, -⟩ | ⟨-, -, hm'⟩
    · rw [hzero, hzero']
    · exact (hm' (dvd_zero 10)).elim
  · rcases h' with ⟨-, rfl, rfl⟩ | ⟨-, hv', -⟩
    · exact (hm (dvd_zero 10)).elim
    · rw [hv, hv']

end IsCanonical

/-! ## The parts of a literal -/

theorem ne_point_of_isDigit {d : Char} (h : d.isDigit) : d ≠ '.' := by
  rintro rfl
  exact absurd h (by decide)

namespace DecimalParts

variable {p : DecimalParts} {s : List Char} {negative : Bool}

/-- The number that the parts make up without the sign. -/
def magnitude (p : DecimalParts) : ℚ :=
  digitsValue p.whole + digitsValue p.fraction / 10 ^ p.fraction.length

def value (p : DecimalParts) : ℚ :=
  if p.negative then -p.magnitude else p.magnitude

theorem of_ofUnsigned? (h : ofUnsigned? negative s = some p) :
    p.negative = negative ∧ isDigits (p.whole ++ p.fraction) := by
  unfold ofUnsigned? at h
  dsimp only at h
  split at h
  case isTrue hdigits =>
    obtain rfl := Option.some.inj h
    exact ⟨rfl, hdigits⟩
  case isFalse => cases h

theorem denotesUnsigned_of_ofUnsigned? (h : ofUnsigned? negative s = some p) :
    DenotesUnsigned s p.magnitude := by
  unfold ofUnsigned? at h
  dsimp only at h
  split at h
  case isFalse => cases h
  case isTrue hdigits =>
    obtain rfl := Option.some.inj h
    rw [isDigits_iff] at hdigits
    obtain ⟨hne, hall⟩ := hdigits
    rw [List.forall_mem_append] at hall
    have hsplit : s = s.takeWhile (· ≠ '.') ++ s.dropWhile (· ≠ '.') :=
      List.takeWhile_append_dropWhile.symm
    generalize s.takeWhile (· ≠ '.') = whole at *
    cases hrest : s.dropWhile (· ≠ '.') with
    | nil =>
        simp only [hrest, List.append_nil, List.drop_nil] at hsplit hne ⊢
        subst hsplit
        simpa [magnitude] using DenotesUnsigned.whole (isDigits_iff.mpr ⟨hne, hall.1⟩)
    | cons c fraction =>
        obtain rfl : c = '.' := by
          have hhead := List.head?_dropWhile_not (· ≠ '.') s
          rw [hrest] at hhead
          simpa using hhead
        simp only [hrest, List.drop_succ_cons, List.drop_zero] at hsplit hne hall ⊢
        subst hsplit
        by_cases hwhole : whole = []
        · subst hwhole
          simpa [magnitude] using DenotesUnsigned.fraction (isDigits_iff.mpr ⟨hne, hall.2⟩)
        · exact DenotesUnsigned.pointed (isDigits_iff.mpr ⟨hwhole, hall.1⟩) hall.2

theorem ofUnsigned?_append (negative : Bool) {ds fs : List Char} (hds : ∀ d ∈ ds, d.isDigit)
    (hfs : ∀ d ∈ fs, d.isDigit) (hne : ds ++ fs ≠ []) :
    ofUnsigned? negative (ds ++ '.' :: fs) = some ⟨negative, ds, fs⟩ := by
  have hpoint : ∀ d ∈ ds, decide (d ≠ '.') = true := fun d hd =>
    decide_eq_true (ne_point_of_isDigit (hds d hd))
  have hdigits : isDigits (ds ++ fs) :=
    isDigits_iff.mpr ⟨hne, List.forall_mem_append.mpr ⟨hds, hfs⟩⟩
  unfold ofUnsigned?
  rw [List.takeWhile_append_of_pos hpoint, List.dropWhile_append_of_pos hpoint]
  simp [hdigits]

theorem ofUnsigned?_digits (negative : Bool) {ds : List Char} (h : isDigits ds) :
    ofUnsigned? negative ds = some ⟨negative, ds, []⟩ := by
  have hpoint : ∀ d ∈ ds, decide (d ≠ '.') = true := fun d hd =>
    decide_eq_true (ne_point_of_isDigit ((isDigits_iff.mp h).2 d hd))
  unfold ofUnsigned?
  rw [List.takeWhile_eq_self_iff.mpr hpoint, List.dropWhile_eq_nil_iff.mpr hpoint]
  simp [h]

theorem exists_ofUnsigned? (negative : Bool) {v : ℚ} (h : DenotesUnsigned s v) :
    ∃ p, ofUnsigned? negative s = some p ∧ p.magnitude = v := by
  cases h with
  | whole hdigits => exact ⟨_, ofUnsigned?_digits negative hdigits, by simp [magnitude]⟩
  | pointed hds hfs =>
      obtain ⟨hne, hall⟩ := isDigits_iff.mp hds
      exact ⟨_, ofUnsigned?_append negative hall hfs (by simp [hne]), rfl⟩
  | fraction hdigits =>
      obtain ⟨hne, hall⟩ := isDigits_iff.mp hdigits
      have hwhole : ∀ d ∈ ([] : List Char), d.isDigit := by simp
      exact ⟨_, ofUnsigned?_append negative hwhole hall hne, by simp [magnitude]⟩

/-- Of no unsigned literal the first character is a sign. -/
theorem ne_sign_of_denotesUnsigned {c : Char} {v : ℚ} (h : DenotesUnsigned (c :: s) v) :
    c ≠ '-' ∧ c ≠ '+' := by
  have hdigit {ds : List Char} (hds : isDigits (c :: ds)) : c ≠ '-' ∧ c ≠ '+' := by
    have hc : c.isDigit := (isDigits_iff.mp hds).2 c (by simp)
    constructor <;> rintro rfl <;> exact absurd hc (by decide)
  generalize hs : c :: s = cs at h
  cases h with
  | whole h => exact hdigit (hs ▸ h)
  | @pointed ds fs hds hfs =>
      cases ds with
      | nil => exact absurd hds (by decide)
      | cons d ds =>
          obtain ⟨rfl, -⟩ := List.cons.inj hs
          exact hdigit hds
  | fraction h =>
      obtain ⟨rfl, -⟩ := List.cons.inj hs
      decide

/-- The parts of a literal make up the number that it denotes. -/
theorem denotes_iff {v : ℚ} : Denotes s v ↔ ∃ p, ofChars? s = some p ∧ p.value = v := by
  constructor
  · intro h
    cases h with
    | plus h =>
        obtain ⟨p, hp, hv⟩ := exists_ofUnsigned? false h
        exact ⟨p, hp, by simp [value, (of_ofUnsigned? hp).1, hv]⟩
    | minus h =>
        obtain ⟨p, hp, hv⟩ := exists_ofUnsigned? true h
        exact ⟨p, hp, by simp [value, (of_ofUnsigned? hp).1, hv]⟩
    | unsigned h =>
        obtain ⟨p, hp, hv⟩ := exists_ofUnsigned? false h
        refine ⟨p, ?_, by simp [value, (of_ofUnsigned? hp).1, hv]⟩
        unfold ofChars?
        split
        · exact ((ne_sign_of_denotesUnsigned h).1 rfl).elim
        · exact ((ne_sign_of_denotesUnsigned h).2 rfl).elim
        · exact hp
  · rintro ⟨p, hp, rfl⟩
    unfold ofChars? at hp
    split at hp
    · have h := Denotes.minus (denotesUnsigned_of_ofUnsigned? hp)
      simpa [value, (of_ofUnsigned? hp).1] using h
    · have h := Denotes.plus (denotesUnsigned_of_ofUnsigned? hp)
      simpa [value, (of_ofUnsigned? hp).1] using h
    · have h := Denotes.unsigned (denotesUnsigned_of_ofUnsigned? hp)
      simpa [value, (of_ofUnsigned? hp).1] using h

theorem isDigits_of_ofChars? (h : ofChars? s = some p) : isDigits (p.whole ++ p.fraction) := by
  unfold ofChars? at h
  split at h <;> exact (of_ofUnsigned? h).2

/-! ## The canonical pair of the parts -/

theorem significant_eq_rdropWhile (p : DecimalParts) :
    p.significant = (p.whole ++ p.fraction).rdropWhile (· = '0') := rfl

/-- The digits end in zeros after the significant ones. -/
theorem exists_digits_eq (p : DecimalParts) :
    ∃ zeros, p.whole ++ p.fraction = p.significant ++ List.replicate zeros '0' := by
  refine ⟨((p.whole ++ p.fraction).rtakeWhile (· = '0')).length, ?_⟩
  have hzeros := List.eq_replicate_of_mem (a := '0')
    (l := (p.whole ++ p.fraction).rtakeWhile (· = '0')) fun c hc => by
      simpa using List.mem_rtakeWhile_imp hc
  rw [← hzeros, significant_eq_rdropWhile, List.rdropWhile_append_rtakeWhile]

/-- The last significant digit is not zero. -/
theorem not_ten_dvd_significant (h : isDigits (p.whole ++ p.fraction)) (hne : p.significant ≠ []) :
    ¬ 10 ∣ digitsValue p.significant := by
  obtain ⟨zeros, hdigits⟩ := p.exists_digits_eq
  obtain ⟨before, d, hlast⟩ := (List.eq_nil_or_concat' p.significant).resolve_left hne
  have hd : d.isDigit := (isDigits_iff.mp h).2 d (by simp [hdigits, hlast])
  have hzero : d ≠ '0' := by
    have hlastNot := List.rdropWhile_last_not (· = '0') (p.whole ++ p.fraction) hne
    simp only [← significant_eq_rdropWhile] at hlastNot
    simpa [hlast] using hlastNot
  rw [hlast]
  exact not_ten_dvd_digitsValue hd hzero

theorem magnitude_eq (hne : p.significant ≠ []) :
    p.magnitude = digitsValue p.significant * 10 ^ p.exponent := by
  obtain ⟨zeros, hdigits⟩ := p.exists_digits_eq
  have hlength : (p.whole.length : ℤ) - p.significant.length = zeros - p.fraction.length := by
    have h := congrArg List.length hdigits
    simp only [List.length_append, List.length_replicate] at h
    omega
  have hvalue : (digitsValue p.whole : ℚ) * 10 ^ p.fraction.length + digitsValue p.fraction =
      digitsValue p.significant * 10 ^ zeros := by
    have h := congrArg digitsValue hdigits
    simp only [digitsValue_append, digitsValue_replicate_zero, List.length_replicate,
      Nat.add_zero] at h
    exact_mod_cast h
  have hempty : p.significant.isEmpty = false := by simp [hne]
  have hten : (10 : ℚ) ^ p.fraction.length ≠ 0 := pow_ne_zero _ (by norm_num)
  rw [magnitude, exponent, hempty, if_neg Bool.false_ne_true, hlength, zpow_sub₀ (by norm_num),
    zpow_natCast, zpow_natCast, ← mul_div_assoc, ← hvalue]
  field_simp

theorem magnitude_eq_zero (h : p.significant = []) : p.magnitude = 0 := by
  obtain ⟨zeros, hdigits⟩ := p.exists_digits_eq
  have hvalue := congrArg digitsValue hdigits
  rw [h, List.nil_append, digitsValue_replicate_zero, digitsValue_append] at hvalue
  have hwhole : digitsValue p.whole = 0 := by
    have hten : 0 < 10 ^ p.fraction.length := Nat.pow_pos (by omega)
    have hproduct : digitsValue p.whole * 10 ^ p.fraction.length = 0 := by omega
    rcases Nat.mul_eq_zero.mp hproduct with h | h <;> omega
  have hfraction : digitsValue p.fraction = 0 := by omega
  simp [magnitude, hwhole, hfraction]

/-- The pair that is computed from the parts is the canonical one of their number. -/
theorem isCanonical (h : isDigits (p.whole ++ p.fraction)) :
    IsCanonical p.mantissa p.exponent p.value := by
  by_cases hne : p.significant = []
  · refine .inl ⟨?_, ?_, ?_⟩
    · simp [value, magnitude_eq_zero hne]
    · simp [mantissa, hne]
    · simp [exponent, hne]
  · have hdvd := not_ten_dvd_significant h hne
    have hpositive : digitsValue p.significant ≠ 0 := by
      intro hzero
      exact hdvd (hzero ▸ dvd_zero 10)
    have hten : (10 : ℚ) ^ p.exponent ≠ 0 := zpow_ne_zero _ (by norm_num)
    have hmantissa : (p.mantissa : ℚ) =
        if p.negative then -(digitsValue p.significant : ℚ) else digitsValue p.significant := by
      unfold mantissa
      split <;> push_cast <;> rfl
    have hvalue : p.value = p.mantissa * 10 ^ p.exponent := by
      rw [value, magnitude_eq hne, hmantissa]
      split <;> ring
    refine .inr ⟨?_, hvalue, ?_⟩
    · rw [hvalue]
      refine mul_ne_zero ?_ hten
      rw [hmantissa]
      split <;> simpa using hpositive
    · unfold mantissa
      split
      · rw [Int.dvd_neg]
        exact_mod_cast hdvd
      · exact_mod_cast hdvd

end DecimalParts

/-! ## Reading -/

namespace Decimal

theorem ofInts?_eq_some_iff {m e : ℤ} {d : Decimal} :
    ofInts? m e = some d ↔ d.mantissa.toInt = m ∧ d.exponent.toInt = e := by
  unfold ofInts?
  constructor
  · intro h
    split at h
    case isFalse => cases h
    case isTrue hfits =>
      simp only [Int64.toInt_minValue, Int64.toInt_maxValue, Int32.toInt_minValue,
        Int32.toInt_maxValue, Bool.and_eq_true, decide_eq_true_eq] at hfits
      obtain ⟨⟨⟨hmin, hmax⟩, hmin'⟩, hmax'⟩ := hfits
      obtain rfl := Option.some.inj h
      exact ⟨Int64.toInt_ofInt_of_le hmin (by omega), Int32.toInt_ofInt_of_le hmin' (by omega)⟩
  · rintro ⟨rfl, rfl⟩
    have hmantissa : Int64.minValue.toInt ≤ d.mantissa.toInt ∧
        d.mantissa.toInt ≤ Int64.maxValue.toInt :=
      ⟨d.mantissa.minValue_le_toInt, d.mantissa.toInt_le⟩
    have hexponent : Int32.minValue.toInt ≤ d.exponent.toInt ∧
        d.exponent.toInt ≤ Int32.maxValue.toInt :=
      ⟨d.exponent.minValue_le_toInt, d.exponent.toInt_le⟩
    simp only [hmantissa, hexponent, Int64.ofInt_toInt, Int32.ofInt_toInt, decide_true,
      Bool.and_self, if_true]

theorem exists_of_bounds {m e : ℤ} (hm : -2 ^ 63 ≤ m ∧ m < 2 ^ 63) (he : -2 ^ 31 ≤ e ∧ e < 2 ^ 31) :
    ∃ d : Decimal, d.mantissa.toInt = m ∧ d.exponent.toInt = e :=
  ⟨⟨.ofInt m, .ofInt e⟩, Int64.toInt_ofInt_of_le hm.1 hm.2, Int32.toInt_ofInt_of_le he.1 he.2⟩

theorem toInt_inj {d d' : Decimal} (hm : d.mantissa.toInt = d'.mantissa.toInt)
    (he : d.exponent.toInt = d'.exponent.toInt) : d = d' := by
  cases d
  cases d'
  simp_all [Int64.toInt_inj, Int32.toInt_inj]

theorem parse_eq_ok_or_error (literal : String) :
    (∃ d, parse literal = .ok d) ∨ parse literal = .error (.invalidDecimal literal) := by
  unfold parse
  split
  case h_1 d _ => exact .inl ⟨d, rfl⟩
  case h_2 => exact .inr rfl

theorem parse_eq_ok_iff_parts {literal : String} {d : Decimal} :
    parse literal = .ok d ↔ ∃ p, DecimalParts.ofChars? (Text.trim literal.toList) = some p ∧
      ofInts? p.mantissa p.exponent = some d := by
  rw [← Option.bind_eq_some_iff]
  unfold parse
  generalize (DecimalParts.ofChars? _).bind _ = found
  cases found <;> simp

theorem parse_eq_ok_iff {literal : String} {d : Decimal} :
    parse literal = .ok d ↔ ∃ v, Denotes (Text.trim literal.toList) v ∧
      IsCanonical d.mantissa.toInt d.exponent.toInt v := by
  rw [parse_eq_ok_iff_parts]
  constructor
  · rintro ⟨p, hp, hd⟩
    obtain ⟨hmantissa, hexponent⟩ := ofInts?_eq_some_iff.mp hd
    refine ⟨p.value, DecimalParts.denotes_iff.mpr ⟨p, hp, rfl⟩, ?_⟩
    rw [hmantissa, hexponent]
    exact DecimalParts.isCanonical (DecimalParts.isDigits_of_ofChars? hp)
  · rintro ⟨v, hv, hd⟩
    obtain ⟨p, hp, rfl⟩ := DecimalParts.denotes_iff.mp hv
    have hcanonical := DecimalParts.isCanonical (DecimalParts.isDigits_of_ofChars? hp)
    exact ⟨p, hp, ofInts?_eq_some_iff.mpr (hd.unique hcanonical)⟩

theorem denotes_unique {s : List Char} {v v' : ℚ} (h : Denotes s v) (h' : Denotes s v') :
    v = v' := by
  obtain ⟨p, hp, rfl⟩ := DecimalParts.denotes_iff.mp h
  obtain ⟨p', hp', rfl⟩ := DecimalParts.denotes_iff.mp h'
  rw [hp] at hp'
  rw [Option.some.inj hp']

theorem isCanonical_of_parse {literal : String} {d : Decimal} {v : ℚ}
    (h : parse literal = .ok d) (hv : Denotes (Text.trim literal.toList) v) :
    IsCanonical d.mantissa.toInt d.exponent.toInt v := by
  obtain ⟨v', hv', hcanonical⟩ := parse_eq_ok_iff.mp h
  rwa [denotes_unique hv hv']

/-- What reading a decimal literal has to answer: the canonical pair of the number that it denotes,
if this fits, and else the literal as it was given. -/
structure CanonicalSpec (literal : String) : Prop where
  ok_iff : ∀ m e : ℤ,
    (∃ d, parse literal = .ok d ∧ d.mantissa.toInt = m ∧ d.exponent.toInt = e) ↔
      ∃ v, Denotes (Text.trim literal.toList) v ∧ IsCanonical m e v ∧
        (-2 ^ 63 ≤ m ∧ m < 2 ^ 63) ∧ -2 ^ 31 ≤ e ∧ e < 2 ^ 31
  error : (∃ d, parse literal = .ok d) ∨ parse literal = .error (.invalidDecimal literal)
  eq_iff : ∀ literal' d d' v v', parse literal = .ok d → parse literal' = .ok d' →
    Denotes (Text.trim literal.toList) v → Denotes (Text.trim literal'.toList) v' →
    (d = d' ↔ v = v')

theorem canonical_spec (literal : String) : CanonicalSpec literal := by
  refine ⟨fun m e => ?_, parse_eq_ok_or_error literal, ?_⟩
  · constructor
    · rintro ⟨d, hd, rfl, rfl⟩
      obtain ⟨v, hv, hcanonical⟩ := parse_eq_ok_iff.mp hd
      exact ⟨v, hv, hcanonical, ⟨d.mantissa.le_toInt, d.mantissa.toInt_lt⟩,
        d.exponent.le_toInt, d.exponent.toInt_lt⟩
    · rintro ⟨v, hv, hcanonical, hm, he⟩
      obtain ⟨d, rfl, rfl⟩ := exists_of_bounds hm he
      exact ⟨d, parse_eq_ok_iff.mpr ⟨v, hv, hcanonical⟩, rfl, rfl⟩
  · intro literal' d d' v v' hd hd' hv hv'
    have hcanonical := isCanonical_of_parse hd hv
    have hcanonical' := isCanonical_of_parse hd' hv'
    constructor
    · rintro rfl
      exact hcanonical.value_unique hcanonical'
    · rintro rfl
      obtain ⟨hm, he⟩ := hcanonical.unique hcanonical'
      exact toInt_inj hm he

/-- The least mantissa is read, with its sign, although its magnitude is no mantissa. -/
example : parse "-92233720368547758080" = .ok ⟨.minValue, 1⟩ := by decide +kernel

end Decimal

end FastSchema
