import FastSchema.Proofs.Literal.DecimalText
import FastSchema.Proofs.Text.Utf8

/-! # No literal is shorter than the text

Of all literals that are read as a decimal and have a digit before their point, the text of the
decimal is a shortest one. A literal has at least as many digits on each side of its point as the
canonical pair asks for; signs, blanks and further zeros only make it longer. -/

namespace FastSchema

/-! ## Trimmed texts and bytes -/

namespace Text

/-- Trimming takes blank characters off both ends. -/
theorem exists_eq_trim (cs : List Char) :
    ∃ before after, (∀ c ∈ before, isBlank c) ∧ cs = before ++ trim cs ++ after := by
  refine ⟨cs.takeWhile isBlank, ((cs.dropWhile isBlank).reverse.takeWhile isBlank).reverse,
    fun c hc => List.mem_takeWhile_imp hc, ?_⟩
  have hend : trim cs ++ ((cs.dropWhile isBlank).reverse.takeWhile isBlank).reverse =
      cs.dropWhile isBlank := by
    rw [trim, ← List.reverse_append, List.takeWhile_append_dropWhile, List.reverse_reverse]
  rw [List.append_assoc, hend, List.takeWhile_append_dropWhile]

theorem length_le_length_utf8 (s : String) : s.length ≤ (utf8 s).length := by
  rw [utf8, List.length_flatMap, ← String.length_toList]
  induction s.toList with
  | nil => rfl
  | cons c cs ih =>
      have hc : 0 < (String.utf8EncodeChar c).length := by
        rw [String.length_utf8EncodeChar]
        exact c.utf8Size_pos
      rw [List.map_cons, List.sum_cons, List.length_cons]
      omega

theorem length_utf8_of_ascii {s : String} (h : ∀ c ∈ s.toList, c.toNat < 0x80) :
    (utf8 s).length = s.length := by
  have hone : s.toList.map (fun c => (String.utf8EncodeChar c).length) =
      s.toList.map fun _ => 1 :=
    List.map_congr_left fun c hc => by rw [utf8EncodeChar_of_ascii (h c hc), List.length_singleton]
  rw [utf8, List.length_flatMap, hone, ← String.length_toList]
  simp

end Text

/-! ## The width of a literal -/

namespace DecimalParts

variable {p : DecimalParts} {s : List Char} {negative : Bool}

/-- The number of characters that the digits take, with a point if there are digits after it. -/
def width (p : DecimalParts) : ℕ :=
  p.whole.length + if p.fraction.isEmpty then 0 else p.fraction.length + 1

def signWidth (p : DecimalParts) : ℕ := if p.negative then 1 else 0

theorem width_le_of_ofUnsigned? (h : ofUnsigned? negative s = some p) : p.width ≤ s.length := by
  unfold ofUnsigned? at h
  dsimp only at h
  split at h
  case isFalse => cases h
  case isTrue =>
    obtain rfl := Option.some.inj h
    have hsplit : (s.takeWhile (· ≠ '.')).length + (s.dropWhile (· ≠ '.')).length = s.length := by
      rw [← List.length_append, List.takeWhile_append_dropWhile]
    rw [← hsplit, width]
    cases s.dropWhile (· ≠ '.') with
    | nil => simp
    | cons point fraction => cases fraction <;> simp

theorem width_le_of_ofChars? (h : ofChars? s = some p) : p.signWidth + p.width ≤ s.length := by
  unfold ofChars? at h
  split at h
  all_goals
    have hwidth := width_le_of_ofUnsigned? h
    simp only [signWidth, (of_ofUnsigned? h).1, List.length_cons, if_true, Bool.false_eq_true,
      if_false]
    omega

theorem exists_of_whole_eq_nil (h : ofUnsigned? negative s = some p) (hwhole : p.whole = []) :
    ∃ fraction, s = '.' :: fraction := by
  unfold ofUnsigned? at h
  dsimp only at h
  split at h
  case isFalse => cases h
  case isTrue hdigits =>
    obtain rfl := Option.some.inj h
    cases s with
    | nil => exact absurd hdigits (by decide)
    | cons c fraction =>
        by_cases hc : c = '.'
        · exact ⟨fraction, by rw [hc]⟩
        · simp [hc] at hwhole

/-- Without digits before the point a literal begins with the point, but for a sign. -/
theorem exists_sign_of_whole_eq_nil (h : ofChars? s = some p) (hwhole : p.whole = []) :
    ∃ sign fraction, s = sign ++ '.' :: fraction ∧ ∀ c ∈ sign, c = '-' ∨ c = '+' := by
  unfold ofChars? at h
  split at h
  · obtain ⟨fraction, rfl⟩ := exists_of_whole_eq_nil h hwhole
    exact ⟨['-'], fraction, rfl, by simp⟩
  · obtain ⟨fraction, rfl⟩ := exists_of_whole_eq_nil h hwhole
    exact ⟨['+'], fraction, rfl, by simp⟩
  · obtain ⟨fraction, rfl⟩ := exists_of_whole_eq_nil h hwhole
    exact ⟨[], fraction, rfl, by simp⟩

/-! ## The significant digits -/

theorem length_significant_le (p : DecimalParts) :
    p.significant.length ≤ p.whole.length + p.fraction.length := by
  obtain ⟨zeros, hzeros⟩ := p.exists_digits_eq
  rw [← List.length_append, hzeros, List.length_append]
  exact Nat.le_add_right _ _

/-- The number of the significant digits is written with no more digits. -/
theorem length_toDigits_significant_le (hdigits : isDigits (p.whole ++ p.fraction))
    (hne : p.significant ≠ []) :
    (Nat.toDigits 10 (digitsValue p.significant)).length ≤ p.significant.length := by
  obtain ⟨zeros, hzeros⟩ := p.exists_digits_eq
  refine length_toDigits_le (isDigits_iff.mpr ⟨hne, fun c hc => ?_⟩)
  exact (isDigits_iff.mp hdigits).2 c (hzeros ▸ List.mem_append_left _ hc)

theorem digitsValue_significant_ne_zero (hdigits : isDigits (p.whole ++ p.fraction))
    (hne : p.significant ≠ []) : digitsValue p.significant ≠ 0 := by
  intro hzero
  exact not_ten_dvd_significant hdigits hne (hzero ▸ dvd_zero 10)

theorem natAbs_mantissa (p : DecimalParts) :
    p.mantissa.natAbs = digitsValue p.significant := by
  rw [mantissa]
  cases p.negative <;> simp

theorem signWidth_eq (h : digitsValue p.significant ≠ 0) :
    (if p.mantissa < 0 then 1 else 0) = p.signWidth := by
  rw [mantissa, signWidth]
  cases p.negative
  · simp
  · simp
    omega

end DecimalParts

namespace Decimal

/-! ## The length of the text -/

theorem length_unsignedText (ds : List Char) (e : ℤ) : (unsignedText ds e).length =
    if 0 ≤ e then ds.length + e.toNat else max (ds.length + 1) ((-e).toNat + 2) := by
  unfold unsignedText
  split
  case isTrue => simp
  case isFalse =>
    dsimp only
    split
    case isTrue hscale =>
      simp only [List.length_append, List.length_cons, List.length_take, List.length_drop]
      omega
    case isFalse hscale =>
      simp only [List.length_append, List.length_cons, List.length_replicate]
      omega

theorem length_text {d : Decimal} (h : d.mantissa ≠ 0) : d.text.length =
    (if d.mantissa.toInt < 0 then 1 else 0) +
      (unsignedText (Nat.toDigits 10 d.mantissa.toInt.natAbs) d.exponent.toInt).length := by
  rw [text, if_neg h]
  dsimp only
  split
  · rw [String.length_ofList, List.length_cons, Nat.add_comm]
  · rw [String.length_ofList, Nat.zero_add]

/-- The text of the canonical pair of the parts takes no more characters than the parts. -/
theorem length_text_le {d : Decimal} {p : DecimalParts}
    (h : ofInts? p.mantissa p.exponent = some d) (hdigits : isDigits (p.whole ++ p.fraction))
    (hwhole : p.whole ≠ []) : d.text.length ≤ p.signWidth + p.width := by
  obtain ⟨hmantissa, hexponent⟩ := ofInts?_eq_some_iff.mp h
  have hpositive : 0 < p.whole.length := List.length_pos_iff.mpr hwhole
  by_cases hne : p.significant = []
  · have hzero : d.mantissa = 0 :=
      Int64.toInt_inj.mp (by simp [hmantissa, DecimalParts.mantissa, hne])
    have htext : d.text.length = 1 := by
      rw [text, if_pos hzero]
      rfl
    rw [htext, DecimalParts.width]
    omega
  · have hlength := p.length_significant_le
    have hshort := DecimalParts.length_toDigits_significant_le hdigits hne
    have hvalue := DecimalParts.digitsValue_significant_ne_zero hdigits hne
    have hmantissa' : d.mantissa ≠ 0 := by
      rintro hzero
      rw [← p.natAbs_mantissa, ← hmantissa, hzero] at hvalue
      exact hvalue rfl
    have hexponent' : d.exponent.toInt = p.whole.length - p.significant.length := by
      rw [hexponent, DecimalParts.exponent, if_neg (by simpa using hne)]
    rw [length_text hmantissa', hmantissa, p.natAbs_mantissa, DecimalParts.signWidth_eq hvalue,
      length_unsignedText, DecimalParts.width]
    -- After the point stand the significant digits that are not before it.
    cases hfraction : p.fraction with
    | nil =>
        simp only [hfraction, List.length_nil] at hlength
        simp only [List.isEmpty_nil, if_true]
        split <;> omega
    | cons c fraction =>
        rw [hfraction] at hlength
        simp only [List.isEmpty_cons, Bool.false_eq_true, if_false]
        split <;> omega

/-! ## Competing literals -/

/-- There is a digit before the point of the literal, if it has a point. -/
def LeadsWithDigit (literal : String) : Prop :=
  '.' ∈ literal.toList → ∃ c ∈ literal.toList.takeWhile (· ≠ '.'), c.isDigit

instance (literal : String) : Decidable (LeadsWithDigit literal) :=
  decidable_of_iff ('.' ∈ literal.toList → (literal.toList.takeWhile (· ≠ '.')).any Char.isDigit)
    (by simp [LeadsWithDigit])

theorem whole_ne_nil_of_leadsWithDigit {literal : String} {p : DecimalParts}
    (h : DecimalParts.ofChars? (Text.trim literal.toList) = some p)
    (hleads : LeadsWithDigit literal) : p.whole ≠ [] := by
  intro hwhole
  obtain ⟨before, after, hblank, hliteral⟩ := Text.exists_eq_trim literal.toList
  obtain ⟨sign, fraction, htrim, hsign⟩ := DecimalParts.exists_sign_of_whole_eq_nil h hwhole
  have hchars : literal.toList = (before ++ sign) ++ '.' :: (fraction ++ after) := by
    rw [hliteral, htrim]
    simp
  -- What stands before the point is blank or a sign.
  have hother : ∀ c ∈ before ++ sign, c ≠ '.' ∧ ¬ c.isDigit := by
    intro c hc
    rcases List.mem_append.mp hc with hc | hc
    · refine ⟨?_, fun hdigit => ?_⟩
      · rintro rfl
        exact absurd (hblank _ hc) (by decide)
      · exact absurd (hblank c hc) (by simp [isBlank_of_isDigit hdigit])
    · rcases hsign c hc with rfl | rfl <;> decide
  obtain ⟨c, hc, hdigit⟩ := hleads (by simp [hchars])
  rw [hchars, List.takeWhile_append_of_pos fun c hc => decide_eq_true (hother c hc).1] at hc
  simp only [ne_eq, not_true_eq_false, decide_false, Bool.false_eq_true, not_false_eq_true,
    List.takeWhile_cons_of_neg, List.append_nil] at hc
  exact (hother c hc).2 hdigit

/-- No literal with a digit before its point is shorter than the text of what is read from it. -/
theorem length_text_le_of_parse {literal : String} {d : Decimal} (h : parse literal = .ok d)
    (hleads : LeadsWithDigit literal) : d.text.length ≤ literal.length := by
  obtain ⟨p, hp, hd⟩ := parse_eq_ok_iff_parts.mp h
  obtain ⟨before, after, _, hliteral⟩ := Text.exists_eq_trim literal.toList
  calc d.text.length ≤ p.signWidth + p.width :=
        length_text_le hd (DecimalParts.isDigits_of_ofChars? hp)
          (whole_ne_nil_of_leadsWithDigit hp hleads)
    _ ≤ (Text.trim literal.toList).length := DecimalParts.width_le_of_ofChars? hp
    _ ≤ (before ++ Text.trim literal.toList ++ after).length := by
        simp only [List.length_append]
        omega
    _ = literal.length := by rw [← hliteral, String.length_toList]

/-! ## The text itself -/

theorem isAscii_of_mem_text {d : Decimal} {c : Char} (hc : c ∈ d.text.toList) :
    c.toNat < 0x80 := by
  have hmarks : ['.', '+', '-'].all fun c => c.toNat < 0x80 := by decide
  rcases isDigit_or_mem_of_denotes d.denotes_text hc with hdigit | hmark
  · have hrange : 48 ≤ c.toNat ∧ c.toNat ≤ 57 := Char.isDigit_iff_toNat.mp hdigit
    omega
  · simpa using List.all_eq_true.mp hmarks c hmark

theorem exists_unsignedText_eq_cons {ds : List Char} (h : isDigits ds) (e : ℤ) :
    ∃ c rest, unsignedText ds e = c :: rest ∧ c.isDigit := by
  obtain ⟨hne, hall⟩ := isDigits_iff.mp h
  obtain ⟨c, ds', rfl⟩ := List.exists_cons_of_ne_nil hne
  have hc : c.isDigit := hall c List.mem_cons_self
  unfold unsignedText
  split
  case isTrue => exact ⟨c, _, rfl, hc⟩
  case isFalse =>
    dsimp only
    split
    case isTrue hscale =>
      obtain ⟨n, hn⟩ : ∃ n, (c :: ds').length - (-e).toNat = n + 1 :=
        ⟨(c :: ds').length - (-e).toNat - 1, by omega⟩
      exact ⟨c, _, by rw [hn, List.take_succ_cons, List.cons_append], hc⟩
    case isFalse => exact ⟨'0', _, rfl, by decide⟩

theorem leadsWithDigit_text (d : Decimal) : LeadsWithDigit d.text := by
  intro _
  unfold text
  split
  case isTrue => exact ⟨'0', by decide, by decide⟩
  case isFalse =>
    obtain ⟨c, rest, hunsigned, hc⟩ := exists_unsignedText_eq_cons
      (isDigits_toDigits d.mantissa.toInt.natAbs) d.exponent.toInt
    have hpoint : c ≠ '.' := ne_point_of_isDigit hc
    refine ⟨c, ?_, hc⟩
    simp only [hunsigned, String.toList_ofList]
    split <;> simp [hpoint]

/-- How the text of a decimal compares to the literals that are read as it and have a digit before
the point. -/
structure ShortestSpec (d : Decimal) : Prop where
  reads : parse d.text = .ok d ∧ LeadsWithDigit d.text
  length_le : ∀ literal, parse literal = .ok d → LeadsWithDigit literal →
    d.text.length ≤ literal.length
  length_utf8_le : ∀ literal, parse literal = .ok d → LeadsWithDigit literal →
    (Text.utf8 d.text).length ≤ (Text.utf8 literal).length

/-- The text of a canonical pair is a shortest literal for it. -/
theorem shortest_spec {d : Decimal}
    (h : (d.mantissa = 0 ∧ d.exponent = 0) ∨ ¬ 10 ∣ d.mantissa.toInt) : ShortestSpec d where
  reads := by
    refine ⟨parse_text_eq_ok_iff.mpr ?_, d.leadsWithDigit_text⟩
    rcases h with ⟨hmantissa, hexponent⟩ | hdvd
    · rw [hmantissa, hexponent]
      exact .inl ⟨by simp [value, hmantissa], rfl, rfl⟩
    · have hwhole : d.mantissa.toInt = d.mantissa.toInt * 10 ^ 0 := by simp
      have hcanonical := isCanonical_value hwhole hdvd
      rwa [Nat.cast_zero, add_zero] at hcanonical
  length_le _ := length_text_le_of_parse
  length_utf8_le literal hparse hleads := by
    rw [Text.length_utf8_of_ascii fun _ hc => isAscii_of_mem_text hc]
    exact (length_text_le_of_parse hparse hleads).trans (Text.length_le_length_utf8 literal)

/-- A sign, zeros at both ends and blanks make a literal longer. -/
theorem shortest_spec_of_price : ShortestSpec ⟨-125, -2⟩ ∧
    parse " -01.250\t" = .ok ⟨-125, -2⟩ ∧ LeadsWithDigit " -01.250\t" ∧
      (text ⟨-125, -2⟩).length < " -01.250\t".length :=
  ⟨shortest_spec (.inr (by decide)), by decide +kernel, by decide +kernel, by decide +kernel⟩

/-- Without a digit before the point a literal can be shorter. -/
example : parse ".5" = .ok ⟨5, -1⟩ ∧ text ⟨5, -1⟩ = "0.5" := by decide +kernel

end Decimal

end FastSchema
