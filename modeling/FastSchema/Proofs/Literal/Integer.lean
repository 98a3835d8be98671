import FastSchema.Instruction.Derive
import FastSchema.Proofs.Fallible
import FastSchema.Proofs.Literal.Digits
import Mathlib.Data.List.TakeWhile

/-! # Integer literals and ids

Which texts denote which integers, and which of these a type of a given width takes. A literal is
read into a word of 64 bits and an id into one of 32 bits; both accept exactly the texts of integers
in the range of their type, so that no word is ever cut short. -/

namespace FastSchema

namespace IntValue

def isSigned : IntValue → Bool
  | .signed _ => true
  | .unsigned _ => false

/-- Values of one form are told apart by their numbers. -/
theorem toInt_inj {v w : IntValue} (hform : v.isSigned = w.isSigned) (h : v.toInt = w.toInt) :
    v = w := by
  cases v with
  | signed n =>
      cases w with
      | signed m => rw [Int64.toInt_inj.mp h]
      | unsigned m => cases hform
  | unsigned n =>
      cases w with
      | signed m => cases hform
      | unsigned m =>
          have hvalue : n.toNat = m.toNat := by
            simp only [toInt] at h
            omega
          rw [UInt64.toNat_inj.mp hvalue]

end IntValue

/-! ## Texts of integers -/

/-- The text denotes the integer: digits with an optional plus sign or, if it is signed, a minus
sign before them. -/
inductive DenotesInt (signed : Bool) : List Char → ℤ → Prop where
  | digits {ds : List Char} (h : isDigits ds) : DenotesInt signed ds (digitsValue ds)
  | plus {ds : List Char} (h : isDigits ds) : DenotesInt signed ('+' :: ds) (digitsValue ds)
  | minus {ds : List Char} (hsigned : signed = true) (h : isDigits ds) :
      DenotesInt signed ('-' :: ds) (-digitsValue ds)

theorem readInt?_of_isDigits {ds : List Char} (signed : Bool) (h : isDigits ds) :
    readInt? signed ds = some (digitsValue ds : ℤ) := by
  unfold readInt?
  split
  · simp [isDigits] at h
  · simp [isDigits] at h
  · rw [if_pos h]

theorem readInt?_eq_some_iff {signed : Bool} {text : List Char} {n : ℤ} :
    readInt? signed text = some n ↔ DenotesInt signed text n := by
  constructor
  · intro h
    unfold readInt? at h
    split at h
    · split_ifs at h with hds
      cases h
      exact .plus hds
    · split_ifs at h with hds
      cases h
      obtain ⟨hsigned, hds⟩ := Bool.and_eq_true_iff.mp hds
      exact .minus hsigned hds
    · split_ifs at h with hds
      cases h
      exact .digits hds
  · intro h
    cases h with
    | digits h => exact readInt?_of_isDigits signed h
    | plus h => simp [readInt?, h]
    | minus hsigned h => simp [readInt?, hsigned, h]

theorem DenotesInt.unique {signed : Bool} {text : List Char} {n m : ℤ}
    (h : DenotesInt signed text n) (h' : DenotesInt signed text m) : n = m :=
  Option.some.inj ((readInt?_eq_some_iff.mpr h).symm.trans (readInt?_eq_some_iff.mpr h'))

theorem DenotesInt.nonneg {text : List Char} {n : ℤ} (h : DenotesInt false text n) : 0 ≤ n := by
  cases h with
  | digits h => exact Int.natCast_nonneg _
  | plus h => exact Int.natCast_nonneg _
  | minus hsigned h => cases hsigned

/-! ## Words -/

theorem readInt64?_eq_some_iff {text : List Char} {v : Int64} :
    readInt64? text = some v ↔ DenotesInt true text v.toInt := by
  have hmin : Int64.minValue.toInt ≤ v.toInt := v.minValue_le_toInt
  have hmax : v.toInt ≤ Int64.maxValue.toInt := v.toInt_le
  unfold readInt64?
  rw [Option.map_eq_some_iff]
  constructor
  · rintro ⟨n, hn, rfl⟩
    obtain ⟨hread, hfits⟩ := Option.filter_eq_some_iff.mp hn
    simp only [Int64.toInt_minValue, Int64.toInt_maxValue, Bool.and_eq_true,
      decide_eq_true_eq] at hfits
    rw [Int64.toInt_ofInt_of_le hfits.1 (by omega)]
    exact readInt?_eq_some_iff.mp hread
  · intro h
    refine ⟨v.toInt, Option.filter_eq_some_iff.mpr ⟨readInt?_eq_some_iff.mpr h, ?_⟩,
      Int64.ofInt_toInt v⟩
    simp only [hmin, hmax, decide_true, Bool.and_self]

/-- Words are the numbers below `size`, converted by these functions. -/
structure IsWord {word : Type} (size : ℕ) (ofNat : ℕ → word) (toNat : word → ℕ) : Prop where
  toNat_lt : ∀ v, toNat v < size
  toNat_ofNat : ∀ k < size, toNat (ofNat k) = k
  ofNat_toNat : ∀ v, ofNat (toNat v) = v

theorem isWord_uint64 : IsWord UInt64.size UInt64.ofNat UInt64.toNat :=
  ⟨UInt64.toNat_lt, fun _ => UInt64.toNat_ofNat_of_lt', fun _ => UInt64.ofNat_toNat⟩

theorem isWord_uint32 : IsWord UInt32.size UInt32.ofNat UInt32.toNat :=
  ⟨UInt32.toNat_lt, fun _ => UInt32.toNat_ofNat_of_lt', fun _ => UInt32.ofNat_toNat⟩

/-- An unsigned word is read from the texts that denote its number. -/
theorem readWord?_eq_some_iff {word : Type} {size : ℕ} {ofNat : ℕ → word} {toNat : word → ℕ}
    (hword : IsWord size ofNat toNat) {text : List Char} {v : word} :
    readWord? size ofNat text = some v ↔ DenotesInt false text (toNat v) := by
  rw [readWord?, Option.map_eq_some_iff]
  constructor
  · rintro ⟨n, hn, rfl⟩
    obtain ⟨hread, hfits⟩ := Option.filter_eq_some_iff.mp hn
    have hdenotes := readInt?_eq_some_iff.mp hread
    obtain ⟨k, rfl⟩ := Int.eq_ofNat_of_zero_le hdenotes.nonneg
    have hk : k < size := by simpa using hfits
    rw [Int.toNat_natCast, hword.toNat_ofNat k hk]
    exact hdenotes
  · intro h
    refine ⟨toNat v, Option.filter_eq_some_iff.mpr ⟨readInt?_eq_some_iff.mpr h, ?_⟩, ?_⟩
    · simpa using hword.toNat_lt v
    · rw [Int.toNat_natCast, hword.ofNat_toNat]

/-! ## Ranges -/

namespace Width

theorem toInt_least (w : Width) : w.least.toInt = -2 ^ (w.bits - 1) := by
  cases w <;> decide

theorem toInt_greatest (w : Width) : w.greatest.toInt = 2 ^ (w.bits - 1) - 1 := by
  cases w <;> decide

theorem toNat_greatestUnsigned (w : Width) : w.greatestUnsigned.toNat = 2 ^ w.bits - 1 := by
  cases w <;> decide

end Width

/-- The number is a value of the type. -/
def IntType.InRange (t : IntType) (n : ℤ) : Prop :=
  if t.signed then -2 ^ (t.width.bits - 1) ≤ n ∧ n ≤ 2 ^ (t.width.bits - 1) - 1
  else 0 ≤ n ∧ n ≤ 2 ^ t.width.bits - 1

theorem readValue?_eq_some_iff {t : IntType} {text : List Char} {v : IntValue} :
    readValue? t text = some v ↔
      v.isSigned = t.signed ∧ DenotesInt t.signed text v.toInt ∧ t.InRange v.toInt := by
  obtain ⟨signed, w⟩ := t
  unfold readValue? IntType.InRange
  cases signed with
  | true =>
      simp only [if_true, Option.map_eq_some_iff]
      constructor
      · rintro ⟨x, hx, rfl⟩
        obtain ⟨hread, hrange⟩ := Option.filter_eq_some_iff.mp hx
        simp only [Bool.and_eq_true, decide_eq_true_eq, Int64.le_iff_toInt_le, w.toInt_least,
          w.toInt_greatest] at hrange
        exact ⟨rfl, readInt64?_eq_some_iff.mp hread, hrange⟩
      · rintro ⟨hsigned, hdenotes, hrange⟩
        cases v with
        | unsigned x => cases hsigned
        | signed x =>
            refine ⟨x, Option.filter_eq_some_iff.mpr ⟨readInt64?_eq_some_iff.mpr hdenotes, ?_⟩, rfl⟩
            simpa only [IntValue.toInt, Bool.and_eq_true, decide_eq_true_eq,
              Int64.le_iff_toInt_le, w.toInt_least, w.toInt_greatest] using hrange
  | false =>
      have hmax : ∀ x : UInt64, x ≤ w.greatestUnsigned ↔ (x.toNat : ℤ) ≤ 2 ^ w.bits - 1 := by
        intro x
        rw [UInt64.le_iff_toNat_le, w.toNat_greatestUnsigned]
        cases w <;> simp only [Width.bits] <;> omega
      simp only [Bool.false_eq_true, if_false, Option.map_eq_some_iff]
      constructor
      · rintro ⟨x, hx, rfl⟩
        obtain ⟨hread, hrange⟩ := Option.filter_eq_some_iff.mp hx
        exact ⟨rfl, (readWord?_eq_some_iff isWord_uint64).mp hread, Int.natCast_nonneg _,
          (hmax x).mp (of_decide_eq_true hrange)⟩
      · rintro ⟨hsigned, hdenotes, _, hrange⟩
        cases v with
        | signed x => cases hsigned
        | unsigned x =>
            have hread := (readWord?_eq_some_iff isWord_uint64).mpr hdenotes
            exact ⟨x, Option.filter_eq_some_iff.mpr ⟨hread, decide_eq_true ((hmax x).mpr hrange)⟩,
              rfl⟩

/-- Every number in the range of a type is one of its values. -/
theorem IntType.InRange.exists_value {t : IntType} {n : ℤ} (h : t.InRange n) :
    ∃ v : IntValue, v.isSigned = t.signed ∧ v.toInt = n := by
  obtain ⟨signed, w⟩ := t
  cases signed with
  | true =>
      simp only [InRange, if_true] at h
      have hpow : (2 : ℤ) ^ (w.bits - 1) ≤ 2 ^ 63 := by cases w <;> decide
      exact ⟨.signed (.ofInt n), rfl, Int64.toInt_ofInt_of_le (by omega) (by omega)⟩
  | false =>
      simp only [InRange, Bool.false_eq_true, if_false] at h
      have hpow : (2 : ℤ) ^ w.bits ≤ 2 ^ 64 := by cases w <;> decide
      obtain ⟨k, rfl⟩ := Int.eq_ofNat_of_zero_le h.1
      have hk : k < UInt64.size := by
        simp only [UInt64.size]
        omega
      exact ⟨.unsigned (.ofNat k), rfl, by rw [IntValue.toInt, UInt64.toNat_ofNat_of_lt' hk]⟩

/-! ## Literals of fields -/

theorem parseInteger_eq_ok_iff {field literal : String} {t : IntType} {v : IntValue} :
    parseInteger field t literal = .ok v ↔
      v.isSigned = t.signed ∧ DenotesInt t.signed (Text.trim literal.toList) v.toInt ∧
        t.InRange v.toInt := by
  rw [← readValue?_eq_some_iff, parseInteger]
  cases readValue? t (Text.trim literal.toList) <;> simp

/-- A literal that is not read is reported as it is written. -/
theorem parseInteger_of_not_ok {field literal : String} {t : IntType}
    (h : ∀ v, parseInteger field t literal ≠ .ok v) :
    parseInteger field t literal = .error (.invalidInteger field t literal) := by
  unfold parseInteger at h ⊢
  cases hread : readValue? t (Text.trim literal.toList) with
  | none => rfl
  | some v => exact (h v (by rw [hread])).elim

theorem isSigned_of_parseInteger {field literal : String} {t : IntType} {v : IntValue}
    (h : parseInteger field t literal = .ok v) : v.isSigned = t.signed :=
  (parseInteger_eq_ok_iff.mp h).1

/-! ## Ids -/

theorem Text.trim_ne_nil {cs : List Char} (h : ∃ c ∈ cs, isBlank c = false) : trim cs ≠ [] := by
  obtain ⟨c, hc, hblank⟩ := h
  intro hnil
  have hrest : ∀ d ∈ cs.dropWhile isBlank, isBlank d := by
    simpa [trim, List.dropWhile_eq_nil_iff] using hnil
  have hall : ∀ d ∈ cs, isBlank d := by
    intro d hd
    have hsplit : cs.takeWhile isBlank ++ cs.dropWhile isBlank = cs :=
      List.takeWhile_append_dropWhile
    rw [← hsplit] at hd
    rcases List.mem_append.mp hd with hd | hd
    · exact List.mem_takeWhile_imp hd
    · exact hrest d hd
  rw [hall c hc] at hblank
  cases hblank

theorem parseId_of_missing {owner : String} {attrs : Attributes}
    (hget : attrs.get? "id" = none) : parseId owner attrs = .ok 0 := by
  rw [parseId, hget]
  rfl

theorem parseId_of_blank {owner literal : String} {attrs : Attributes}
    (hget : attrs.get? "id" = some literal) (hblank : ∀ c ∈ literal.toList, Text.isBlank c) :
    parseId owner attrs = .ok 0 := by
  have htrim : Text.trim literal.toList = [] := by
    rw [Text.trim, List.dropWhile_eq_nil_iff.mpr hblank]
    rfl
  rw [parseId, hget, Option.getD_some, htrim]

theorem parseId_of_trim_ne_nil {owner literal : String} {attrs : Attributes}
    (hget : attrs.get? "id" = some literal) (htrim : Text.trim literal.toList ≠ []) :
    parseId owner attrs =
      match readUInt32? (Text.trim literal.toList) with
      | some id => .ok id
      | none => .error (.invalidId owner (String.ofList (Text.trim literal.toList))) := by
  unfold parseId
  rw [hget, Option.getD_some]
  cases htext : Text.trim literal.toList with
  | nil => exact (htrim htext).elim
  | cons c cs => rfl

/-- An id that is there is read from the literals of fields of the same type, as the same number. -/
theorem readUInt32?_eq_some_iff_parseInteger {field literal : String} {id : UInt32} :
    readUInt32? (Text.trim literal.toList) = some id ↔
      ∃ v, parseInteger field .uint32 literal = .ok v ∧ v.toInt = id.toNat := by
  have hid : id.toNat < 2 ^ 32 := id.toNat_lt
  have hrange : IntType.uint32.InRange id.toNat := by
    simp only [IntType.InRange, IntType.uint32, Width.bits, Bool.false_eq_true, if_false]
    omega
  rw [readUInt32?, readWord?_eq_some_iff isWord_uint32]
  constructor
  · intro h
    obtain ⟨v, hsigned, hv⟩ := hrange.exists_value
    exact ⟨v, parseInteger_eq_ok_iff.mpr ⟨hsigned, by rwa [hv], by rwa [hv]⟩, hv⟩
  · rintro ⟨v, hparse, hv⟩
    rw [← hv]
    exact (parseInteger_eq_ok_iff.mp hparse).2.1

/-! ## Parts of a decimal -/

theorem toInt_toInt64_of_isSigned {v : IntValue} (h : v.isSigned) : v.toInt64.toInt = v.toInt := by
  cases v with
  | signed x => rfl
  | unsigned x => cases h

/-- Dropping the higher bits of a number of 32 bits leaves the number. -/
theorem toInt_toInt32_of_inRange {v : IntValue} (h : v.isSigned)
    (hrange : IntType.int32.InRange v.toInt) : v.toInt32.toInt = v.toInt := by
  simp only [IntType.InRange, IntType.int32, Width.bits, if_true] at hrange
  rw [IntValue.toInt32, Int64.toInt_toInt32, toInt_toInt64_of_isSigned h]
  apply Int.bmod_eq_of_le <;> omega

theorem OperatorRecord.initialAs_map {α β : Type} {op : OperatorRecord}
    {read : String → Except Fault α} {f : α → β} {initial : Option β}
    (h : op.initialAs (fun literal => (read literal).map f) = .ok initial) :
    ∃ v, op.initialAs read = .ok v ∧ initial = v.map f := by
  unfold initialAs at h ⊢
  split at h
  case h_1 literal hliteral =>
    obtain ⟨w, hw, rfl⟩ := Fallible.map_eq_ok h
    obtain ⟨v, hv, rfl⟩ := Fallible.map_eq_ok hw
    exact ⟨some v, by rw [hv]; rfl, rfl⟩
  case h_2 =>
    cases h
    exact ⟨Option.none, rfl, rfl⟩

theorem OperatorRecord.mem_initialAs {α : Type} {op : OperatorRecord}
    {read : String → Except Fault α} {initial : Option α} (h : op.initialAs read = .ok initial)
    {v : α} (hv : v ∈ initial) : ∃ literal, read literal = .ok v := by
  unfold initialAs at h
  split at h
  case h_1 literal _ =>
    obtain ⟨w, hread, rfl⟩ := Fallible.map_eq_ok h
    obtain rfl : w = v := Option.some.inj hv
    exact ⟨literal, hread⟩
  case h_2 =>
    cases h
    cases hv

/-- An initial value, if there is one, is a value of the type and is kept in its form. -/
def IntType.Admits (t : IntType) (initial : Option IntValue) : Prop :=
  ∀ v ∈ initial, v.isSigned = t.signed ∧ t.InRange v.toInt

theorem IntType.admits_of_initialAs {field : String} {t : IntType} {op : OperatorRecord}
    {initial : Option IntValue} (h : op.initialAs (parseInteger field t) = .ok initial) :
    t.Admits initial := by
  intro v hv
  obtain ⟨literal, hread⟩ := OperatorRecord.mem_initialAs h hv
  obtain ⟨hsigned, _, hrange⟩ := parseInteger_eq_ok_iff.mp hread
  exact ⟨hsigned, hrange⟩

/-- Values of the type keep their numbers in words that have room for the range of the type. -/
theorem IntType.Admits.map_toInt {t : IntType} {initial : Option IntValue} {word : Type}
    {toWord : IntValue → word} {toInt : word → ℤ} (h : t.Admits initial)
    (hword : ∀ v : IntValue, v.isSigned = t.signed → t.InRange v.toInt →
      toInt (toWord v) = v.toInt) :
    (initial.map toWord).map toInt = initial.map IntValue.toInt := by
  rw [Option.map_map]
  apply Option.map_congr
  intro v hv
  obtain ⟨hsigned, hrange⟩ := h v hv
  exact hword v hsigned hrange

/-- The parts of a split decimal are the numbers that were read for them. -/
theorem payload_split_eq_ok {resolve : Reference → Except Fault (Option Target)}
    {head : FieldHead} {mantissa exponent : Option Operator} {payload : LeafPayload}
    (h : Leaf.payload resolve head (.decimal (.split mantissa exponent)) = .ok payload) :
    ∃ m e mantissaValue exponentValue,
      payload = .splitDecimal (.ofOperator mantissa) m (.ofOperator exponent) e ∧
      (OperatorRecord.ofOperator mantissa).initialAs (parseInteger head.name .int64) =
        .ok mantissaValue ∧
      (OperatorRecord.ofOperator exponent).initialAs (parseInteger head.name .int32) =
        .ok exponentValue ∧
      m.map Int64.toInt = mantissaValue.map IntValue.toInt ∧
      e.map Int32.toInt = exponentValue.map IntValue.toInt := by
  obtain ⟨m, hm, h⟩ := Fallible.bind_eq_ok h
  obtain ⟨e, he, h⟩ := Fallible.bind_eq_ok h
  cases h
  obtain ⟨mantissaValue, hmantissa, rfl⟩ := OperatorRecord.initialAs_map hm
  obtain ⟨exponentValue, hexponent, rfl⟩ := OperatorRecord.initialAs_map he
  refine ⟨_, _, mantissaValue, exponentValue, rfl, hmantissa, hexponent, ?_, ?_⟩
  · apply (IntType.admits_of_initialAs hmantissa).map_toInt
    intro v hsigned _
    exact toInt_toInt64_of_isSigned hsigned
  · apply (IntType.admits_of_initialAs hexponent).map_toInt
    intro v hsigned hrange
    exact toInt_toInt32_of_inRange hsigned hrange

/-! ## Every literal -/

/-- How the literals of integers and ids are read, for the field or element of the given name. An id
that is not blank is read like an unsigned field of 32 bits, but reported without the blanks around
it. -/
structure IntegersSpec (owner : String) : Prop where
  reads : ∀ (t : IntType) (literal : String) (n : ℤ),
    DenotesInt t.signed (Text.trim literal.toList) n → t.InRange n →
      ∃ v, parseInteger owner t literal = .ok v ∧ v.isSigned = t.signed ∧ v.toInt = n
  rejects : ∀ (t : IntType) (literal : String),
    (¬ ∃ n, DenotesInt t.signed (Text.trim literal.toList) n ∧ t.InRange n) →
      parseInteger owner t literal = .error (.invalidInteger owner t literal)
  missingId : ∀ attrs : Attributes, attrs.get? "id" = none → parseId owner attrs = .ok 0
  blankId : ∀ (attrs : Attributes) (literal : String), attrs.get? "id" = some literal →
    (∀ c ∈ literal.toList, Text.isBlank c) → parseId owner attrs = .ok 0
  readsId : ∀ (attrs : Attributes) (literal field : String) (id : UInt32),
    attrs.get? "id" = some literal → (∃ c ∈ literal.toList, Text.isBlank c = false) →
      (parseId owner attrs = .ok id ↔
        ∃ v, parseInteger field .uint32 literal = .ok v ∧ v.toInt = id.toNat)
  rejectsId : ∀ (attrs : Attributes) (literal field : String),
    attrs.get? "id" = some literal → (∃ c ∈ literal.toList, Text.isBlank c = false) →
      (∀ v, parseInteger field .uint32 literal ≠ .ok v) →
        parseId owner attrs =
          .error (.invalidId owner (String.ofList (Text.trim literal.toList)))
  keepsMantissa : ∀ (literal : String) (v : IntValue),
    parseInteger owner .int64 literal = .ok v → v.toInt64.toInt = v.toInt
  keepsExponent : ∀ (literal : String) (v : IntValue),
    parseInteger owner .int32 literal = .ok v → v.toInt32.toInt = v.toInt
  keepsParts : ∀ (resolve : Reference → Except Fault (Option Target)) (head : FieldHead)
    (mantissa exponent : Option Operator) (payload : LeafPayload),
    Leaf.payload resolve head (.decimal (.split mantissa exponent)) = .ok payload →
      ∃ m e mantissaValue exponentValue,
        payload = .splitDecimal (.ofOperator mantissa) m (.ofOperator exponent) e ∧
        (OperatorRecord.ofOperator mantissa).initialAs (parseInteger head.name .int64) =
          .ok mantissaValue ∧
        (OperatorRecord.ofOperator exponent).initialAs (parseInteger head.name .int32) =
          .ok exponentValue ∧
        m.map Int64.toInt = mantissaValue.map IntValue.toInt ∧
        e.map Int32.toInt = exponentValue.map IntValue.toInt

theorem integers_spec (owner : String) : IntegersSpec owner where
  reads := by
    intro t literal n hdenotes hrange
    obtain ⟨v, hsigned, rfl⟩ := hrange.exists_value
    exact ⟨v, parseInteger_eq_ok_iff.mpr ⟨hsigned, hdenotes, hrange⟩, hsigned, rfl⟩
  rejects := by
    intro t literal h
    apply parseInteger_of_not_ok
    intro v hv
    exact h ⟨v.toInt, (parseInteger_eq_ok_iff.mp hv).2⟩
  missingId := fun _ => parseId_of_missing
  blankId := fun _ _ => parseId_of_blank
  readsId := by
    intro attrs literal field id hget hblank
    rw [parseId_of_trim_ne_nil hget (Text.trim_ne_nil hblank),
      ← readUInt32?_eq_some_iff_parseInteger]
    cases readUInt32? (Text.trim literal.toList) <;> simp
  rejectsId := by
    intro attrs literal field hget hblank h
    rw [parseId_of_trim_ne_nil hget (Text.trim_ne_nil hblank)]
    cases hread : readUInt32? (Text.trim literal.toList) with
    | none => rfl
    | some id =>
        obtain ⟨v, hv, _⟩ := readUInt32?_eq_some_iff_parseInteger.mp hread
        exact (h v hv).elim
  keepsMantissa := fun _ _ h => toInt_toInt64_of_isSigned (isSigned_of_parseInteger h)
  keepsExponent := by
    intro literal v h
    obtain ⟨hsigned, _, hrange⟩ := parseInteger_eq_ok_iff.mp h
    exact toInt_toInt32_of_inRange hsigned hrange
  keepsParts := fun _ _ _ _ _ h => payload_split_eq_ok h

end FastSchema
