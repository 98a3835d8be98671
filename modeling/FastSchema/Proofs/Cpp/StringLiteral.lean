import FastSchema.Cpp.StringLiteral
import FastSchema.Proofs.Text.Utf8
import Mathlib.Data.Nat.Notation

/-! # Reading string literals back

A string literal is read as a C++ compiler reads it: an octal escape has at most three digits, and a
hexadecimal escape takes every digit that follows it. So what an escape denotes depends on the text
after it, and the literals that are written are read back with any text after them. -/

namespace FastSchema.Cpp.StringLiteral

/-! ## Reading -/

def digit? (base : ℕ) (c : Char) : Option ℕ :=
  ("0123456789abcdef".toList.idxOf? c.toLower).filter (· < base)

def isDigit (base : ℕ) (c : Char) : Bool := (digit? base c).isSome

/-- The byte that the digits of an escape denote, of which there has to be one. -/
def numericEscape? (base : ℕ) (digits : List Char) : Option UInt8 :=
  let number := digits.foldl (fun n c => base * n + (digit? base c).getD 0) 0
  if digits ≠ [] ∧ number < 256 then some (UInt8.ofNat number) else none

/-- What a single character after a backslash denotes. -/
def simpleEscape? (c : Char) : Option UInt8 :=
  [('\'', 0x27), ('"', 0x22), ('?', 0x3F), ('\\', 0x5C), ('a', 0x07), ('b', 0x08), ('f', 0x0C),
    ('n', 0x0A), ('r', 0x0D), ('t', 0x09), ('v', 0x0B)].lookup c

/-- The byte that the text after a backslash denotes, and how many characters denote it. -/
def escape? : List Char → Option (UInt8 × ℕ)
  | [] => none
  | c :: cs =>
    if c = 'x' then
      let digits := cs.takeWhile (isDigit 16)
      (numericEscape? 16 digits).map (·, digits.length + 1)
    else
      match simpleEscape? c with
      | some b => some (b, 1)
      | none =>
        let digits := ((c :: cs).take 3).takeWhile (isDigit 8)
        (numericEscape? 8 digits).map (·, digits.length)

def prepend (bytes : List UInt8) (read : Option (List UInt8 × List Char)) :
    Option (List UInt8 × List Char) :=
  read.map fun (more, rest) => (bytes ++ more, rest)

/-- Reads up to the quote that ends a literal. Answers the bytes that the literal denotes and the
text after it. -/
def readBody : List Char → Option (List UInt8 × List Char)
  | [] => none
  | c :: cs =>
    if c = '"' then some ([], cs)
    else if c = '\n' then none
    else if c = '\\' then
      match escape? cs with
      | some (b, length) => prepend [b] (readBody (cs.drop length))
      | none => none
    else prepend (String.utf8EncodeChar c) (readBody cs)
termination_by cs => cs.length

def readLiteral : List Char → Option (List UInt8 × List Char)
  | [] => none
  | c :: cs => if c = '"' then readBody cs else none

theorem prepend_prepend (bytes more : List UInt8) (read : Option (List UInt8 × List Char)) :
    prepend bytes (prepend more read) = prepend (bytes ++ more) read := by
  cases read <;> simp [prepend]

theorem readBody_quote (rest : List Char) : readBody ('"' :: rest) = some ([], rest) := by
  rw [readBody, if_pos rfl]

theorem readBody_escape (cs : List Char) {rest : List Char} {b : UInt8}
    (h : escape? (cs ++ rest) = some (b, cs.length)) :
    readBody ('\\' :: (cs ++ rest)) = prepend [b] (readBody rest) := by
  rw [readBody, if_neg (by decide), if_neg (by decide), if_pos rfl]
  simp only [h, List.drop_left]

theorem readBody_plain {c : Char} (hquote : c ≠ '"') (hline : c ≠ '\n') (hbackslash : c ≠ '\\')
    (rest : List Char) :
    readBody (c :: rest) = prepend (String.utf8EncodeChar c) (readBody rest) := by
  rw [readBody, if_neg hquote, if_neg hline, if_neg hbackslash]

/-! ## Escapes -/

theorem escape?_simple {c : Char} {b : UInt8} (hx : c ≠ 'x') (h : simpleEscape? c = some b)
    (rest : List Char) : escape? (c :: rest) = some (b, 1) := by
  simp only [escape?, if_neg hx, h]

theorem digit?_digitChar : ∀ n < 8, digit? 8 (Nat.digitChar n) = some n := by decide

theorem digit?_upperDigit : ∀ n < 16, digit? 16 (Text.upperDigit n) = some n := by decide

/-- A digit begins no other escape. -/
theorem not_escape_digitChar :
    ∀ n < 8, Nat.digitChar n ≠ 'x' ∧ simpleEscape? (Nat.digitChar n) = none := by decide

theorem isDigit_of_digit? {base n : ℕ} {c : Char} (h : digit? base c = some n) :
    isDigit base c := by
  simp [isDigit, h]

theorem numericEscape?_octal (b : UInt8) :
    numericEscape? 8 [Nat.digitChar (b.toNat / 64), Nat.digitChar (b.toNat / 8 % 8),
      Nat.digitChar (b.toNat % 8)] = some b := by
  have hb : b.toNat < 256 := b.toNat_lt
  have hnumber : 8 * (8 * (b.toNat / 64) + b.toNat / 8 % 8) + b.toNat % 8 = b.toNat := by omega
  simp [numericEscape?, digit?_digitChar _ (show b.toNat / 64 < 8 by omega),
    digit?_digitChar _ (show b.toNat / 8 % 8 < 8 by omega),
    digit?_digitChar _ (show b.toNat % 8 < 8 by omega), hnumber, hb]

theorem numericEscape?_hexPair (b : UInt8) :
    numericEscape? 16 (Text.hexPair Text.upperDigit b) = some b := by
  have hb : b.toNat < 256 := b.toNat_lt
  have hnumber : 16 * (b.toNat / 16) + b.toNat % 16 = b.toNat := by omega
  simp [numericEscape?, Text.hexPair, digit?_upperDigit _ (show b.toNat / 16 < 16 by omega),
    digit?_upperDigit _ (show b.toNat % 16 < 16 by omega), hnumber, hb]

/-- Three octal digits are one escape, whatever follows them. -/
theorem readBody_octalEscape (b : UInt8) (rest : List Char) :
    readBody (octalEscape b ++ rest) = prepend [b] (readBody rest) := by
  have hb : b.toNat < 256 := b.toNat_lt
  have hdigit : ∀ n < 8, isDigit 8 (Nat.digitChar n) :=
    fun n hn => isDigit_of_digit? (digit?_digitChar n hn)
  obtain ⟨hx, hsimple⟩ := not_escape_digitChar (b.toNat / 64) (by omega)
  apply readBody_escape [Nat.digitChar (b.toNat / 64), Nat.digitChar (b.toNat / 8 % 8),
    Nat.digitChar (b.toNat % 8)]
  simp only [List.cons_append, List.nil_append, escape?, if_neg hx, hsimple, List.take_succ_cons,
    List.take_zero, List.takeWhile_cons, hdigit _ (show b.toNat / 64 < 8 by omega),
    hdigit _ (show b.toNat / 8 % 8 < 8 by omega), hdigit _ (show b.toNat % 8 < 8 by omega),
    if_true, List.takeWhile_nil, numericEscape?_octal, Option.map_some]

def EndsHex (rest : List Char) : Prop := ∀ c ∈ rest.head?, isDigit 16 c = false

/-- Two hexadecimal digits are one escape, unless another such digit follows them. -/
theorem readBody_hexEscape (b : UInt8) {rest : List Char} (h : EndsHex rest) :
    readBody (hexEscape b ++ rest) = prepend [b] (readBody rest) := by
  have hb : b.toNat < 256 := b.toNat_lt
  have hdigits : ∀ c ∈ Text.hexPair Text.upperDigit b, isDigit 16 c := by
    simp only [Text.hexPair, List.forall_mem_cons]
    exact ⟨isDigit_of_digit? (digit?_upperDigit _ (by omega)),
      isDigit_of_digit? (digit?_upperDigit _ (by omega)), by simp⟩
  have hrest : rest.takeWhile (isDigit 16) = [] := by
    cases rest with
    | nil => rfl
    | cons c rest => simp [h c (by simp)]
  apply readBody_escape ('x' :: Text.hexPair Text.upperDigit b)
  simp only [List.cons_append, escape?, if_true, List.takeWhile_append_of_pos hdigits, hrest,
    List.append_nil, numericEscape?_hexPair, Option.map_some, List.length_cons]

/-! ## Texts -/

theorem toNat_ofNat (b : UInt8) : (Char.ofNat b.toNat).toNat = b.toNat := by
  have hb : b.toNat < 256 := b.toNat_lt
  have hvalid : b.toNat.isValidChar := Or.inl (by omega)
  rw [Char.ofNat, dif_pos hvalid]
  rfl

/-- A byte below the highest bit is the character of the same number. -/
theorem utf8EncodeChar_ofNat {b : UInt8} (h : b.toNat < 0x80) :
    String.utf8EncodeChar (Char.ofNat b.toNat) = [b] := by
  have hbyte : (Char.ofNat b.toNat).toUInt8 = b := by
    apply UInt8.toNat_inj.mp
    rw [Char.toUInt8, UInt32.toNat_toUInt8]
    show (Char.ofNat b.toNat).toNat % 2 ^ 8 = b.toNat
    rw [toNat_ofNat]
    omega
  rw [Text.utf8EncodeChar_of_ascii (by rwa [toNat_ofNat]), hbyte]

theorem ofNat_ne {b : UInt8} {c : Char} (h : b.toNat ≠ c.toNat) : Char.ofNat b.toNat ≠ c := by
  rintro rfl
  exact h (toNat_ofNat b).symm

theorem readBody_escapeByte (b : UInt8) (rest : List Char) :
    readBody (escapeByte b ++ rest) = prepend [b] (readBody rest) := by
  unfold escapeByte
  split_ifs with hquote hbackslash hline htab hplain
  · subst hquote
    exact readBody_escape ['"'] (escape?_simple (by decide) (by decide) rest)
  · subst hbackslash
    exact readBody_escape ['\\'] (escape?_simple (by decide) (by decide) rest)
  · subst hline
    exact readBody_escape ['n'] (escape?_simple (by decide) (by decide) rest)
  · subst htab
    exact readBody_escape ['t'] (escape?_simple (by decide) (by decide) rest)
  · have hne : ∀ other : UInt8, b ≠ other → b.toNat ≠ other.toNat :=
      fun other h heq => h (UInt8.toNat_inj.mp heq)
    have hlast : b.toNat ≤ 0x7E := UInt8.le_iff_toNat_le.mp hplain.2
    rw [List.singleton_append, readBody_plain (ofNat_ne (hne _ hquote)) (ofNat_ne (hne _ hline))
      (ofNat_ne (hne _ hbackslash)), utf8EncodeChar_ofNat (by omega)]
  · exact readBody_octalEscape b rest

theorem readBody_flatMap_escapeByte (bytes : List UInt8) (rest : List Char) :
    readBody (bytes.flatMap escapeByte ++ rest) = prepend bytes (readBody rest) := by
  induction bytes with
  | nil => cases h : readBody rest <;> simp [prepend, h]
  | cons b bytes ih =>
      rw [List.flatMap_cons, List.append_assoc, readBody_escapeByte, ih, prepend_prepend]
      rfl

/-- The literal of a text is read as the bytes of the text, and nothing after it is read. -/
theorem readLiteral_quoted (s : String) (rest : List Char) :
    readLiteral ((quoted s).toList ++ rest) = some (Text.utf8 s, rest) := by
  have htext : (quoted s).toList ++ rest =
      '"' :: ((Text.utf8 s).flatMap escapeByte ++ '"' :: rest) := by
    simp [quoted, body]
  rw [htext, readLiteral, if_pos rfl, readBody_flatMap_escapeByte, readBody_quote]
  simp [prepend]

/-! ## Byte vectors -/

/-- What follows a hexadecimal escape in the literal of a byte vector does not continue it. -/
theorem endsHex_flatMap_hexEscape (bytes : List UInt8) (rest : List Char) :
    EndsHex (bytes.flatMap hexEscape ++ '"' :: rest) := by
  intro c hc
  cases bytes with
  | nil =>
      obtain rfl : '"' = c := by simpa using hc
      decide
  | cons b bytes =>
      obtain rfl : '\\' = c := by simpa [hexEscape] using hc
      decide

theorem readBody_flatMap_hexEscape (bytes : List UInt8) (rest : List Char) :
    readBody (bytes.flatMap hexEscape ++ '"' :: rest) = some (bytes, rest) := by
  induction bytes with
  | nil => exact readBody_quote rest
  | cons b bytes ih =>
      rw [List.flatMap_cons, List.append_assoc,
        readBody_hexEscape b (endsHex_flatMap_hexEscape bytes rest), ih]
      rfl

/-- The escapes of a byte vector between quotes are read as its bytes, and nothing after the
closing quote is read. -/
theorem readLiteral_bytesBody (bytes : List UInt8) (rest : List Char) :
    readLiteral ('"' :: ((bytesBody bytes).toList ++ '"' :: rest)) = some (bytes, rest) := by
  rw [readLiteral, if_pos rfl, bytesBody, String.toList_ofList, readBody_flatMap_hexEscape]

/-! ## Printable characters -/

def IsPrintable (c : Char) : Prop := ' ' ≤ c ∧ c ≤ '~'

instance : DecidablePred IsPrintable := fun c => inferInstanceAs (Decidable (' ' ≤ c ∧ c ≤ '~'))

theorem isPrintable_digitChar : ∀ n < 8, IsPrintable (Nat.digitChar n) := by decide

theorem isPrintable_upperDigit : ∀ n < 16, IsPrintable (Text.upperDigit n) := by decide

theorem isPrintable_octalEscape (b : UInt8) : ∀ c ∈ octalEscape b, IsPrintable c := by
  have hb : b.toNat < 256 := b.toNat_lt
  simp only [octalEscape, List.forall_mem_cons]
  exact ⟨by decide, isPrintable_digitChar _ (by omega), isPrintable_digitChar _ (by omega),
    isPrintable_digitChar _ (by omega), by simp⟩

theorem isPrintable_escapeByte (b : UInt8) : ∀ c ∈ escapeByte b, IsPrintable c := by
  unfold escapeByte
  split_ifs with hquote hbackslash hline htab hplain
  · simp [IsPrintable]
  · simp [IsPrintable]
  · simp [IsPrintable]
  · simp [IsPrintable]
  · have hfirst : 0x20 ≤ b.toNat := UInt8.le_iff_toNat_le.mp hplain.1
    have hlast : b.toNat ≤ 0x7E := UInt8.le_iff_toNat_le.mp hplain.2
    refine List.forall_mem_singleton.mpr ⟨?_, ?_⟩
    · show (' ').toNat ≤ (Char.ofNat b.toNat).toNat
      rwa [toNat_ofNat]
    · show (Char.ofNat b.toNat).toNat ≤ ('~').toNat
      rwa [toNat_ofNat]
  · exact isPrintable_octalEscape b

theorem isPrintable_hexEscape (b : UInt8) : ∀ c ∈ hexEscape b, IsPrintable c := by
  have hb : b.toNat < 256 := b.toNat_lt
  simp only [hexEscape, Text.hexPair, List.forall_mem_cons]
  exact ⟨by decide, by decide, isPrintable_upperDigit _ (by omega),
    isPrintable_upperDigit _ (by omega), by simp⟩

theorem isPrintable_body (s : String) : ∀ c ∈ (body s).toList, IsPrintable c := by
  rw [body, String.toList_ofList, List.forall_mem_flatMap]
  exact fun b _ => isPrintable_escapeByte b

theorem isPrintable_bytesBody (bytes : List UInt8) :
    ∀ c ∈ (bytesBody bytes).toList, IsPrintable c := by
  rw [bytesBody, String.toList_ofList, List.forall_mem_flatMap]
  exact fun b _ => isPrintable_hexEscape b

end FastSchema.Cpp.StringLiteral
