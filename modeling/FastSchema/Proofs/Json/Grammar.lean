import FastSchema.Json.Basic
import FastSchema.Proofs.Literal.Digits
import Mathlib.Tactic.IntervalCases

/-! # The grammar of JSON texts

Which texts are JSON, by the productions of the standard: values with blanks around them, numbers
with an optional fraction and exponent, strings whose quotes, backslashes and control characters are
escaped. What is written for a value is such a text. -/

namespace FastSchema.Json

/-! ## The productions -/

def IsBlank (s : List Char) : Prop := ∀ c ∈ s, c ∈ [' ', '\t', '\n', '\r']

/-- A single zero, or digits that do not begin with one. -/
def IsNatural (s : List Char) : Prop :=
  s = ['0'] ∨ isDigits s ∧ s.head? ≠ some '0'

def IsFraction (s : List Char) : Prop :=
  s = [] ∨ ∃ digits, isDigits digits ∧ s = '.' :: digits

def IsExponent (s : List Char) : Prop :=
  s = [] ∨ ∃ mark sign digits, mark ∈ ['e', 'E'] ∧ sign ∈ [[], ['+'], ['-']] ∧ isDigits digits ∧
    s = mark :: (sign ++ digits)

def IsNumber (s : List Char) : Prop :=
  ∃ sign natural fraction exponent, sign ∈ [[], ['-']] ∧ IsNatural natural ∧
    IsFraction fraction ∧ IsExponent exponent ∧ s = sign ++ natural ++ fraction ++ exponent

def IsHexDigit (c : Char) : Prop :=
  c ∈ ['0', '1', '2', '3', '4', '5', '6', '7', '8', '9', 'a', 'b', 'c', 'd', 'e', 'f',
    'A', 'B', 'C', 'D', 'E', 'F']

/-- One character of a string, as itself or as an escape. -/
inductive IsStringItem : List Char → Prop where
  | plain {c : Char} (hcontrol : 0x20 ≤ c.toNat) (hquote : c ≠ '"') (hslash : c ≠ '\\') :
      IsStringItem [c]
  | short {c : Char} (h : c ∈ ['"', '\\', '/', 'b', 'f', 'n', 'r', 't']) : IsStringItem ['\\', c]
  | code {a b c d : Char} (ha : IsHexDigit a) (hb : IsHexDigit b) (hc : IsHexDigit c)
      (hd : IsHexDigit d) : IsStringItem ['\\', 'u', a, b, c, d]

def IsString (s : List Char) : Prop :=
  ∃ items : List (List Char), (∀ item ∈ items, IsStringItem item) ∧
    s = '"' :: (items.flatten ++ ['"'])

mutual

inductive IsValue : List Char → Prop where
  | null : IsValue ['n', 'u', 'l', 'l']
  | yes : IsValue ['t', 'r', 'u', 'e']
  | no : IsValue ['f', 'a', 'l', 's', 'e']
  | number {s : List Char} (h : IsNumber s) : IsValue s
  | string {s : List Char} (h : IsString s) : IsValue s
  | emptyArray {blank : List Char} (h : IsBlank blank) : IsValue ('[' :: (blank ++ [']']))
  | array {s : List Char} (h : IsItems s) : IsValue ('[' :: (s ++ [']']))
  | emptyObject {blank : List Char} (h : IsBlank blank) :
      IsValue ('\x7b' :: (blank ++ ['\x7d']))
  | object {s : List Char} (h : IsMembers s) : IsValue ('\x7b' :: (s ++ ['\x7d']))

/-- A value with blanks around it. -/
inductive IsItem : List Char → Prop where
  | mk {before value after : List Char} (hbefore : IsBlank before) (hvalue : IsValue value)
      (hafter : IsBlank after) : IsItem (before ++ value ++ after)

/-- One or more items with commas between them. -/
inductive IsItems : List Char → Prop where
  | one {s : List Char} (h : IsItem s) : IsItems s
  | more {s rest : List Char} (h : IsItem s) (hrest : IsItems rest) : IsItems (s ++ ',' :: rest)

/-- A key and an item with a colon between them. -/
inductive IsMember : List Char → Prop where
  | mk {before key after item : List Char} (hbefore : IsBlank before) (hkey : IsString key)
      (hafter : IsBlank after) (hitem : IsItem item) :
      IsMember (before ++ key ++ after ++ ':' :: item)

/-- One or more members with commas between them. -/
inductive IsMembers : List Char → Prop where
  | one {s : List Char} (h : IsMember s) : IsMembers s
  | more {s rest : List Char} (h : IsMember s) (hrest : IsMembers rest) :
      IsMembers (s ++ ',' :: rest)

end

/-- A whole text is a value with blanks around it. -/
def IsText (s : List Char) : Prop := IsItem s

/-! ## Numbers and strings -/

/-- A number is not written with leading zeros. -/
theorem head?_toDigits_ne_zero {n : Nat} (h : 0 < n) : (Nat.toDigits 10 n).head? ≠ some '0' := by
  induction n using Nat.strongRecOn with
  | ind n ih =>
      by_cases hsmall : n < 10
      · rw [Nat.toDigits_of_lt_base hsmall]
        interval_cases n <;> decide
      · have hlarge : 10 ≤ n := Nat.le_of_not_lt hsmall
        have hfirst := ih (n / 10) (by omega) (by omega)
        rw [Nat.toDigits_of_base_le (by omega) hlarge, List.head?_append]
        cases hhead : (Nat.toDigits 10 (n / 10)).head? with
        | none => exact (Nat.toDigits_ne_nil (List.head?_eq_none_iff.mp hhead)).elim
        | some d => rwa [hhead] at hfirst

theorem isNatural_toDigits (n : Nat) : IsNatural (Nat.toDigits 10 n) := by
  by_cases h : n = 0
  · subst h
    exact .inl rfl
  · exact .inr ⟨isDigits_toDigits n, head?_toDigits_ne_zero (by omega)⟩

/-- The sign and the digits of a written number. -/
theorem toList_toString_int (n : Int) :
    (toString n).toList = (if n < 0 then ['-'] else []) ++ Nat.toDigits 10 n.natAbs := by
  rw [Int.toString_eq_repr, Int.repr_eq_if]
  by_cases h : 0 ≤ n
  · have hsign : ¬ n < 0 := by omega
    have habs : n.toNat = n.natAbs := by omega
    simp [h, hsign, habs]
  · have hsign : n < 0 := by omega
    have habs : (-n).toNat = n.natAbs := by omega
    simp [h, hsign, habs]

theorem isNumber_toString (n : Int) : IsNumber (toString n).toList := by
  refine ⟨if n < 0 then ['-'] else [], Nat.toDigits 10 n.natAbs, [], [], ?_,
    isNatural_toDigits _, .inl rfl, .inl rfl, ?_⟩
  · by_cases h : n < 0 <;> simp [h]
  · rw [toList_toString_int, List.append_nil, List.append_nil]

theorem isHexDigit_digitChar {n : Nat} (h : n < 16) : IsHexDigit (Nat.digitChar n) := by
  unfold IsHexDigit
  interval_cases n <;> decide

theorem isStringItem_escapeChar (c : Char) : IsStringItem (escapeChar c) := by
  unfold escapeChar
  split
  · exact .short (by decide)
  split
  · exact .short (by decide)
  split
  · exact .short (by decide)
  split
  · exact .short (by decide)
  split
  · exact .short (by decide)
  split
  · exact .short (by decide)
  split
  · exact .short (by decide)
  split
  · rename_i hcontrol
    have hzero : IsHexDigit '0' := isHexDigit_digitChar (n := 0) (by omega)
    exact .code hzero hzero (isHexDigit_digitChar (by omega)) (isHexDigit_digitChar (by omega))
  · rename_i hquote hslash _ _ _ _ _ hcontrol
    exact .plain (by omega) hquote hslash

/-- A string is written as a string, whatever characters it has. -/
theorem exists_writeString (s : String) :
    ∃ t, IsString t ∧ ∀ rest, writeString s rest = t ++ rest := by
  refine ⟨'"' :: ((s.toList.map escapeChar).flatten ++ ['"']),
    ⟨s.toList.map escapeChar, fun item hitem => ?_, rfl⟩, fun rest => ?_⟩
  · obtain ⟨c, -, rfl⟩ := List.mem_map.mp hitem
    exact isStringItem_escapeChar c
  · simp [writeString, List.flatMap_def]

/-! ## Values -/

theorem isBlank_nil : IsBlank [] := by simp [IsBlank]

theorem exists_newLine (depth : Nat) :
    ∃ t, IsBlank t ∧ ∀ rest, newLine depth rest = t ++ rest := by
  refine ⟨'\n' :: List.replicate (2 * depth) ' ', fun c hc => ?_, fun rest => rfl⟩
  rcases List.mem_cons.mp hc with rfl | hc
  · decide
  · obtain rfl := List.eq_of_mem_replicate hc
    decide

mutual

theorem exists_write (depth : Nat) (v : Json) :
    ∃ t, IsValue t ∧ ∀ rest, write depth v rest = t ++ rest := by
  cases v with
  | null => exact ⟨_, .null, fun _ => rfl⟩
  | bool b =>
      cases b with
      | true => exact ⟨_, .yes, fun _ => rfl⟩
      | false => exact ⟨_, .no, fun _ => rfl⟩
  | number n => exact ⟨_, .number (isNumber_toString n), fun _ => rfl⟩
  | string s =>
      obtain ⟨t, ht, hwrite⟩ := exists_writeString s
      exact ⟨t, .string ht, fun rest => by rw [write, hwrite]⟩
  | array items =>
      cases items with
      | nil => exact ⟨_, .emptyArray isBlank_nil, fun _ => rfl⟩
      | cons item items =>
          obtain ⟨inner, hinner, hinner'⟩ := exists_newLine (depth + 1)
          obtain ⟨outer, houter, houter'⟩ := exists_newLine depth
          obtain ⟨first, hfirst, hfirst'⟩ := exists_write (depth + 1) item
          obtain ⟨later, hlater, hlater'⟩ := exists_writeItems (depth + 1) items
          have hitem (blank : List Char) (hblank : IsBlank blank) :
              IsItem (inner ++ first ++ blank) := .mk hinner hfirst hblank
          refine ⟨_, .array (hlater hitem houter), fun rest => ?_⟩
          simp [write, hinner', houter', hfirst', hlater']
  | object members =>
      cases members with
      | nil => exact ⟨_, .emptyObject isBlank_nil, fun _ => rfl⟩
      | cons member members =>
          obtain ⟨inner, hinner, hinner'⟩ := exists_newLine (depth + 1)
          obtain ⟨outer, houter, houter'⟩ := exists_newLine depth
          obtain ⟨first, hfirst, hfirst'⟩ := exists_writeMember (depth + 1) hinner member
          obtain ⟨later, hlater, hlater'⟩ := exists_writeMembers (depth + 1) members
          refine ⟨_, .object (hlater hfirst houter), fun rest => ?_⟩
          simp [write, hinner', houter', hfirst', hlater']

theorem exists_writeItems (depth : Nat) (items : List Json) :
    ∃ t, (∀ {first blank}, (∀ blank, IsBlank blank → IsItem (first ++ blank)) → IsBlank blank →
        IsItems (first ++ t ++ blank)) ∧
      ∀ rest, writeItems depth items rest = t ++ rest := by
  cases items with
  | nil =>
      refine ⟨[], fun hfirst hblank => ?_, fun _ => rfl⟩
      rw [List.append_nil]
      exact .one (hfirst _ hblank)
  | cons item items =>
      obtain ⟨line, hline, hline'⟩ := exists_newLine depth
      obtain ⟨text, htext, htext'⟩ := exists_write depth item
      obtain ⟨later, hlater, hlater'⟩ := exists_writeItems depth items
      refine ⟨',' :: (line ++ text ++ later), fun {first blank} hfirst hblank => ?_, fun rest => ?_⟩
      · have hitem (blank : List Char) (hblank : IsBlank blank) :
            IsItem (line ++ text ++ blank) := .mk hline htext hblank
        have hrest := hlater hitem hblank
        have hmore := IsItems.more (hfirst [] isBlank_nil) hrest
        simpa using hmore
      · simp [writeItems, hline', htext', hlater']

theorem exists_writeMembers (depth : Nat) (members : List (String × Json)) :
    ∃ t, (∀ {first blank}, (∀ blank, IsBlank blank → IsMember (first ++ blank)) → IsBlank blank →
        IsMembers (first ++ t ++ blank)) ∧
      ∀ rest, writeMembers depth members rest = t ++ rest := by
  cases members with
  | nil =>
      refine ⟨[], fun hfirst hblank => ?_, fun _ => rfl⟩
      rw [List.append_nil]
      exact .one (hfirst _ hblank)
  | cons member members =>
      obtain ⟨line, hline, hline'⟩ := exists_newLine depth
      obtain ⟨text, htext, htext'⟩ := exists_writeMember depth hline member
      obtain ⟨later, hlater, hlater'⟩ := exists_writeMembers depth members
      refine ⟨',' :: (line ++ text ++ later), fun {first blank} hfirst hblank => ?_, fun rest => ?_⟩
      · have hrest := hlater htext hblank
        have hmore := IsMembers.more (hfirst [] isBlank_nil) hrest
        simpa using hmore
      · simp [writeMembers, hline', htext', hlater']

theorem exists_writeMember (depth : Nat) {before : List Char} (hbefore : IsBlank before)
    (member : String × Json) :
    ∃ t, (∀ blank, IsBlank blank → IsMember (before ++ t ++ blank)) ∧
      ∀ rest, writeMember depth member rest = t ++ rest := by
  obtain ⟨key, value⟩ := member
  obtain ⟨name, hname, hname'⟩ := exists_writeString key
  obtain ⟨text, htext, htext'⟩ := exists_write depth value
  have hspace : IsBlank [' '] := by simp [IsBlank]
  refine ⟨name ++ ':' :: ' ' :: text, fun blank hblank => ?_, fun rest => ?_⟩
  · have hmember := IsMember.mk hbefore hname isBlank_nil (.mk hspace htext hblank)
    simpa using hmember
  · simp [writeMember, hname', htext']

end

theorem isValue_pretty (v : Json) : IsValue v.pretty.toList := by
  obtain ⟨t, ht, hwrite⟩ := exists_write 0 v
  rw [pretty, String.toList_ofList, hwrite, List.append_nil]
  exact ht

end FastSchema.Json
