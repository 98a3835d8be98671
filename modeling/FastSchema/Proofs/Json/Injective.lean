import FastSchema.Proofs.Json.Grammar

/-! # Texts of different values

Two values are written alike only if they are equal. What follows a value is told apart from it, as
long as it does not begin with a digit that could belong to a number. -/

namespace FastSchema.Json

/-! ## Strings -/

/-- The number below sixteen that the digit stands for. -/
def nibbleOf? (digit : Char) : Option Nat :=
  (List.range 16).find? fun n => Nat.digitChar n = digit

def unescape : List Char → Option (Char × List Char)
  | '\\' :: 'u' :: _ :: _ :: high :: low :: rest => do
    return (Char.ofNat (16 * (← nibbleOf? high) + (← nibbleOf? low)), rest)
  | '\\' :: 'b' :: rest => some ('\x08', rest)
  | '\\' :: 'f' :: rest => some ('\x0c', rest)
  | '\\' :: 'n' :: rest => some ('\n', rest)
  | '\\' :: 'r' :: rest => some ('\r', rest)
  | '\\' :: 't' :: rest => some ('\t', rest)
  | '\\' :: c :: rest => some (c, rest)
  | '"' :: _ => none
  | c :: rest => some (c, rest)
  | [] => none

theorem nibbleOf?_digitChar {n : Nat} (h : n < 16) : nibbleOf? (Nat.digitChar n) = some n := by
  interval_cases n <;> decide

theorem unescape_escapeChar (c : Char) (rest : List Char) :
    unescape (escapeChar c ++ rest) = some (c, rest) := by
  unfold escapeChar
  split
  · subst_vars; rfl
  split
  · subst_vars; rfl
  split
  · subst_vars; rfl
  split
  · subst_vars; rfl
  split
  · subst_vars; rfl
  split
  · subst_vars; rfl
  split
  · subst_vars; rfl
  split
  · rename_i hcontrol
    have hhigh := nibbleOf?_digitChar (n := c.toNat / 16) (by omega)
    have hlow := nibbleOf?_digitChar (n := c.toNat % 16) (by omega)
    have hvalue : 16 * (c.toNat / 16) + c.toNat % 16 = c.toNat := Nat.div_add_mod _ _
    simp [unescape, hhigh, hlow, hvalue]
  · rename_i hquote hslash _ _ _ _ _ _
    rw [List.singleton_append]
    unfold unescape
    split <;> simp_all

/-- The end of a string can be told from its characters. -/
theorem cancel_escaped {s t rest rest' : List Char}
    (h : s.flatMap escapeChar ++ '"' :: rest = t.flatMap escapeChar ++ '"' :: rest') :
    s = t ∧ rest = rest' := by
  have hquote (r : List Char) : unescape ('"' :: r) = none := rfl
  induction s generalizing t with
  | nil =>
      cases t with
      | nil => simpa using h
      | cons d t =>
          rw [List.flatMap_nil, List.nil_append, List.flatMap_cons, List.append_assoc] at h
          have hread := congrArg unescape h
          rw [unescape_escapeChar, hquote] at hread
          cases hread
  | cons c s ih =>
      rw [List.flatMap_cons, List.append_assoc] at h
      cases t with
      | nil =>
          have hread := congrArg unescape h
          rw [unescape_escapeChar, List.flatMap_nil, List.nil_append, hquote] at hread
          cases hread
      | cons d t =>
          rw [List.flatMap_cons, List.append_assoc] at h
          have hread := congrArg unescape h
          rw [unescape_escapeChar, unescape_escapeChar] at hread
          obtain ⟨rfl, htail⟩ := Prod.mk.inj (Option.some.inj hread)
          obtain ⟨hst, hrest⟩ := ih htail
          exact ⟨congrArg (List.cons c) hst, hrest⟩

theorem cancel_writeString {s t : String} {rest rest' : List Char}
    (h : writeString s rest = writeString t rest') : s = t ∧ rest = rest' := by
  obtain ⟨hs, hrest⟩ := cancel_escaped (List.cons.inj h).2
  exact ⟨String.toList_inj.mp hs, hrest⟩

/-! ## Numbers -/

def NoDigit (s : List Char) : Prop := ∀ c ∈ s.head?, ¬ c.isDigit

theorem noDigit_nil : NoDigit [] := by simp [NoDigit]

theorem noDigit_cons {c : Char} (h : ¬ c.isDigit) (s : List Char) : NoDigit (c :: s) := by
  simpa [NoDigit] using h

theorem cancel_digits {ds es rest rest' : List Char} (hds : ∀ c ∈ ds, c.isDigit)
    (hes : ∀ c ∈ es, c.isDigit) (hrest : NoDigit rest) (hrest' : NoDigit rest')
    (h : ds ++ rest = es ++ rest') : ds = es ∧ rest = rest' := by
  have hspan {ds rest : List Char} (hds : ∀ c ∈ ds, c.isDigit) (hrest : NoDigit rest) :
      (ds ++ rest).takeWhile Char.isDigit = ds := by
    rw [List.takeWhile_append_of_pos hds]
    cases rest with
    | nil => simp
    | cons c rest =>
        have hc : ¬ c.isDigit := hrest c rfl
        simp [hc]
  have heq : ds = es := by rw [← hspan hds hrest, h, hspan hes hrest']
  subst heq
  exact ⟨rfl, List.append_cancel_left h⟩

theorem toDigits_injective {m n : Nat} (h : Nat.toDigits 10 m = Nat.toDigits 10 n) : m = n := by
  have hvalue := congrArg (Nat.ofDigitChars 10 · 0) h
  simpa only [Nat.ofDigitChars_toDigits (b := 10) (by omega) (by omega)] using hvalue

theorem cancel_number {m n : Int} {rest rest' : List Char} (hrest : NoDigit rest)
    (hrest' : NoDigit rest') (h : (toString m).toList ++ rest = (toString n).toList ++ rest') :
    m = n ∧ rest = rest' := by
  have hdigits (k : Nat) : ∀ c ∈ Nat.toDigits 10 k, c.isDigit := fun c hc =>
    Nat.isDigit_of_mem_toDigits (by omega) (by omega) hc
  have hminus (k : Nat) (r s : List Char) : '-' :: r ≠ Nat.toDigits 10 k ++ s := by
    intro heq
    cases hk : Nat.toDigits 10 k with
    | nil => exact Nat.toDigits_ne_nil hk
    | cons d ds =>
        have hd := hdigits k d (by simp [hk])
        rw [hk, List.cons_append, List.cons.injEq] at heq
        rw [← heq.1] at hd
        cases hd
  rw [toList_toString_int, toList_toString_int] at h
  by_cases hm : m < 0
  · by_cases hn : n < 0
    · simp only [hm, hn, if_true, List.cons_append, List.nil_append, List.cons.injEq,
        true_and] at h
      obtain ⟨habs, hrest⟩ := cancel_digits (hdigits _) (hdigits _) hrest hrest' h
      have habs := toDigits_injective habs
      exact ⟨by omega, hrest⟩
    · simp only [hm, hn, if_true, if_false, List.cons_append, List.nil_append] at h
      exact (hminus _ _ _ h).elim
  · by_cases hn : n < 0
    · simp only [hm, hn, if_true, if_false, List.cons_append, List.nil_append] at h
      exact (hminus _ _ _ h.symm).elim
    · simp only [hm, hn, if_false, List.nil_append] at h
      obtain ⟨habs, hrest⟩ := cancel_digits (hdigits _) (hdigits _) hrest hrest' h
      have habs := toDigits_injective habs
      exact ⟨by omega, hrest⟩

/-! ## Values -/

theorem cancel_newLine {depth : Nat} {rest rest' : List Char}
    (h : newLine depth rest = newLine depth rest') : rest = rest' :=
  List.append_cancel_left (List.cons.inj h).2

theorem noDigit_newLine (depth : Nat) (rest : List Char) : NoDigit (newLine depth rest) :=
  noDigit_cons (by decide) _

theorem noDigit_writeItems (depth : Nat) (items : List Json) {rest : List Char}
    (hrest : NoDigit rest) : NoDigit (writeItems depth items rest) := by
  cases items with
  | nil => exact hrest
  | cons item items => exact noDigit_cons (by decide) _

theorem noDigit_writeMembers (depth : Nat) (members : List (String × Json)) {rest : List Char}
    (hrest : NoDigit rest) : NoDigit (writeMembers depth members rest) := by
  cases members with
  | nil => exact hrest
  | cons member members => exact noDigit_cons (by decide) _

/-- A character that stands for all those that a value of the same kind may begin with. -/
def mark : Json → Char
  | null => 'n'
  | bool _ => 't'
  | number _ => '0'
  | string _ => '"'
  | array _ => '['
  | object _ => '\x7b'

/-- The mark of the values that begin with the character. -/
def markOf (c : Char) : Char :=
  if c = '-' || c.isDigit then '0' else if c = 'f' then 't' else c

theorem exists_write_eq_cons (depth : Nat) (v : Json) (rest : List Char) :
    ∃ c s, write depth v rest = c :: s ∧ markOf c = v.mark := by
  cases v with
  | null => exact ⟨_, _, rfl, rfl⟩
  | bool b => cases b <;> exact ⟨_, _, rfl, rfl⟩
  | number n =>
      rw [write, toList_toString_int]
      by_cases hn : n < 0
      · exact ⟨'-', Nat.toDigits 10 n.natAbs ++ rest, by simp [hn], rfl⟩
      · cases hds : Nat.toDigits 10 n.natAbs with
        | nil => exact (Nat.toDigits_ne_nil hds).elim
        | cons d ds =>
            have hd : d.isDigit :=
              Nat.isDigit_of_mem_toDigits (by omega) (Nat.le_refl 10) (hds ▸ List.mem_cons_self)
            exact ⟨d, ds ++ rest, by simp [hn], by simp [markOf, mark, hd]⟩
  | string s => exact ⟨_, _, rfl, rfl⟩
  | array items => cases items <;> exact ⟨_, _, by rw [write], rfl⟩
  | object members => cases members <;> exact ⟨_, _, by rw [write], rfl⟩

/-- Two values of one kind. -/
inductive SameKind : Json → Json → Prop where
  | null : SameKind null null
  | bool (b b' : Bool) : SameKind (bool b) (bool b')
  | number (m n : Int) : SameKind (number m) (number n)
  | string (s t : String) : SameKind (string s) (string t)
  | array (items items' : List Json) : SameKind (array items) (array items')
  | object (members members' : List (String × Json)) :
      SameKind (object members) (object members')

theorem sameKind_of_mark_eq {v w : Json} (h : v.mark = w.mark) : SameKind v w := by
  cases v <;> cases w <;> first | constructor | simp [mark] at h

/-- The first character tells the kind of a value. -/
theorem sameKind_of_write_eq {depth : Nat} {v w : Json} {rest rest' : List Char}
    (h : write depth v rest = write depth w rest') : SameKind v w := by
  obtain ⟨c, s, hv, hc⟩ := exists_write_eq_cons depth v rest
  obtain ⟨d, t, hw, hd⟩ := exists_write_eq_cons depth w rest'
  have hcd : c = d := (List.cons.inj (hv.symm.trans (h.trans hw))).1
  exact sameKind_of_mark_eq (by rw [← hc, ← hd, hcd])

mutual

/-- A value can be read off its text. -/
theorem cancel_write (depth : Nat) (v w : Json) {rest rest' : List Char} (hrest : NoDigit rest)
    (hrest' : NoDigit rest') (h : write depth v rest = write depth w rest') :
    v = w ∧ rest = rest' := by
  have hkind := sameKind_of_write_eq h
  cases v with
  | null =>
      cases hkind
      exact ⟨rfl, by simpa [write] using h⟩
  | bool b =>
      cases hkind with
      | bool _ b' => cases b <;> cases b' <;> simp_all [write]
  | number m =>
      cases hkind with
      | number _ n =>
          obtain ⟨rfl, hrest⟩ := cancel_number hrest hrest' h
          exact ⟨rfl, hrest⟩
  | string s =>
      cases hkind with
      | string _ t =>
          obtain ⟨rfl, hrest⟩ := cancel_writeString h
          exact ⟨rfl, hrest⟩
  | array items =>
      cases hkind with
      | array _ items' =>
          have hend (r : List Char) := noDigit_newLine depth (']' :: r)
          cases items with
          | nil =>
              cases items' with
              | nil => simpa [write] using h
              | cons item' items' => simp [write, newLine] at h
          | cons item items =>
              cases items' with
              | nil => simp [write, newLine] at h
              | cons item' items' =>
                  obtain ⟨rfl, hitems⟩ := cancel_write (depth + 1) item item'
                    (noDigit_writeItems _ items (hend rest))
                    (noDigit_writeItems _ items' (hend rest'))
                    (cancel_newLine (List.cons.inj h).2)
                  obtain ⟨rfl, hrest⟩ := cancel_writeItems (depth + 1) depth items items' hitems
                  exact ⟨rfl, hrest⟩
  | object members =>
      cases hkind with
      | object _ members' =>
          have hend (r : List Char) := noDigit_newLine depth ('\x7d' :: r)
          cases members with
          | nil =>
              cases members' with
              | nil => simpa [write] using h
              | cons member' members' => simp [write, newLine] at h
          | cons member members =>
              cases members' with
              | nil => simp [write, newLine] at h
              | cons member' members' =>
                  obtain ⟨rfl, hmembers⟩ := cancel_writeMember (depth + 1) member member'
                    (noDigit_writeMembers _ members (hend rest))
                    (noDigit_writeMembers _ members' (hend rest'))
                    (cancel_newLine (List.cons.inj h).2)
                  obtain ⟨rfl, hrest⟩ :=
                    cancel_writeMembers (depth + 1) depth members members' hmembers
                  exact ⟨rfl, hrest⟩
termination_by structural v

theorem cancel_writeItems (depth outer : Nat) (items items' : List Json) {rest rest' : List Char}
    (h : writeItems depth items (newLine outer (']' :: rest)) =
      writeItems depth items' (newLine outer (']' :: rest'))) : items = items' ∧ rest = rest' := by
  have hend (r : List Char) := noDigit_newLine outer (']' :: r)
  cases items with
  | nil =>
      cases items' with
      | nil => exact ⟨rfl, (List.cons.inj (cancel_newLine h)).2⟩
      | cons item' items' => simp [writeItems, newLine] at h
  | cons item items =>
      cases items' with
      | nil => simp [writeItems, newLine] at h
      | cons item' items' =>
          have hline := cancel_newLine (List.cons.inj h).2
          obtain ⟨rfl, hitems⟩ := cancel_write depth item item'
            (noDigit_writeItems _ items (hend rest))
            (noDigit_writeItems _ items' (hend rest')) hline
          obtain ⟨rfl, hrest⟩ := cancel_writeItems depth outer items items' hitems
          exact ⟨rfl, hrest⟩
termination_by structural items

theorem cancel_writeMembers (depth outer : Nat) (members members' : List (String × Json))
    {rest rest' : List Char}
    (h : writeMembers depth members (newLine outer ('\x7d' :: rest)) =
      writeMembers depth members' (newLine outer ('\x7d' :: rest'))) :
    members = members' ∧ rest = rest' := by
  have hend (r : List Char) := noDigit_newLine outer ('\x7d' :: r)
  cases members with
  | nil =>
      cases members' with
      | nil => exact ⟨rfl, (List.cons.inj (cancel_newLine h)).2⟩
      | cons member' members' => simp [writeMembers, newLine] at h
  | cons member members =>
      cases members' with
      | nil => simp [writeMembers, newLine] at h
      | cons member' members' =>
          have hline := cancel_newLine (List.cons.inj h).2
          obtain ⟨rfl, hmembers⟩ := cancel_writeMember depth member member'
            (noDigit_writeMembers _ members (hend rest))
            (noDigit_writeMembers _ members' (hend rest')) hline
          obtain ⟨rfl, hrest⟩ := cancel_writeMembers depth outer members members' hmembers
          exact ⟨rfl, hrest⟩
termination_by structural members

theorem cancel_writeMember (depth : Nat) (member member' : String × Json) {rest rest' : List Char}
    (hrest : NoDigit rest) (hrest' : NoDigit rest')
    (h : writeMember depth member rest = writeMember depth member' rest') :
    member = member' ∧ rest = rest' := by
  obtain ⟨key, value⟩ := member
  obtain ⟨key', value'⟩ := member'
  obtain ⟨rfl, hvalue⟩ := cancel_writeString h
  have hvalue := (List.cons.inj (List.cons.inj hvalue).2).2
  obtain ⟨rfl, hrest⟩ := cancel_write depth value value' hrest hrest' hvalue
  exact ⟨rfl, hrest⟩
termination_by structural member

end

theorem pretty_injective {v w : Json} (h : v.pretty = w.pretty) : v = w := by
  have htext : write 0 v [] = write 0 w [] := String.ofList_injective h
  exact (cancel_write 0 v w noDigit_nil noDigit_nil htext).1

end FastSchema.Json
