import FastSchema.Cpp.SymbolPath

/-! # Symbols as joined names

Symbols are made of names that end with two underscores each, and of suffixes after one. A name
without two underscores in a row can be told apart from what follows it, unless it ends with one. -/

namespace FastSchema.Cpp

theorem SymbolPath.symbol_push (path : SymbolPath) (name s : String) :
    (path.push name).symbol s = path.symbol (name ++ "__" ++ s) := by
  simp [SymbolPath.symbol, SymbolPath.stem, String.join_append, String.append_assoc]

def hasSeparator : List Char → Bool
  | '_' :: '_' :: _ => true
  | _ :: cs => hasSeparator cs
  | [] => false

def Joinable (s : String) : Prop := hasSeparator s.toList = false

instance (s : String) : Decidable (Joinable s) := inferInstanceAs (Decidable (_ = _))

/-! ## Characters -/

theorem hasSeparator_append (before after : List Char) :
    hasSeparator (before ++ '_' :: '_' :: after) = true := by
  induction before with
  | nil => rfl
  | cons c before ih =>
      rw [List.cons_append]
      unfold hasSeparator
      split
      · rfl
      · rename_i h
        obtain ⟨rfl, rfl⟩ := List.cons.inj h
        exact ih
      · rename_i h
        cases h

/-- Where a separator and a single underscore are split off the same text, the single one is the
first or the second of the separator, or it comes before. -/
theorem split_separator {c r x t : List Char} (hx : hasSeparator x = false)
    (h : c ++ '_' :: '_' :: r = x ++ '_' :: t) :
    (x = c ++ ['_'] ∧ t = r) ∨ (x = c ∧ t = '_' :: r) ∨
      ∃ d, c = x ++ '_' :: d ∧ t = d ++ '_' :: '_' :: r := by
  rcases List.append_eq_append_iff.mp h with ⟨d, hxd, hd⟩ | ⟨d, hcd, hd⟩
  · match d with
    | [] =>
        simp only [List.nil_append, List.cons.injEq, true_and] at hd
        exact .inr (.inl ⟨by simpa using hxd, hd.symm⟩)
    | [a] =>
        simp only [List.cons_append, List.nil_append, List.cons.injEq, true_and] at hd
        obtain ⟨rfl, rfl⟩ := hd
        exact .inl ⟨hxd, rfl⟩
    | a :: b :: d =>
        -- The name on the right would have the separator in it.
        simp only [List.cons_append, List.cons.injEq] at hd
        obtain ⟨rfl, rfl, -⟩ := hd
        rw [hxd, hasSeparator_append] at hx
        cases hx
  · cases d with
    | nil =>
        simp only [List.nil_append, List.cons.injEq, true_and] at hd
        exact .inr (.inl ⟨by simpa using hcd.symm, hd⟩)
    | cons a d =>
        simp only [List.cons_append, List.cons.injEq] at hd
        obtain ⟨rfl, rfl⟩ := hd
        exact .inr (.inr ⟨d, hcd, rfl⟩)

theorem split_last {a b p q : List Char} (hp : '_' ∉ p) (hq : '_' ∉ q)
    (h : a ++ '_' :: p = b ++ '_' :: q) : a = b ∧ p = q := by
  rcases List.append_eq_append_iff.mp h with ⟨d, hb, hd⟩ | ⟨d, ha, hd⟩
  · cases d with
    | nil => exact ⟨by simpa using hb.symm, by simpa using hd⟩
    | cons c d =>
        simp only [List.cons_append, List.cons.injEq] at hd
        exact absurd (by simp [hd.2]) hp
  · cases d with
    | nil => exact ⟨by simpa using ha, by simpa using hd.symm⟩
    | cons c d =>
        simp only [List.cons_append, List.cons.injEq] at hd
        exact absurd (by simp [hd.2]) hq

/-! ## Texts -/

theorem joinable_of_not_mem {s : String} (h : '_' ∉ s.toList) : Joinable s := by
  have hlist : ∀ cs : List Char, '_' ∉ cs → hasSeparator cs = false := by
    intro cs hcs
    induction cs with
    | nil => rfl
    | cons c cs ih =>
        rw [List.mem_cons, not_or] at hcs
        unfold hasSeparator
        split
        · simp_all
        · simp_all
        · rfl
  exact hlist _ h

theorem not_joinable_append (before after : String) : ¬ Joinable (before ++ "__" ++ after) := by
  simp [Joinable, hasSeparator_append]

/-- Where two names before a separator differ, one of them is the other and an underscore. -/
theorem eq_or_of_separator_eq {c₁ c₂ r₁ r₂ : String} (h₁ : Joinable c₁) (h₂ : Joinable c₂)
    (h : c₁ ++ "__" ++ r₁ = c₂ ++ "__" ++ r₂) :
    (c₁ = c₂ ∧ r₁ = r₂) ∨ (c₂ = c₁ ++ "_" ∧ r₁ = "_" ++ r₂) ∨
      (c₁ = c₂ ++ "_" ∧ r₂ = "_" ++ r₁) := by
  have hlist : c₁.toList ++ '_' :: '_' :: r₁.toList = c₂.toList ++ '_' :: '_' :: r₂.toList := by
    simpa using congrArg String.toList h
  simp only [← String.toList_inj, String.toList_append]
  rcases split_separator h₂ hlist with ⟨hc, hr⟩ | ⟨hc, hr⟩ | ⟨d, hc, hr⟩
  · exact .inr (.inl ⟨hc, hr.symm⟩)
  · exact .inl ⟨hc.symm, by simpa using hr.symm⟩
  · cases d with
    | nil => exact .inr (.inr ⟨hc, by simpa using hr⟩)
    | cons a d =>
        simp only [List.cons_append, List.cons.injEq] at hr
        obtain ⟨rfl, -⟩ := hr
        rw [Joinable, hc, hasSeparator_append] at h₁
        cases h₁

/-- A separator before what follows a name is read into the end of the name. -/
theorem eq_of_separator_eq_suffix {c r x w : String} (hx : Joinable x) (hw : Joinable ("_" ++ w))
    (h : c ++ "__" ++ r = x ++ "_" ++ w) : x = c ++ "_" ∧ r = w := by
  have hlist : c.toList ++ '_' :: '_' :: r.toList = x.toList ++ '_' :: w.toList := by
    simpa using congrArg String.toList h
  have hsuffix : hasSeparator ('_' :: w.toList) = false := by simpa [Joinable] using hw
  simp only [← String.toList_inj, String.toList_append]
  rcases split_separator hx hlist with ⟨hc, hr⟩ | ⟨-, hr⟩ | ⟨d, -, hr⟩
  · exact ⟨hc, hr.symm⟩
  · have hsep := hasSeparator_append [] r.toList
    rw [hr] at hsuffix
    rw [List.nil_append, hsuffix] at hsep
    cases hsep
  · have hsep := hasSeparator_append ('_' :: d) r.toList
    rw [List.cons_append, ← hr, hsuffix] at hsep
    cases hsep

/-- The last underscore tells a stem apart from a suffix. -/
theorem eq_of_suffix_eq {a b p q : String} (hp : '_' ∉ p.toList) (hq : '_' ∉ q.toList)
    (h : a ++ "_" ++ p = b ++ "_" ++ q) : a = b ∧ p = q := by
  have hlist : a.toList ++ '_' :: p.toList = b.toList ++ '_' :: q.toList := by
    simpa using congrArg String.toList h
  simpa only [String.toList_inj] using split_last hp hq hlist

end FastSchema.Cpp
