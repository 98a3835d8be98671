import FastSchema.Instruction.Derive

/-! # What a registry knows after a document has been registered -/

namespace FastSchema

/-- The namespace of a template of the document: its own, or else that of the document. -/
def Document.namespaceOf (doc : Document) (t : Template) : String :=
  match t.attrs.get? "ns" with
  | some ns => ns
  | none =>
    match doc.attrs.get? "ns" with
    | some ns => ns
    | none => ""

def Document.Defines (doc : Document) (q : QualifiedName) : Prop :=
  ∃ t ∈ doc.templates, t.name = q.name ∧ doc.namespaceOf t = q.ns

instance (doc : Document) (q : QualifiedName) : Decidable (doc.Defines q) :=
  inferInstanceAs (Decidable (∃ t ∈ doc.templates, _))

theorem Document.ns_contextOf (doc : Document) (t : Template) :
    (doc.contextOf t).ns = doc.namespaceOf t := by
  unfold contextOf context Context.inherit namespaceOf
  cases t.attrs.get? "ns" <;> cases doc.attrs.get? "ns" <;> rfl

theorem Document.mem_qualifiedNames {doc : Document} {q : QualifiedName} :
    q ∈ doc.qualifiedNames ↔ doc.Defines q := by
  obtain ⟨ns, name⟩ := q
  simp only [qualifiedNames, Defines, List.mem_map, ns_contextOf, QualifiedName.mk.injEq]
  exact exists_congr fun t => and_congr_right fun _ => and_comm

namespace Registry

theorem lookup_foldl_register (r : Registry) (unit : String) (names : List QualifiedName)
    (q : QualifiedName) :
    (names.foldl (fun r p => r.register p unit) r).lookup q =
      (r.lookup q).or (if q ∈ names then some unit else none) := by
  induction names generalizing r with
  | nil => simp
  | cons p names ih =>
      rw [List.foldl_cons, ih, lookup_register]
      by_cases hp : q = p <;> by_cases hq : q ∈ names <;> simp [hp, hq]

/-- Registering a document adds its templates, apart from those whose names are taken. -/
theorem lookup_registerDocument (r : Registry) (unit : String) (doc : Document)
    (q : QualifiedName) :
    (r.registerDocument unit doc).lookup q =
      (r.lookup q).or (if doc.Defines q then some unit else none) := by
  rw [registerDocument, lookup_foldl_register]
  simp only [Document.mem_qualifiedNames]

theorem isSome_lookup_register (r : Registry) (q : QualifiedName) (unit : String) :
    ((r.register q unit).lookup q).isSome := by
  rw [lookup_register, if_pos rfl]
  cases r.lookup q <;> rfl

theorem isSome_lookup_registerDocument (r : Registry) (unit : String) {doc : Document}
    {q : QualifiedName} (h : q ∈ doc.qualifiedNames) :
    ((r.registerDocument unit doc).lookup q).isSome := by
  rw [lookup_registerDocument, if_pos (Document.mem_qualifiedNames.mp h)]
  cases r.lookup q <;> rfl

/-! ## Entries -/

/-- No name is registered twice. -/
def Distinct (r : Registry) : Prop := (r.units.map Prod.fst).Nodup

theorem distinct_register {r : Registry} (h : r.Distinct) (q : QualifiedName) (unit : String) :
    (r.register q unit).Distinct := by
  unfold register
  split
  · exact h
  · rename_i hfree
    have hfresh : ∀ p ∈ r.units, q ≠ p.1 := by
      intro p hp hq
      exact hfree (List.lookup_isSome_iff.mpr ⟨p, hp, beq_iff_eq.mpr hq⟩)
    simp only [Distinct, List.map_append, List.map_cons, List.map_nil]
    refine List.nodup_append.mpr ⟨h, by simp, fun a ha b hb => ?_⟩
    obtain ⟨p, hp, rfl⟩ := List.mem_map.mp ha
    obtain rfl := List.mem_singleton.mp hb
    exact (hfresh p hp).symm

theorem distinct_registerDocument {r : Registry} (h : r.Distinct) (unit : String)
    (doc : Document) : (r.registerDocument unit doc).Distinct := by
  unfold registerDocument
  induction doc.qualifiedNames generalizing r with
  | nil => exact h
  | cons q names ih => exact ih (distinct_register h q unit)

theorem mem_units_iff {r : Registry} (h : r.Distinct) (q : QualifiedName) (unit : String) :
    (q, unit) ∈ r.units ↔ r.lookup q = some unit := by
  unfold lookup
  rw [List.lookup_eq_some_iff]
  constructor
  · intro hmem
    obtain ⟨before, rest, hunits⟩ := List.append_of_mem hmem
    refine ⟨before, rest, hunits, fun p hp => ?_⟩
    -- An earlier entry for the name would be a second one.
    rw [Distinct, hunits, List.map_append, List.nodup_append] at h
    exact bne_iff_ne.mpr fun hq =>
      h.2.2 p.1 (List.mem_map_of_mem hp) q (by simp) hq.symm
  · rintro ⟨before, rest, hunits, _⟩
    simp [hunits]

/-- Registries that answer every look-up alike hold the same entries. -/
theorem units_perm_of_lookup_eq {r₁ r₂ : Registry} (h₁ : r₁.Distinct) (h₂ : r₂.Distinct)
    (h : ∀ q, r₁.lookup q = r₂.lookup q) : r₁.units.Perm r₂.units := by
  have hnodup : ∀ {r : Registry}, r.Distinct → r.units.Nodup := fun hr =>
    (List.pairwise_map.mp hr).imp fun hne heq => hne (congrArg Prod.fst heq)
  refine (List.perm_ext_iff_of_nodup (hnodup h₁) (hnodup h₂)).mpr fun ⟨q, unit⟩ => ?_
  rw [mem_units_iff h₁, mem_units_iff h₂, h]

/-! ## References -/

/-- A static reference is recorded with its registered target, a dynamic one with none. -/
theorem resolve_eq_ok {known : Registry} {cx : Context} {r : Reference}
    {target : Option Target} (h : known.resolve cx r = .ok target) :
    (r.qualifiedName? cx = none ∧ target = none) ∨
      ∃ q t, r.qualifiedName? cx = some q ∧ known.target? q = some t ∧ target = some t := by
  unfold resolve at h
  cases hname : r.qualifiedName? cx with
  | none =>
      rw [hname] at h
      cases h
      exact .inl ⟨rfl, rfl⟩
  | some q =>
      rw [hname] at h
      cases htarget : known.target? q with
      | none => simp [htarget] at h
      | some t =>
          simp only [htarget] at h
          cases h
          exact .inr ⟨q, t, rfl, htarget, rfl⟩

/-- A named reference leads to a target exactly if its name is registered. -/
theorem resolve_eq_some_iff {known : Registry} {cx : Context} {r : Reference}
    {q : QualifiedName} (h : r.qualifiedName? cx = some q) :
    (∃ target, known.resolve cx r = .ok (some target)) ↔ (known.lookup q).isSome := by
  unfold resolve target?
  rw [h]
  cases hlookup : known.lookup q <;> simp [hlookup]

theorem target?_eq_some {known : Registry} {q : QualifiedName} {t : Target}
    (h : known.target? q = some t) : t.name = q.name := by
  obtain ⟨unit, _, rfl⟩ := Option.map_eq_some_iff.mp h
  rfl

/-- A composite reduces to a dynamic reference exactly if its body is a slot. -/
theorem target_eq_none_iff {known : Registry} {cx : Context} {r : Reference}
    {target : Option Target} (h : known.resolve cx r = .ok target) :
    target = none ↔ r.name = none := by
  rcases resolve_eq_ok h with ⟨hname, rfl⟩ | ⟨q, t, hname, _, rfl⟩
  · simpa [Reference.qualifiedName?] using hname
  · cases hr : r.name <;> simp [Reference.qualifiedName?, hr] at hname ⊢

theorem resolve_eq_error {known : Registry} {cx : Context} {r : Reference}
    {fault : Fault} (h : known.resolve cx r = .error fault) :
    ∃ q, r.qualifiedName? cx = some q ∧ known.lookup q = none ∧
      fault = .unresolvedReference q.name q.ns := by
  unfold resolve at h
  split at h
  · cases h
  · rename_i q hq
    split at h
    · cases h
    · rename_i htarget
      cases h
      exact ⟨q, hq, Option.map_eq_none_iff.mp htarget, rfl⟩

end Registry

end FastSchema
