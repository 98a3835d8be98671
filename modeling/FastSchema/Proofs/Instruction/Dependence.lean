import FastSchema.Proofs.Instruction.References

/-! # What the records take from a registry

The records of a document depend on the registry only through the names that the document refers to.
A document that has a report has found all of them. -/

namespace FastSchema

/-! ## Registries that agree on some names -/

/-- The registries map each of the names to the same unit, if to any. -/
def Registry.AgreeOn (names : List QualifiedName) (known₁ known₂ : Registry) : Prop :=
  ∀ q ∈ names, known₁.lookup q = known₂.lookup q

instance (names : List QualifiedName) (known₁ known₂ : Registry) :
    Decidable (known₁.AgreeOn names known₂) :=
  inferInstanceAs (Decidable (∀ q ∈ names, _))

theorem Registry.AgreeOn.mono {names fewer : List QualifiedName} {known₁ known₂ : Registry}
    (h : AgreeOn names known₁ known₂) (hsub : fewer ⊆ names) : AgreeOn fewer known₁ known₂ :=
  fun q hq => h q (hsub hq)

variable {known₁ known₂ : Registry}

theorem Registry.resolve_congr {cx : Context} {r : Reference}
    (h : AgreeOn (r.qualifiedName? cx).toList known₁ known₂) :
    known₁.resolve cx r = known₂.resolve cx r := by
  unfold resolve
  cases hq : r.qualifiedName? cx with
  | none => rfl
  | some q =>
      have hlookup : known₁.lookup q = known₂.lookup q := h q (by simp [hq])
      simp only [target?, hlookup]

/-! ## Records -/

theorem Leaf.payload_congr {cx : Context} (head : FieldHead) {content : Leaf}
    (h : Registry.AgreeOn (content.referencedNames cx) known₁ known₂) :
    content.payload (known₁.resolve cx) head = content.payload (known₂.resolve cx) head := by
  cases content with
  | reference r => simp only [Leaf.payload, Registry.resolve_congr h]
  | decimal shape => cases shape <;> rfl
  | _ => rfl

mutual

/-- Registries that agree on what a field refers to give the same record or the same fault. -/
theorem Field.instruction_congr {cx : Context} (index : Nat) {field : Field}
    (h : Registry.AgreeOn (field.referencedNames cx) known₁ known₂) :
    field.instruction known₁ cx index = field.instruction known₂ cx index := by
  cases field with
  | leaf head content =>
      rw [Field.referencedNames] at h
      rw [Field.instruction, Field.instruction, Leaf.payload_congr head h]
  | composite head kind typeRef fields =>
      rw [Field.referencedNames] at h
      rw [Field.instruction, Field.instruction]
      cases hbody : soleReference? fields with
      | some r =>
          simp only [hbody] at h
          simp only [Registry.resolve_congr h]
      | none =>
          simp only [hbody] at h
          rw [Field.instructions_congr 0 h]

theorem Field.instructions_congr {cx : Context} (index : Nat) {fields : List Field}
    (h : Registry.AgreeOn (Field.referencedNamesIn cx fields) known₁ known₂) :
    Field.instructions known₁ cx index fields = Field.instructions known₂ cx index fields := by
  cases fields with
  | nil => rw [Field.instructions, Field.instructions]
  | cons field fields =>
      rw [Field.referencedNamesIn] at h
      rw [Field.instructions, Field.instructions,
        Field.instruction_congr index (h.mono (List.subset_append_left _ _)),
        Field.instructions_congr (index + 1) (h.mono (List.subset_append_right _ _))]

end

theorem Template.instructions_congr {cx : Context} (index : Nat) {ts : List Template}
    (h : Registry.AgreeOn
      (ts.flatMap fun t => Field.referencedNamesIn (cx.inherit t.attrs) t.fields) known₁ known₂) :
    Template.instructions known₁ cx index ts = Template.instructions known₂ cx index ts := by
  induction ts generalizing index with
  | nil => rfl
  | cons t ts ih =>
      rw [List.flatMap_cons] at h
      have hfields := Field.instructions_congr 0 (h.mono (List.subset_append_left _ _))
      simp only [Template.instructions, Template.instruction, hfields,
        ih (index + 1) (h.mono (List.subset_append_right _ _))]

/-- Registries that agree on what a document refers to give the same report or the same fault. -/
theorem Document.metadata_congr {doc : Document} (unit digest : String)
    (h : Registry.AgreeOn doc.referencedNames known₁ known₂) :
    doc.metadata unit digest known₁ = doc.metadata unit digest known₂ := by
  have hrecords : doc.instructions known₁ = doc.instructions known₂ :=
    Template.instructions_congr 0 h
  rw [Document.metadata, Document.metadata, hrecords]

/-- A document that has a report refers only to registered names. -/
theorem Document.isSome_lookup_of_metadata {doc : Document} {unit digest : String}
    {known : Registry} {m : Metadata} (h : doc.metadata unit digest known = .ok m)
    {q : QualifiedName} (hq : q ∈ doc.referencedNames) : (known.lookup q).isSome := by
  have hfaults : doc.faults known = [] := by
    have hstops := doc.stopsAt_metadata unit digest known
    rw [h] at hstops
    exact List.head?_eq_none_iff.mp hstops.symm
  cases hlookup : known.lookup q with
  | some unit => rfl
  | none =>
      have hmem := Document.unresolved_mem_faults_iff.mpr ⟨hq, hlookup⟩
      rw [hfaults] at hmem
      cases hmem

end FastSchema
