import FastSchema.Proofs.Instruction.Faults
import FastSchema.Proofs.Literal.ByteVector
import FastSchema.Proofs.Registry

/-! # The names that a document refers to

A fault of a document is a literal that cannot be read, or a name among those that the document
refers to and that nobody has registered. -/

namespace FastSchema

/-! ## Names -/

/-- The name that a leaf refers to, if it is a named reference. -/
def Leaf.referencedNames (cx : Context) : Leaf → List QualifiedName
  | .reference r => (r.qualifiedName? cx).toList
  | .integer _ _ => []
  | .string _ _ => []
  | .decimal _ => []
  | .byteVector _ _ => []

mutual

/-- The names that the references in a field lead to. The reference that a composite reduces to is
read in the context of the composite. -/
def Field.referencedNames (cx : Context) : Field → List QualifiedName
  | .leaf head content => content.referencedNames (cx.inherit head.attrs)
  | .composite head _ _ fields =>
    match soleReference? fields with
    | some r => (r.qualifiedName? (cx.inherit head.attrs)).toList
    | none => Field.referencedNamesIn (cx.inherit head.attrs) fields

def Field.referencedNamesIn (cx : Context) : List Field → List QualifiedName
  | [] => []
  | field :: fields => Field.referencedNames cx field ++ Field.referencedNamesIn cx fields

end

def Document.referencedNames (doc : Document) : List QualifiedName :=
  doc.templates.flatMap fun t => Field.referencedNamesIn (doc.contextOf t) t.fields

def QualifiedName.unresolved (q : QualifiedName) : Fault := .unresolvedReference q.name q.ns

theorem QualifiedName.unresolved_inj {p q : QualifiedName} :
    p.unresolved = q.unresolved ↔ p = q := by
  obtain ⟨ns, name⟩ := p
  obtain ⟨ns', name'⟩ := q
  simp [unresolved, and_comm]

/-! ## Faults of literals -/

variable {α : Type}

theorem phase_of_parseId {owner : String} {attrs : Attributes} {fault : Fault}
    (h : parseId owner attrs = .error fault) : fault.code.phase = .derive := by
  unfold parseId at h
  split at h
  · cases h
  · split at h
    · cases h
    · cases h
      rfl

theorem phase_of_parseInteger {field literal : String} {type : IntType} {fault : Fault}
    (h : parseInteger field type literal = .error fault) : fault.code.phase = .derive := by
  unfold parseInteger at h
  split at h
  · cases h
  · cases h
    rfl

theorem Decimal.phase_of_parse {literal : String} {fault : Fault}
    (h : Decimal.parse literal = .error fault) : fault.code.phase = .derive := by
  unfold Decimal.parse at h
  split at h
  · cases h
  · cases h
    rfl

theorem ByteVector.phase_of_parse {literal : String} {fault : Fault}
    (h : ByteVector.parse literal = .error fault) : fault.code.phase = .derive := by
  rcases ByteVector.parse_cases literal with ⟨c, hparse⟩ | hparse | ⟨bytes, hparse⟩
  · obtain rfl := Except.error.inj (hparse.symm.trans h)
    rfl
  · obtain rfl := Except.error.inj (hparse.symm.trans h)
    rfl
  · cases hparse.symm.trans h

/-- The faults of an initial value are those of reading some literal. -/
theorem phase_of_mem_initialFaults {operator : Option Operator} {read : String → Except Fault α}
    {fault : Fault} (h : fault ∈ initialFaults operator read)
    (hread : ∀ literal, read literal = .error fault → fault.code.phase = .derive) :
    fault.code.phase = .derive := by
  have h := mem_faultsOf.mp h
  unfold OperatorRecord.initialAs at h
  split at h
  · exact hread _ (Fallible.map_eq_error h)
  · cases h

theorem phase_of_mem_idFaults {owner : String} {attrs : Attributes} {fault : Fault}
    (h : fault ∈ idFaults owner attrs) : fault.code.phase = .derive :=
  phase_of_parseId (mem_faultsOf.mp h)

theorem phase_of_mem_lengthFaults {length : Option Length} {fault : Fault}
    (h : fault ∈ lengthFaults length) : fault.code.phase = .derive := by
  cases length with
  | none => cases h
  | some l => exact phase_of_mem_idFaults h

theorem CompositeKind.phase_of_mem_faults {kind : CompositeKind} {fault : Fault}
    (h : fault ∈ kind.faults) : fault.code.phase = .derive := by
  cases kind with
  | group => cases h
  | sequence length =>
      cases length with
      | none => cases h
      | some l =>
          rcases List.mem_append.mp h with h | h
          · exact phase_of_mem_initialFaults h fun _ => phase_of_parseInteger
          · exact phase_of_mem_idFaults h

/-! ## All faults of a document -/

/-- The fault is that of a literal, or of one of the names, which is not registered. -/
def Fault.ArisesFrom (known : Registry) (names : List QualifiedName) (fault : Fault) : Prop :=
  fault.code.phase = .derive ∨ ∃ q ∈ names, known.lookup q = none ∧ fault = q.unresolved

theorem Fault.ArisesFrom.mono {known : Registry} {names more : List QualifiedName} {fault : Fault}
    (h : fault.ArisesFrom known names) (hsub : names ⊆ more) : fault.ArisesFrom known more := by
  rcases h with h | ⟨q, hq, h⟩
  · exact .inl h
  · exact .inr ⟨q, hsub hq, h⟩

theorem arisesFrom_of_mem_resolve {known : Registry} {cx : Context} {r : Reference}
    {fault : Fault} (h : fault ∈ faultsOf (known.resolve cx r)) :
    fault.ArisesFrom known (r.qualifiedName? cx).toList := by
  obtain ⟨q, hq, hnone, rfl⟩ := Registry.resolve_eq_error (mem_faultsOf.mp h)
  exact .inr ⟨q, by simp [hq], hnone, rfl⟩

theorem unresolved_mem_resolve {known : Registry} {cx : Context} {r : Reference}
    {q : QualifiedName} (hq : q ∈ (r.qualifiedName? cx).toList) (h : known.lookup q = none) :
    q.unresolved ∈ faultsOf (known.resolve cx r) := by
  rw [Option.mem_toList] at hq
  simp [mem_faultsOf, Registry.resolve, Registry.target?, show r.qualifiedName? cx = some q from hq,
    h, QualifiedName.unresolved]

theorem Leaf.arisesFrom_of_mem_faults {known : Registry} {cx : Context} {head : FieldHead}
    {content : Leaf} {fault : Fault} (h : fault ∈ content.faults known cx head) :
    fault.ArisesFrom known (content.referencedNames cx) := by
  cases content with
  | integer type operator =>
      exact .inl (phase_of_mem_initialFaults h fun _ => phase_of_parseInteger)
  | string operator length =>
      unfold Leaf.faults at h
      cases hcharset : head.charset with
      | unicode => exact .inl (phase_of_mem_lengthFaults (by simpa only [hcharset] using h))
      | ascii => simp [hcharset] at h
  | decimal shape =>
      cases shape with
      | whole operator =>
          exact .inl (phase_of_mem_initialFaults h fun _ => Decimal.phase_of_parse)
      | split mantissa exponent =>
          rcases List.mem_append.mp h with h | h <;>
            exact .inl (phase_of_mem_initialFaults h fun _ hliteral =>
              phase_of_parseInteger (Fallible.map_eq_error hliteral))
  | byteVector operator length =>
      rcases List.mem_append.mp h with h | h
      · exact .inl (phase_of_mem_initialFaults h fun _ => ByteVector.phase_of_parse)
      · exact .inl (phase_of_mem_lengthFaults h)
  | reference r => exact arisesFrom_of_mem_resolve h

theorem Leaf.unresolved_mem_faults {known : Registry} {cx : Context} (head : FieldHead)
    {content : Leaf} {q : QualifiedName} (hq : q ∈ content.referencedNames cx)
    (h : known.lookup q = none) : q.unresolved ∈ content.faults known cx head := by
  cases content with
  | reference r => exact unresolved_mem_resolve hq h
  | _ => cases hq

mutual

theorem Field.arisesFrom_of_mem_faults {known : Registry} {cx : Context} {field : Field}
    {fault : Fault} (h : fault ∈ field.faults known cx) :
    fault.ArisesFrom known (field.referencedNames cx) := by
  cases field with
  | leaf head content =>
      rw [Field.faults, List.mem_append] at h
      rw [Field.referencedNames]
      rcases h with h | h
      · exact Leaf.arisesFrom_of_mem_faults h
      · exact .inl (phase_of_mem_idFaults h)
  | composite head kind typeRef fields =>
      rw [Field.faults, List.mem_append, List.mem_append] at h
      rw [Field.referencedNames]
      rcases h with h | h | h
      · exact .inl (CompositeKind.phase_of_mem_faults h)
      · cases hbody : soleReference? fields with
        | some r =>
            simp only [hbody] at h
            exact arisesFrom_of_mem_resolve h
        | none =>
            simp only [hbody] at h
            exact Field.arisesFrom_of_mem_faultsIn h
      · exact .inl (phase_of_mem_idFaults h)

theorem Field.arisesFrom_of_mem_faultsIn {known : Registry} {cx : Context} {fields : List Field}
    {fault : Fault} (h : fault ∈ Field.faultsIn known cx fields) :
    fault.ArisesFrom known (Field.referencedNamesIn cx fields) := by
  cases fields with
  | nil =>
      rw [Field.faultsIn] at h
      cases h
  | cons field fields =>
      rw [Field.faultsIn, List.mem_append] at h
      rw [Field.referencedNamesIn]
      rcases h with h | h
      · exact (Field.arisesFrom_of_mem_faults h).mono (List.subset_append_left _ _)
      · exact (Field.arisesFrom_of_mem_faultsIn h).mono (List.subset_append_right _ _)

end

mutual

theorem Field.unresolved_mem_faults {known : Registry} {cx : Context} {field : Field}
    {q : QualifiedName} (hq : q ∈ field.referencedNames cx) (h : known.lookup q = none) :
    q.unresolved ∈ field.faults known cx := by
  cases field with
  | leaf head content =>
      rw [Field.referencedNames] at hq
      rw [Field.faults, List.mem_append]
      exact .inl (content.unresolved_mem_faults head hq h)
  | composite head kind typeRef fields =>
      rw [Field.referencedNames] at hq
      rw [Field.faults, List.mem_append, List.mem_append]
      refine .inr (.inl ?_)
      cases hbody : soleReference? fields with
      | some r =>
          simp only [hbody] at hq ⊢
          exact unresolved_mem_resolve hq h
      | none =>
          simp only [hbody] at hq ⊢
          exact Field.unresolved_mem_faultsIn hq h

theorem Field.unresolved_mem_faultsIn {known : Registry} {cx : Context} {fields : List Field}
    {q : QualifiedName} (hq : q ∈ Field.referencedNamesIn cx fields)
    (h : known.lookup q = none) : q.unresolved ∈ Field.faultsIn known cx fields := by
  cases fields with
  | nil =>
      rw [Field.referencedNamesIn] at hq
      cases hq
  | cons field fields =>
      rw [Field.referencedNamesIn, List.mem_append] at hq
      rw [Field.faultsIn, List.mem_append]
      rcases hq with hq | hq
      · exact .inl (Field.unresolved_mem_faults hq h)
      · exact .inr (Field.unresolved_mem_faultsIn hq h)

end

theorem Document.arisesFrom_of_mem_faults {doc : Document} {known : Registry} {fault : Fault}
    (h : fault ∈ doc.faults known) : fault.ArisesFrom known doc.referencedNames := by
  obtain ⟨t, ht, h⟩ := List.mem_flatMap.mp h
  rcases List.mem_append.mp h with h | h
  · exact (Field.arisesFrom_of_mem_faultsIn h).mono fun q hq =>
      List.mem_flatMap.mpr ⟨t, ht, hq⟩
  · exact .inl (phase_of_mem_idFaults h)

/-- Compiling a loaded document fails for what is in it, never for a broken assumption. -/
theorem Document.phase_of_mem_faults {doc : Document} {known : Registry} {fault : Fault}
    (h : fault ∈ doc.faults known) :
    fault.code.phase = .derive ∨ fault.code.phase = .resolve := by
  rcases Document.arisesFrom_of_mem_faults h with h | ⟨q, _, _, rfl⟩
  · exact .inl h
  · exact .inr rfl

/-- The names reported as unresolved are those that are referred to and not registered. -/
theorem Document.unresolved_mem_faults_iff {doc : Document} {known : Registry}
    {q : QualifiedName} :
    q.unresolved ∈ doc.faults known ↔ q ∈ doc.referencedNames ∧ known.lookup q = none := by
  constructor
  · intro h
    rcases Document.arisesFrom_of_mem_faults h with h | ⟨p, hp, hnone, hpq⟩
    · cases h
    · obtain rfl := QualifiedName.unresolved_inj.mp hpq
      exact ⟨hp, hnone⟩
  · rintro ⟨hq, hnone⟩
    obtain ⟨t, ht, hq⟩ := List.mem_flatMap.mp hq
    exact List.mem_flatMap.mpr ⟨t, ht, List.mem_append.mpr
      (.inl (Field.unresolved_mem_faultsIn hq hnone))⟩

end FastSchema
