import FastSchema.Proofs.Instruction.References

/-! # The targets in the records

The targets that the records of a document show are those that the registry has for the names that
the document refers to, in the same order. -/

namespace FastSchema

/-! ## Targets -/

def LeafPayload.target? : LeafPayload → Option Target
  | .reference target => target
  | _ => none

def FlatBody.target? : FlatBody → Option Target
  | .borrowed target => some target
  | .slot _ => none

mutual

/-- The targets of the static references in a record, at any depth. -/
def FieldInstruction.targets : FieldInstruction → List Target
  | .leaf _ payload => payload.target?.toList
  | .owning _ _ _ fields => FieldInstruction.targetsIn fields
  | .flattened _ _ _ body => body.target?.toList

def FieldInstruction.targetsIn : List FieldInstruction → List Target
  | [] => []
  | field :: fields => FieldInstruction.targets field ++ FieldInstruction.targetsIn fields

end

def Metadata.targets (m : Metadata) : List Target :=
  m.templates.flatMap fun t => FieldInstruction.targetsIn t.fields

/-! ## The names behind them -/

/-- The registry has each of the targets under the name at the same position, and no name lacks
one. -/
def Registry.Links (known : Registry) (names : List QualifiedName) (targets : List Target) : Prop :=
  names.map known.target? = targets.map some

variable {known : Registry}

theorem Registry.Links.append {names names' : List QualifiedName} {targets targets' : List Target}
    (h : known.Links names targets) (h' : known.Links names' targets') :
    known.Links (names ++ names') (targets ++ targets') := by
  rw [Links, List.map_append, List.map_append, h, h']

/-- A linked target stands in the registry with its namespace, its name and its unit. -/
theorem Registry.Links.lookup_of_mem {names : List QualifiedName} {targets : List Target}
    (h : known.Links names targets) {target : Target} (ht : target ∈ targets) :
    ⟨target.ns, target.name⟩ ∈ names ∧
      known.lookup ⟨target.ns, target.name⟩ = some target.unit := by
  have hmem : some target ∈ names.map known.target? := h ▸ List.mem_map_of_mem ht
  obtain ⟨q, hq, htarget⟩ := List.mem_map.mp hmem
  obtain ⟨unit, hunit, rfl⟩ := Option.map_eq_some_iff.mp htarget
  exact ⟨hq, hunit⟩

theorem Registry.links_of_resolve {cx : Context} {r : Reference} {target : Option Target}
    (h : known.resolve cx r = .ok target) :
    known.Links (r.qualifiedName? cx).toList target.toList := by
  rcases resolve_eq_ok h with ⟨hname, rfl⟩ | ⟨q, t, hname, htarget, rfl⟩
  · rw [hname]
    rfl
  · rw [hname]
    simp [Links, htarget]

theorem CompositeKind.target?_flatBody (head : FieldHead) (kind : CompositeKind)
    (target : Option Target) : (kind.flatBody head target).target? = target := by
  cases target with
  | some target => rfl
  | none => cases kind <;> rfl

theorem Leaf.HasPayload.links {cx : Context} {head : FieldHead} {content : Leaf}
    {payload : LeafPayload} (h : content.HasPayload (known.resolve cx) head payload) :
    known.Links (content.referencedNames cx) payload.target?.toList := by
  cases h with
  | reference htarget => exact Registry.links_of_resolve htarget
  | _ => rfl

mutual

theorem Field.links_instruction {cx : Context} {index : Nat} {field : Field}
    {record : FieldInstruction} (h : field.instruction known cx index = .ok record) :
    known.Links (field.referencedNames cx) record.targets := by
  cases field with
  | leaf head content =>
      obtain ⟨recordHead, payload, _, hpayload, rfl⟩ := Field.leaf_instruction_eq_ok h
      rw [Field.referencedNames, FieldInstruction.targets]
      exact hpayload.links
  | composite head kind typeRef fields =>
      obtain ⟨recordHead, kindRecord, _, _, h⟩ := Field.composite_instruction_eq_ok h
      rw [Field.referencedNames]
      rcases h with ⟨r, target, hsole, htarget, rfl⟩ | ⟨children, hsole, hchildren, rfl⟩
      · rw [hsole, FieldInstruction.targets, CompositeKind.target?_flatBody]
        exact Registry.links_of_resolve htarget
      · rw [hsole, FieldInstruction.targets]
        exact Field.links_instructions hchildren

theorem Field.links_instructions {cx : Context} {index : Nat} {fields : List Field}
    {records : List FieldInstruction}
    (h : Field.instructions known cx index fields = .ok records) :
    known.Links (Field.referencedNamesIn cx fields) (FieldInstruction.targetsIn records) := by
  cases fields with
  | nil =>
      obtain rfl := Field.instructions_nil_eq_ok h
      rw [Field.referencedNamesIn, FieldInstruction.targetsIn]
      rfl
  | cons field fields =>
      obtain ⟨record, rest, hrecord, hrest, rfl⟩ := Field.instructions_cons_eq_ok h
      rw [Field.referencedNamesIn, FieldInstruction.targetsIn]
      exact (Field.links_instruction hrecord).append (Field.links_instructions hrest)

end

theorem Template.links_instructions {cx : Context} {index : Nat} {ts : List Template}
    {records : List TemplateInstruction}
    (h : Template.instructions known cx index ts = .ok records) :
    known.Links (ts.flatMap fun t => Field.referencedNamesIn (cx.inherit t.attrs) t.fields)
      (records.flatMap fun t => FieldInstruction.targetsIn t.fields) := by
  induction ts generalizing index records with
  | nil =>
      obtain rfl := Template.instructions_nil_eq_ok h
      rfl
  | cons t ts ih =>
      obtain ⟨record, rest, hrecord, hrest, rfl⟩ := Template.instructions_cons_eq_ok h
      obtain ⟨_, _, hfields⟩ := Template.instruction_eq_ok hrecord
      rw [List.flatMap_cons, List.flatMap_cons]
      exact (Field.links_instructions hfields).append (ih hrest)

/-- The report links every name that the document refers to, and shows no other target. -/
theorem Document.links_metadata {doc : Document} {unit digest : String} {m : Metadata}
    (h : doc.metadata unit digest known = .ok m) : known.Links doc.referencedNames m.targets :=
  Template.links_instructions (Document.metadata_eq_ok h).2

end FastSchema
