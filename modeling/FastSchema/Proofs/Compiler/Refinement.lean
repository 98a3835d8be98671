import FastSchema.Compiler
import FastSchema.Proofs.Accessors.Agreement
import FastSchema.Proofs.Instruction.References
import FastSchema.Proofs.Tables.Knowledge

/-! # Compiling a document as one recursion

The unit is written from the report, the report is read off the document against the registry that
has all its templates, and that registry is left behind whatever happens. -/

namespace FastSchema

def CompiledUnit.ofMetadata (m : Metadata) : CompiledUnit where
  unit := m.unit
  accessors := Accessors.textOf (Accessors.fileDefinitions m)
  tables := Tables.textOf (Tables.fileStatements m)
  metadata := m

namespace Compile

/-- A compilation answers what its table walk does. The accessor walk has no say in it. -/
theorem outcome_document_of_walk {unit : String} {doc : Document} (digest : String)
    {registry : Registry} {result : Except Fault Unit} {tables : Tables.State}
    (h : ((Tables.visitor unit).walk doc).outcome (.start (registry.registerDocument unit doc)) =
      (result, tables)) :
    (document unit doc digest).outcome registry =
      (result.map fun _ =>
        { unit, tables := tables.text,
          accessors := Accessors.textOf (Accessors.documentDefinitions unit
            (registry.registerDocument unit doc) doc),
          metadata :=
            { unit, ns := doc.attrs.getD "ns", templateNs := doc.attrs.getD "templateNs",
              dictionary := doc.attrs.getD "dictionary", digest,
              templates := tables.templates.toList } }, tables.registry) := by
  simp only [document, Fallible.outcome_bind, Fallible.outcome_modify, Fallible.outcome_get,
    Accessors.compile_eq, Fallible.outcome_lift, h, Fallible.outcome_set]
  cases result <;> rfl

/-- A document is compiled into the unit of its report, and fails for what keeps it from having one.
In both cases it leaves the registry that has its templates. -/
theorem outcome_document_eq (unit : String) (doc : Document) (digest : String)
    (registry : Registry) :
    (document unit doc digest).outcome registry =
      ((doc.metadata unit digest (registry.registerDocument unit doc)).map
        CompiledUnit.ofMetadata, registry.registerDocument unit doc) := by
  have hknown : ∀ q ∈ doc.qualifiedNames,
      ((registry.registerDocument unit doc).lookup q).isSome := fun q =>
    registry.isSome_lookup_registerDocument unit
  cases hm : doc.metadata unit digest (registry.registerDocument unit doc) with
  | error fault =>
      -- Of a walk that stops only the fault and the registry are used.
      obtain ⟨tables, hwalk, hkept⟩ := Tables.outcome_walk_of_error unit hknown hm
      rw [outcome_document_of_walk digest hwalk, hkept]
      rfl
  | ok m =>
      have hwalk := Tables.result_walk unit doc digest _ hknown
      rw [hm, Fallible.ok_bind] at hwalk
      rw [outcome_document_of_walk digest (Fallible.outcome_of_result hwalk),
        Accessors.documentDefinitions_eq unit hm]
      obtain ⟨templates, _, hm⟩ := Fallible.bind_eq_ok hm
      cases hm
      simp [CompiledUnit.ofMetadata, Except.map, Tables.State.text, Tables.textOf]

/-- What a compilation of the document against the registry has to answer: the report that the
recursion reads off the document, or the first fault that the recursion meets. -/
structure DocumentSpec (unit : String) (doc : Document) (digest : String) (registry : Registry)
    (outcome : Except Fault CompiledUnit × Registry) : Prop where
  recursion : outcome =
    ((doc.metadata unit digest (registry.registerDocument unit doc)).map
      CompiledUnit.ofMetadata, registry.registerDocument unit doc)
  numbered : ∀ compiled, outcome.1 = .ok compiled →
    compiled.metadata.templates.map TemplateInstruction.name = doc.templates.map Template.name ∧
      compiled.metadata.Numbered
  fault_iff : ∀ fault, outcome.1 = .error fault ↔
    (doc.faults (registry.registerDocument unit doc)).head? = some fault
  not_internal : ∀ misuse, outcome.1 ≠ .error (.internal misuse)

/-- Compiling a document by its two walks is reading its report off by recursion. -/
theorem document_spec (unit : String) (doc : Document) (digest : String) (registry : Registry) :
    DocumentSpec unit doc digest registry ((document unit doc digest).outcome registry) := by
  have hfault (fault : Fault) : ((document unit doc digest).outcome registry).1 = .error fault ↔
      (doc.faults (registry.registerDocument unit doc)).head? = some fault := by
    rw [outcome_document_eq]
    exact stopsAt_error_iff ((doc.stopsAt_metadata unit digest _).map _) fault
  refine ⟨outcome_document_eq unit doc digest registry, fun compiled h => ?_, hfault,
    fun misuse h => ?_⟩
  · rw [outcome_document_eq] at h
    obtain ⟨m, hm, rfl⟩ := Fallible.map_eq_ok h
    exact ⟨Document.names_metadata hm, Document.numbered_metadata hm⟩
  · have hmem := List.mem_of_head? ((hfault _).mp h)
    rcases Document.phase_of_mem_faults hmem with h | h <;> cases h

end Compile

end FastSchema
