import FastSchema.Proofs.Accessors.Parts
import FastSchema.Proofs.Compiler.History

/-! # What the report says about the generated files

Both files of a compiled unit are functions of its report, so nothing of a document reaches them
that the report does not show. -/

namespace FastSchema

namespace Compile

/-- A template with a constant, a group for any message and a sequence that refers back to it. The
attributes are those of the constant. -/
def orderDocument (attrs : Attributes) : Document :=
  ⟨.empty, [⟨"Order", .empty, none,
    [.leaf ⟨"Side", attrs⟩ (.integer .uint32 (some ⟨.constant, .ofList [("value", "1")]⟩)),
     .composite ⟨"Body", .empty⟩ .group none [.leaf ⟨"", .empty⟩ (.reference ⟨none, none⟩)],
     .composite ⟨"Legs", .empty⟩ (.sequence none) none
       [.leaf ⟨"Price", .empty⟩ (.decimal (.whole none)),
        .leaf ⟨"", .empty⟩ (.reference ⟨some "Order", none⟩)]]⟩]⟩

def orderReport (digest : String) : Metadata :=
  ⟨"orders", "", "", "", digest, [⟨0, 0, "Order", "", "", "", false, none,
    [.leaf ⟨0, .mandatory, 0, "Side", "", ""⟩
       (.integer .uint32 ⟨.constant, none, some "1"⟩ (some (.unsigned 1))),
     .flattened ⟨1, .mandatory, 0, "Body", "", ""⟩ .group none (.slot .mandatory),
     .owning ⟨2, .mandatory, 0, "Legs", "", ""⟩
       (.sequence ⟨⟨0, .mandatory, 0, "", "", ""⟩, .none, none⟩) none
       [.leaf ⟨0, .mandatory, 0, "Price", "", ""⟩ (.decimal .none none),
        .leaf ⟨1, .mandatory, 0, "", "", ""⟩ (.reference (some ⟨"Order", "", "orders"⟩))]]⟩]⟩

theorem outcome_orderDocument :
    ((document "orders" (orderDocument .empty) "").outcome .empty).1 =
      .ok (.ofMetadata (orderReport "")) := by
  rw [outcome_document_eq]
  rfl

end Compile

/-! ## Table files -/

section

variable {call : Call} {registry : Registry} {compiled : CompiledUnit}

/-- A call that succeeds has loaded a document and answers the unit of its report. -/
theorem Call.exists_of_compile (h : (call.compile.outcome registry).1 = .ok compiled) :
    ∃ doc m, call.load = .ok doc ∧
      doc.metadata call.unit call.digest (registry.registerDocument call.unit doc) = .ok m ∧
      compiled = .ofMetadata m := by
  cases hload : call.load with
  | error fault =>
      rw [outcome_compile_of_error hload] at h
      cases h
  | ok doc =>
      rw [outcome_compile_of_ok hload, Compile.outcome_document_eq] at h
      obtain ⟨m, hm, rfl⟩ := Fallible.map_eq_ok h
      exact ⟨doc, m, rfl, hm, rfl⟩

theorem Call.metadata_of_compile (h : (call.compile.outcome registry).1 = .ok compiled) :
    ∃ doc, call.load = .ok doc ∧ doc.metadata call.unit call.digest
      (registry.registerDocument call.unit doc) = .ok compiled.metadata := by
  obtain ⟨doc, m, hload, hm, rfl⟩ := exists_of_compile h
  exact ⟨doc, hload, hm⟩

theorem Call.compile_eq_ok (h : (call.compile.outcome registry).1 = .ok compiled) :
    compiled = .ofMetadata compiled.metadata := by
  obtain ⟨doc, m, _, _, rfl⟩ := exists_of_compile h
  rfl

theorem Call.unit_of_compile (h : (call.compile.outcome registry).1 = .ok compiled) :
    compiled.unit = call.unit := by
  obtain ⟨doc, m, _, hm, rfl⟩ := exists_of_compile h
  exact (Document.metadata_eq_ok hm).1

end

def Metadata.withDigest (m : Metadata) (digest : String) : Metadata := { m with digest }

/-- The table file does not show the digest. -/
@[simp] theorem Tables.fileStatements_withDigest (m : Metadata) (digest : String) :
    fileStatements (m.withDigest digest) = fileStatements m := rfl

/-- Two compilations with the same report, apart from the digest, write the same table file,
whatever their documents and registries. -/
theorem tables_eq_of_metadata_eq {call₁ call₂ : Call} {registry₁ registry₂ : Registry}
    {compiled₁ compiled₂ : CompiledUnit}
    (h₁ : (call₁.compile.outcome registry₁).1 = .ok compiled₁)
    (h₂ : (call₂.compile.outcome registry₂).1 = .ok compiled₂)
    (hmetadata : compiled₁.metadata.withDigest compiled₂.metadata.digest = compiled₂.metadata) :
    compiled₁.tables = compiled₂.tables := by
  rw [Call.compile_eq_ok h₁, Call.compile_eq_ok h₂]
  change Tables.textOf (Tables.fileStatements compiled₁.metadata) =
    Tables.textOf (Tables.fileStatements compiled₂.metadata)
  rw [← hmetadata, Tables.fileStatements_withDigest]

/-- An attribute that says what holds anyway, the digest and earlier documents do not matter. -/
theorem tables_eq_of_orderDocument :
    ∃ compiled₁ compiled₂,
      ((Call.document "orders" (Compile.orderDocument .empty) "").compile.outcome .empty).1 =
        .ok compiled₁ ∧
      ((Call.document "orders" (Compile.orderDocument (.ofList [("presence", "mandatory")]))
        "00").compile.outcome ⟨[(⟨"", "Quote"⟩, "quotes")]⟩).1 = .ok compiled₂ ∧
      compiled₁.metadata.digest ≠ compiled₂.metadata.digest ∧
      compiled₁.tables = compiled₂.tables := by
  have h₁ : ((Call.document "orders" (Compile.orderDocument .empty) "").compile.outcome
      .empty).1 = .ok (.ofMetadata (Compile.orderReport "")) := by
    rw [Call.compile, Compile.outcome_document_eq]
    rfl
  have h₂ : ((Call.document "orders" (Compile.orderDocument (.ofList [("presence", "mandatory")]))
      "00").compile.outcome ⟨[(⟨"", "Quote"⟩, "quotes")]⟩).1 =
        .ok (.ofMetadata (Compile.orderReport "00")) := by
    rw [Call.compile, Compile.outcome_document_eq]
    rfl
  refine ⟨_, _, h₁, h₂, ?_, tables_eq_of_metadata_eq h₁ h₂ rfl⟩
  simp [CompiledUnit.ofMetadata, Compile.orderReport]

end FastSchema
