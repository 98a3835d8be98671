import FastSchema.Proofs.Compiler.Report
import FastSchema.Proofs.Json.Grammar
import FastSchema.Proofs.Metadata.Injective

/-! # What the text of a report shows

The text of a report is JSON and shows the whole report. What the text leaves out, the form in
which an integer is kept, is that of its type in every record that is read off a document. -/

namespace FastSchema

open Fallible (bind_eq_ok map_eq_ok)

/-! ## Records that were read off a document -/

theorem SequenceLength.admits_of_ofLength {head : FieldHead} {length : Option Length}
    {record : SequenceLength} (h : SequenceLength.ofLength head length = .ok record) :
    IntType.uint32.Admits record.initial := by
  cases length with
  | none =>
      cases h
      intro v hv
      cases hv
  | some l =>
      obtain ⟨initial, hinitial, h⟩ := bind_eq_ok h
      obtain ⟨id, _, h⟩ := bind_eq_ok h
      cases h
      exact IntType.admits_of_initialAs hinitial

theorem CompositeKind.admitted_record {kind : CompositeKind} {head : FieldHead}
    {record : CompositeRecord} (h : kind.record head = .ok record) : record.Admitted := by
  cases kind with
  | group =>
      cases h
      trivial
  | sequence length =>
      obtain ⟨lengthRecord, hlength, rfl⟩ := map_eq_ok h
      exact SequenceLength.admits_of_ofLength hlength

theorem Leaf.HasPayload.admitted {resolve : Reference → Except Fault (Option Target)}
    {head : FieldHead} {content : Leaf} {payload : LeafPayload}
    (h : content.HasPayload resolve head payload) : payload.Admitted := by
  cases h with
  | integer hinitial => exact IntType.admits_of_initialAs hinitial
  | _ => trivial

mutual

theorem Field.admitted_instruction {known : Registry} {cx : Context} {index : Nat}
    {field : Field} {record : FieldInstruction}
    (h : field.instruction known cx index = .ok record) : record.Admitted := by
  cases field with
  | leaf head content =>
      obtain ⟨recordHead, payload, _, hpayload, rfl⟩ := Field.leaf_instruction_eq_ok h
      exact hpayload.admitted
  | composite head kind typeRef fields =>
      obtain ⟨recordHead, kindRecord, _, hkind, h⟩ := Field.composite_instruction_eq_ok h
      have hadmitted : kindRecord.Admitted := CompositeKind.admitted_record hkind
      rcases h with ⟨r, target, _, _, rfl⟩ | ⟨children, _, hchildren, rfl⟩
      · exact hadmitted
      · exact ⟨hadmitted, Field.allAdmitted_instructions hchildren⟩

theorem Field.allAdmitted_instructions {known : Registry} {cx : Context} {index : Nat}
    {fields : List Field} {records : List FieldInstruction}
    (h : Field.instructions known cx index fields = .ok records) :
    FieldInstruction.AllAdmitted records := by
  cases fields with
  | nil =>
      obtain rfl := Field.instructions_nil_eq_ok h
      trivial
  | cons field fields =>
      obtain ⟨record, rest, hrecord, hrest, rfl⟩ := Field.instructions_cons_eq_ok h
      exact ⟨Field.admitted_instruction hrecord, Field.allAdmitted_instructions hrest⟩

end

theorem Template.allAdmitted_instructions {known : Registry} {cx : Context} {index : Nat}
    {ts : List Template} {records : List TemplateInstruction}
    (h : Template.instructions known cx index ts = .ok records) :
    ∀ record ∈ records, FieldInstruction.AllAdmitted record.fields := by
  induction ts generalizing index records with
  | nil =>
      obtain rfl := Template.instructions_nil_eq_ok h
      exact List.forall_mem_nil _
  | cons t ts ih =>
      obtain ⟨record, rest, hrecord, hrest, rfl⟩ := Template.instructions_cons_eq_ok h
      obtain ⟨_, _, hfields⟩ := Template.instruction_eq_ok hrecord
      exact List.forall_mem_cons.mpr ⟨Field.allAdmitted_instructions hfields, ih hrest⟩

theorem Document.admitted_metadata {doc : Document} {unit digest : String} {known : Registry}
    {m : Metadata} (h : doc.metadata unit digest known = .ok m) : m.Admitted :=
  Template.allAdmitted_instructions (Document.metadata_eq_ok h).2

/-! ## Reports -/

theorem Call.admitted_metadata {call : Call} {registry : Registry} {compiled : CompiledUnit}
    (h : (call.compile.outcome registry).1 = .ok compiled) : compiled.metadata.Admitted := by
  obtain ⟨doc, _, hm⟩ := Call.metadata_of_compile h
  exact Document.admitted_metadata hm

theorem Metadata.isText_text (m : Metadata) : Json.IsText m.text.toList := by
  have hbefore : Json.IsBlank [] := by simp [Json.IsBlank]
  have hafter : Json.IsBlank ['\n'] := by simp [Json.IsBlank]
  have hvalue : Json.IsValue m.toJson.pretty.toList := Json.isValue_pretty m.toJson
  have htext : m.text.toList = [] ++ m.toJson.pretty.toList ++ ['\n'] := by
    simp [Metadata.text]
  rw [htext]
  exact .mk hbefore hvalue hafter

/-- The text of a report shows the whole report, whatever the documents and registries, and is
well-formed. -/
theorem metadata_eq_of_text_eq {call₁ call₂ : Call} {registry₁ registry₂ : Registry}
    {compiled₁ compiled₂ : CompiledUnit}
    (h₁ : (call₁.compile.outcome registry₁).1 = .ok compiled₁)
    (h₂ : (call₂.compile.outcome registry₂).1 = .ok compiled₂) :
    (compiled₁.metadata.text = compiled₂.metadata.text →
        compiled₁.metadata = compiled₂.metadata) ∧
      Json.IsText compiled₁.metadata.text.toList ∧
      Json.IsText compiled₂.metadata.text.toList := by
  refine ⟨fun htext => ?_, compiled₁.metadata.isText_text, compiled₂.metadata.isText_text⟩
  have hadmitted₁ : compiled₁.metadata.Admitted := Call.admitted_metadata h₁
  have hadmitted₂ : compiled₂.metadata.Admitted := Call.admitted_metadata h₂
  exact Metadata.text_inj hadmitted₁ hadmitted₂ htext

/-- A template with one field of the given integer type, whose initial value is 1. -/
def amountDocument (type : IntType) : Document :=
  ⟨.empty, [⟨"Order", .empty, none,
    [.leaf ⟨"Amount", .empty⟩ (.integer type (some ⟨.copy, .ofList [("value", "1")]⟩))]⟩]⟩

def IntType.ofInt (t : IntType) (n : Int) : IntValue :=
  if t.signed then .signed (.ofInt n) else .unsigned (.ofNat n.toNat)

def amountReport (type : IntType) : Metadata :=
  ⟨"orders", "", "", "", "", [⟨0, 0, "Order", "", "", "", false, none,
    [.leaf ⟨0, .mandatory, 0, "Amount", "", ""⟩
      (.integer type ⟨.copy, none, some "1"⟩ (some (type.ofInt 1)))]⟩]⟩

/-- The same value of two types that differ only in their sign gives two texts. -/
theorem text_ne_of_amountDocument :
    ∃ compiled₁ compiled₂,
      ((Call.document "orders" (amountDocument .int32) "").compile.outcome .empty).1 =
        .ok compiled₁ ∧
      ((Call.document "orders" (amountDocument .uint32) "").compile.outcome .empty).1 =
        .ok compiled₂ ∧
      compiled₁.metadata.text ≠ compiled₂.metadata.text ∧
      Json.IsText compiled₁.metadata.text.toList := by
  have h₁ : ((Call.document "orders" (amountDocument .int32) "").compile.outcome .empty).1 =
      .ok (.ofMetadata (amountReport .int32)) := by
    rw [Call.compile, Compile.outcome_document_eq]
    rfl
  have h₂ : ((Call.document "orders" (amountDocument .uint32) "").compile.outcome .empty).1 =
      .ok (.ofMetadata (amountReport .uint32)) := by
    rw [Call.compile, Compile.outcome_document_eq]
    rfl
  obtain ⟨hinj, hwellFormed, -⟩ := metadata_eq_of_text_eq h₁ h₂
  refine ⟨_, _, h₁, h₂, fun htext => ?_, hwellFormed⟩
  have hreport : amountReport .int32 = amountReport .uint32 := hinj htext
  simp [amountReport, IntType.int32, IntType.uint32] at hreport

end FastSchema
