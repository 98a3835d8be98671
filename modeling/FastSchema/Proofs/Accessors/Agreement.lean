import FastSchema.Proofs.Accessors.Refinement
import FastSchema.Proofs.Instruction.Recursion
import FastSchema.Proofs.Registry

/-! # The accessor file as a function of the metadata report

The accessors are collected from the document and the registry. Where the document has records
against the same registry, that gives the definitions of the records. -/

namespace FastSchema

/-- A recorded operator is constant exactly if the declared one is. -/
theorem OperatorRecord.isConstant_ofOperator (operator : Option Operator) :
    decide (some (OperatorRecord.ofOperator operator).kind = some .constant) =
      operator.any fun op => decide (op.kind = .constant) := by
  cases operator with
  | none => rfl
  | some op => simp [OperatorRecord.ofOperator]

namespace Accessors

open Cpp (ScopeStack View)

variable (unit : String) {known : Registry}

/-! ## Scopes -/

def openScope (views : List String) : ScopeStack := ⟨views.reverse⟩

theorem qualifier_openScope (views : List String) :
    (openScope views).qualifier = (·.scope views) := by
  funext view
  have hsegment : ScopeStack.segment view = fun name => name ++ view.suffix ++ "::" := by
    funext name
    rw [ScopeStack.segment_eq, String.append_assoc]
  rw [ScopeStack.qualifier, openScope, List.reverse_reverse, View.scope, hsegment]

theorem push_openScope (views : List String) (name : String) :
    (openScope views).push name = openScope (views ++ [name]) := by
  rw [ScopeStack.push, openScope, openScope, List.reverse_append]
  rfl

/-! ## Accessors of one record -/

theorem runtimeType_eq {stem type : String} (h : Cpp.runtime stem = type) (view : View) :
    runtimeType stem view = type ++ view.suffix := by
  subst h
  simp only [runtimeType, Cpp.runtime, View.suffix_eq, String.append_assoc]

theorem nestedType_openScope (views : List String) (name : String) (view : View) :
    nestedType (openScope views) name view = view.scope views ++ name ++ view.suffix := by
  simp only [nestedType, qualifier_openScope, View.suffix_eq, String.append_assoc]

/-- Two accessors of a field are those of the record at a site if they agree with it in name, type
and writability. -/
theorem accessorPair_eq (site : Site) {name : String} {type : View → String} {writable : Bool}
    (hname : name = site.record.accessorName) (htype : ∀ view, type view = site.type unit view)
    (hwritable : writable = !site.record.isFixed) :
    accessorPair (openScope site.views) name type site.access writable =
      (site.accessors unit).map Definition.accessor := by
  subst hname hwritable
  obtain rfl : type = fun view => site.type unit view := funext htype
  unfold accessorPair Site.accessors Site.accessor
  simp only [qualifier_openScope]
  cases site.record.isFixed <;> rfl

theorem valueDefinitions_eq (views : List String) {head : FieldHead} {index : Nat} {content : Leaf}
    {payload : LeafPayload} {recordHead : RecordHead} (stem : String)
    (hhead : head.record index = .ok recordHead)
    (hvalue : ∀ target, payload ≠ .reference target)
    (hstem : Cpp.runtime stem = payload.typeStem unit)
    (hoperator : decide (payload.operatorKind? = some .constant) =
      content.operator?.any fun op => decide (op.kind = .constant)) :
    accessorPair (openScope views) head.name (runtimeType stem) (.cast index)
        (!content.isFixed head) =
      (Site.accessors unit ⟨views, .leaf recordHead payload⟩).map Definition.accessor := by
  obtain ⟨rfl, hpresence, hname⟩ := FieldHead.record_eq_ok hhead
  have haccess : (Site.mk views (.leaf recordHead payload)).access = .cast recordHead.index := by
    cases payload with
    | reference target => exact absurd rfl (hvalue target)
    | _ => rfl
  rw [← haccess]
  refine accessorPair_eq unit ⟨views, .leaf recordHead payload⟩ ?_ (fun view => ?_) ?_
  · cases payload with
    | reference target => exact absurd rfl (hvalue target)
    | _ => exact hname.symm
  · exact runtimeType_eq hstem view
  · simp only [FieldInstruction.isFixed, Leaf.isFixed, hpresence, hoperator]

/-- The accessors of a reference are named for its target, and those of a dynamic one for its
position. -/
theorem referenceDefinitions_eq (views : List String) {head : FieldHead} {cx : Context}
    {index : Nat} {r : Reference} {target : Option Target} {recordHead : RecordHead}
    (htarget : known.resolve cx r = .ok target) (hhead : head.record index = .ok recordHead) :
    leafDefinitions unit known (openScope views) head cx index (.reference r) =
      (Site.accessors unit ⟨views, .leaf recordHead (.reference target)⟩).map
        Definition.accessor := by
  obtain ⟨rfl, _, _⟩ := FieldHead.record_eq_ok hhead
  have hwritable : true = !(FieldInstruction.leaf recordHead (.reference target)).isFixed := by
    simp [FieldInstruction.isFixed, LeafPayload.operatorKind?]
  rcases Registry.resolve_eq_ok htarget with ⟨hname, rfl⟩ | ⟨q, t, hname, hq, rfl⟩
  · simp only [leafDefinitions, hname]
    exact accessorPair_eq unit ⟨views, .leaf recordHead (.reference none)⟩ rfl
      (runtimeType_eq rfl) hwritable
  · simp only [leafDefinitions, hname, hq]
    refine accessorPair_eq unit ⟨views, .leaf recordHead (.reference (some t))⟩
      (Registry.target?_eq_some hq).symm (fun view => ?_) hwritable
    have htype : Site.type unit view ⟨views, .leaf recordHead (.reference (some t))⟩ =
        t.typeName unit ++ view.suffix := rfl
    rw [htype, View.suffix_eq, ← String.append_assoc]
    rfl

theorem leafDefinitions_eq (views : List String) {head : FieldHead} {cx : Context} {index : Nat}
    {content : Leaf} {payload : LeafPayload} {recordHead : RecordHead}
    (hpayload : content.HasPayload (known.resolve cx) head payload)
    (hhead : head.record index = .ok recordHead) :
    leafDefinitions unit known (openScope views) head cx index content =
      (Site.accessors unit ⟨views, .leaf recordHead payload⟩).map Definition.accessor := by
  cases hpayload with
  | @integer type operator initial hinitial =>
      exact valueDefinitions_eq unit views type.name hhead nofun rfl
        (OperatorRecord.isConstant_ofOperator operator)
  | @unicode operator length record hcharset hlength =>
      -- Both sides read the charset off the attributes.
      simp only [leafDefinitions, hcharset]
      exact valueDefinitions_eq unit views _ hhead nofun rfl
        (OperatorRecord.isConstant_ofOperator operator)
  | @ascii operator length hcharset =>
      simp only [leafDefinitions, hcharset]
      exact valueDefinitions_eq unit views _ hhead nofun rfl
        (OperatorRecord.isConstant_ofOperator operator)
  | @decimal operator initial hinitial =>
      exact valueDefinitions_eq unit views _ hhead nofun rfl
        (OperatorRecord.isConstant_ofOperator operator)
  | splitDecimal hmantissa hexponent =>
      exact valueDefinitions_eq unit views _ hhead nofun rfl rfl
  | @byteVector operator length initial record hinitial hlength =>
      exact valueDefinitions_eq unit views _ hhead nofun rfl
        (OperatorRecord.isConstant_ofOperator operator)
  | reference htarget =>
      -- The accessors would do with the bare name, but a record has found its target.
      exact referenceDefinitions_eq unit views htarget hhead

/-! ## Fields -/

/-- A composite has its fields one level down exactly if it is a group whose record is a slot. -/
theorem compositeAccess_eq (views : List String) {head : FieldHead} {kind : CompositeKind}
    {typeRef : Option TypeRef} {fields : List Field} {r : Reference} {cx : Context}
    {target : Option Target} {record : CompositeRecord} (recordHead : RecordHead)
    (hbody : soleReference? fields = some r) (htarget : known.resolve cx r = .ok target)
    (hkind : kind.record head = .ok record) :
    compositeAccess ⟨head, kind, typeRef, fields⟩ recordHead.index =
      (Site.mk views
        (.flattened recordHead record typeRef (kind.flatBody head target))).access := by
  have hdynamic := Registry.target_eq_none_iff htarget
  obtain ⟨name, ns⟩ := r
  rcases CompositeKind.record_eq_ok hkind with ⟨rfl, rfl⟩ | ⟨length, lengthRecord, rfl, rfl⟩
  · cases target with
    | none =>
        obtain rfl : name = none := hdynamic.mp rfl
        simp [compositeAccess, Composite.soleReference?, hbody, Site.access,
          CompositeKind.flatBody]
    | some t =>
        cases name with
        | none => simp at hdynamic
        | some name =>
            simp [compositeAccess, Composite.soleReference?, hbody, Site.access,
              CompositeKind.flatBody, FieldInstruction.head]
  · rfl

mutual

/-- The definitions of a field are those of its record. -/
theorem fieldDefinitions_eq (views : List String) {cx : Context} {index : Nat} {field : Field}
    {record : FieldInstruction} (h : field.instruction known cx index = .ok record) :
    fieldDefinitions unit known (openScope views) cx index field =
      recordDefinitions unit views record := by
  cases field with
  | leaf head content =>
      obtain ⟨recordHead, payload, hhead, hpayload, rfl⟩ := Field.leaf_instruction_eq_ok h
      exact leafDefinitions_eq unit views hpayload hhead
  | composite head kind typeRef fields =>
      obtain ⟨recordHead, kindRecord, hhead, hkind, hrecord⟩ :=
        Field.composite_instruction_eq_ok h
      obtain ⟨rfl, _, hname⟩ := FieldHead.record_eq_ok hhead
      rw [fieldDefinitions]
      rcases hrecord with ⟨r, target, hsole, htarget, rfl⟩ | ⟨children, hsole, hchildren, rfl⟩
      · rw [hsole, Option.isSome_some, if_pos rfl, List.append_nil,
          compositeAccess_eq views recordHead hsole htarget hkind]
        exact accessorPair_eq unit ⟨views, .flattened recordHead kindRecord typeRef
          (kind.flatBody head target)⟩ hname.symm
          (fun view => by rw [nestedType_openScope, ← hname]; rfl) rfl
      · have haccess : compositeAccess ⟨head, kind, typeRef, fields⟩ recordHead.index =
            .cast recordHead.index := by
          cases kind <;> simp [compositeAccess, Composite.soleReference?, hsole]
        have hinside : innerDefinitions (openScope views) ⟨head, kind, typeRef, fields⟩ =
              constructorsIn views recordHead.name kindRecord ∧
            innerName ⟨head, kind, typeRef, fields⟩ = kindRecord.innerName recordHead.name := by
          unfold innerDefinitions
          rw [qualifier_openScope, hname]
          rcases CompositeKind.record_eq_ok hkind with ⟨rfl, rfl⟩ | ⟨_, _, rfl, rfl⟩ <;>
            exact ⟨rfl, rfl⟩
        rw [hsole, Option.isSome_none, if_neg Bool.false_ne_true, recordDefinitions, haccess,
          hinside.1, hinside.2, push_openScope, fieldsDefinitions_eq _ hchildren]
        congr 1
        exact accessorPair_eq unit ⟨views, .owning recordHead kindRecord typeRef children⟩
          hname.symm (fun view => by rw [nestedType_openScope, ← hname]; rfl) rfl

theorem fieldsDefinitions_eq (views : List String) {cx : Context} {index : Nat}
    {fields : List Field} {records : List FieldInstruction}
    (h : Field.instructions known cx index fields = .ok records) :
    fieldsDefinitions unit known (openScope views) cx index fields =
      recordsDefinitions unit views records := by
  cases fields with
  | nil =>
      obtain rfl := Field.instructions_nil_eq_ok h
      rfl
  | cons field fields =>
      obtain ⟨record, records, hrecord, hrecords, rfl⟩ := Field.instructions_cons_eq_ok h
      rw [fieldsDefinitions, recordsDefinitions, fieldDefinitions_eq views hrecord,
        fieldsDefinitions_eq views hrecords]

end

/-! ## Documents -/

theorem flatMap_documentTemplate {cx : Context} {index : Nat} {ts : List Template}
    {records : List TemplateInstruction}
    (h : Template.instructions known cx index ts = .ok records) :
    ts.flatMap (documentTemplate unit known cx) =
      records.flatMap fun t => templateDefinitions t.name ++
        recordsDefinitions unit [t.name] t.fields := by
  induction ts generalizing index records with
  | nil =>
      obtain rfl := Template.instructions_nil_eq_ok h
      rfl
  | cons t ts ih =>
      obtain ⟨record, rest, hrecord, hrest, rfl⟩ := Template.instructions_cons_eq_ok h
      obtain ⟨_, hname, hfields⟩ := Template.instruction_eq_ok hrecord
      have hscope : ScopeStack.empty.push t.name = openScope [t.name] := rfl
      rw [List.flatMap_cons, List.flatMap_cons, ih hrest, documentTemplate, hname, hscope,
        fieldsDefinitions_eq _ _ hfields]

/-- Where a document has a report, its accessor file is that of the report. -/
theorem documentDefinitions_eq {doc : Document} {digest : String} {m : Metadata}
    (h : doc.metadata unit digest known = .ok m) :
    documentDefinitions unit known doc = fileDefinitions m := by
  obtain ⟨rfl, htemplates⟩ := Document.metadata_eq_ok h
  rw [documentDefinitions, fileDefinitions, flatMap_documentTemplate _ htemplates]

end Accessors

end FastSchema
