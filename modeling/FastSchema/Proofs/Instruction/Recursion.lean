import FastSchema.Instruction.Derive
import FastSchema.Metadata.Basic
import FastSchema.Proofs.Fallible

/-! # Records by recursion over the document

The records of a document, said without any stack: a field is read off its own node, the position
among its siblings and the naming context around it. A composite that reduces to a reference takes
the target of the reference in place of fields. -/

namespace FastSchema

open Fallible (bind_eq_ok map_eq_ok)

/-- What a flattened composite has in place of fields, given the target of its reference. A group
passes its presence on to the slot; the slot of a sequence is mandatory. -/
def CompositeKind.flatBody (head : FieldHead) (kind : CompositeKind) : Option Target → FlatBody
  | some target => .borrowed target
  | none =>
    match kind with
    | .group => .slot head.presence
    | .sequence _ => .slot .mandatory

mutual

/-- The record of a field at position `index` in a node with context `cx`. -/
def Field.instruction (known : Registry) (cx : Context) (index : Nat) :
    Field → Except Fault FieldInstruction
  | .leaf head content => do
    let payload ← content.payload (known.resolve (cx.inherit head.attrs)) head
    return .leaf (← head.record index) payload
  | .composite head kind typeRef fields => do
    let inner := cx.inherit head.attrs
    let record ← kind.record head
    match soleReference? fields with
    | some r =>
      let target ← known.resolve inner r
      return .flattened (← head.record index) record typeRef (kind.flatBody head target)
    | none =>
      let children ← Field.instructions known inner 0 fields
      return .owning (← head.record index) record typeRef children

def Field.instructions (known : Registry) (cx : Context) (index : Nat) :
    List Field → Except Fault (List FieldInstruction)
  | [] => return []
  | field :: fields => do
    let record ← Field.instruction known cx index field
    let records ← Field.instructions known cx (index + 1) fields
    return record :: records

end

/-- The record of a template at position `index` in a document with context `cx`. -/
def Template.instruction (known : Registry) (cx : Context) (index : Nat) (t : Template) :
    Except Fault TemplateInstruction := do
  let fields ← Field.instructions known (cx.inherit t.attrs) 0 t.fields
  t.record index fields

def Template.instructions (known : Registry) (cx : Context) (index : Nat) :
    List Template → Except Fault (List TemplateInstruction)
  | [] => return []
  | t :: ts => do
    let record ← t.instruction known cx index
    let records ← Template.instructions known cx (index + 1) ts
    return record :: records

/-- The records of the templates of a document. -/
def Document.instructions (doc : Document) (known : Registry) :
    Except Fault (List TemplateInstruction) :=
  Template.instructions known doc.context 0 doc.templates

/-- The report of a document, read off the document alone. -/
def Document.metadata (doc : Document) (unit digest : String) (known : Registry) :
    Except Fault Metadata := do
  let templates ← doc.instructions known
  return { unit, ns := doc.attrs.getD "ns", templateNs := doc.attrs.getD "templateNs",
           dictionary := doc.attrs.getD "dictionary", digest, templates }

/-! ## What a record is made from -/

theorem FieldHead.record_eq_ok {head : FieldHead} {index : Nat} {record : RecordHead}
    (h : head.record index = .ok record) :
    record.index = index ∧ record.presence = head.presence ∧ record.name = head.name := by
  obtain ⟨id, _, rfl⟩ := map_eq_ok h
  exact ⟨rfl, rfl, rfl⟩

theorem CompositeKind.record_eq_ok {kind : CompositeKind} {head : FieldHead}
    {record : CompositeRecord} (h : kind.record head = .ok record) :
    (kind = .group ∧ record = .group) ∨
      ∃ length lengthRecord, kind = .sequence length ∧ record = .sequence lengthRecord := by
  cases kind with
  | group =>
      cases h
      exact .inl ⟨rfl, rfl⟩
  | sequence length =>
      obtain ⟨lengthRecord, _, rfl⟩ := map_eq_ok h
      exact .inr ⟨length, lengthRecord, rfl, rfl⟩

theorem Template.record_eq_ok {t : Template} {index : Nat} {fields : List FieldInstruction}
    {record : TemplateInstruction} (h : t.record index fields = .ok record) :
    record.index = index ∧ record.name = t.name ∧ record.fields = fields := by
  obtain ⟨id, _, rfl⟩ := map_eq_ok h
  exact ⟨rfl, rfl, rfl⟩

/-- The payload of a leaf, given what its literals are read as and what its reference leads to. -/
inductive Leaf.HasPayload (resolve : Reference → Except Fault (Option Target)) (head : FieldHead) :
    Leaf → LeafPayload → Prop where
  | integer {type : IntType} {operator : Option Operator} {initial : Option IntValue}
    (hinitial : (OperatorRecord.ofOperator operator).initialAs (parseInteger head.name type) =
      .ok initial) :
    HasPayload resolve head (.integer type operator) (.integer type (.ofOperator operator) initial)
  | unicode {operator : Option Operator} {length : Option Length} {record : LengthRecord}
    (hcharset : head.charset = .unicode) (hlength : LengthRecord.ofLength length = .ok record) :
    HasPayload resolve head (.string operator length) (.string .unicode (.ofOperator operator)
      (OperatorRecord.ofOperator operator).initial (some record))
  | ascii {operator : Option Operator} {length : Option Length} (hcharset : head.charset = .ascii) :
    HasPayload resolve head (.string operator length) (.string .ascii (.ofOperator operator)
      (OperatorRecord.ofOperator operator).initial none)
  | decimal {operator : Option Operator} {initial : Option Decimal}
    (hinitial : (OperatorRecord.ofOperator operator).initialAs Decimal.parse = .ok initial) :
    HasPayload resolve head (.decimal (.whole operator)) (.decimal (.ofOperator operator) initial)
  | splitDecimal {mantissa exponent : Option Operator} {m : Option Int64} {e : Option Int32}
    (hmantissa : (OperatorRecord.ofOperator mantissa).initialAs (parseMantissa head.name) = .ok m)
    (hexponent : (OperatorRecord.ofOperator exponent).initialAs (parseExponent head.name) =
      .ok e) :
    HasPayload resolve head (.decimal (.split mantissa exponent))
      (.splitDecimal (.ofOperator mantissa) m (.ofOperator exponent) e)
  | byteVector {operator : Option Operator} {length : Option Length}
    {initial : Option (List UInt8)} {record : Option LengthRecord}
    (hinitial : (OperatorRecord.ofOperator operator).initialAs ByteVector.parse = .ok initial)
    (hlength : length.mapM Length.record = .ok record) :
    HasPayload resolve head (.byteVector operator length)
      (.byteVector (.ofOperator operator) initial record)
  | reference {r : Reference} {target : Option Target} (htarget : resolve r = .ok target) :
    HasPayload resolve head (.reference r) (.reference target)

theorem Leaf.hasPayload {resolve : Reference → Except Fault (Option Target)} {head : FieldHead}
    {content : Leaf} {payload : LeafPayload} (h : content.payload resolve head = .ok payload) :
    content.HasPayload resolve head payload := by
  cases content with
  | integer type operator =>
      obtain ⟨initial, hinitial, h⟩ := bind_eq_ok h
      cases h
      exact .integer hinitial
  | string operator length =>
      rw [Leaf.payload] at h
      split at h
      case h_1 hcharset =>
        obtain ⟨record, hlength, h⟩ := bind_eq_ok h
        cases h
        exact .unicode hcharset hlength
      case h_2 hcharset =>
        cases h
        exact .ascii hcharset
  | decimal shape =>
      cases shape with
      | whole operator =>
          obtain ⟨initial, hinitial, h⟩ := bind_eq_ok h
          cases h
          exact .decimal hinitial
      | split mantissa exponent =>
          obtain ⟨m, hmantissa, h⟩ := bind_eq_ok h
          obtain ⟨e, hexponent, h⟩ := bind_eq_ok h
          cases h
          exact .splitDecimal hmantissa hexponent
  | byteVector operator length =>
      obtain ⟨initial, hinitial, h⟩ := bind_eq_ok h
      cases length with
      | some l =>
          obtain ⟨record, hrecord, h⟩ := bind_eq_ok h
          cases h
          refine .byteVector hinitial ?_
          rw [Option.mapM_some, hrecord]
          rfl
      | none =>
          cases h
          exact .byteVector hinitial rfl
  | reference r =>
      obtain ⟨target, htarget, h⟩ := bind_eq_ok h
      cases h
      exact .reference htarget

section

variable {known : Registry} {cx : Context} {index : Nat}

theorem Field.leaf_instruction_eq_ok {head : FieldHead} {content : Leaf}
    {record : FieldInstruction}
    (h : (Field.leaf head content).instruction known cx index = .ok record) :
    ∃ recordHead payload, head.record index = .ok recordHead ∧
      content.HasPayload (known.resolve (cx.inherit head.attrs)) head payload ∧
      record = .leaf recordHead payload := by
  rw [Field.instruction] at h
  obtain ⟨payload, hpayload, h⟩ := bind_eq_ok h
  obtain ⟨recordHead, hhead, h⟩ := bind_eq_ok h
  cases h
  exact ⟨recordHead, payload, hhead, Leaf.hasPayload hpayload, rfl⟩

/-- The record of a composite is flattened or has the records of its fields. -/
theorem Field.composite_instruction_eq_ok {head : FieldHead} {kind : CompositeKind}
    {typeRef : Option TypeRef} {fields : List Field} {record : FieldInstruction}
    (h : (Field.composite head kind typeRef fields).instruction known cx index = .ok record) :
    ∃ recordHead kindRecord, head.record index = .ok recordHead ∧
      kind.record head = .ok kindRecord ∧
      ((∃ r target, soleReference? fields = some r ∧
          known.resolve (cx.inherit head.attrs) r = .ok target ∧
          record = .flattened recordHead kindRecord typeRef (kind.flatBody head target)) ∨
        ∃ records, soleReference? fields = none ∧
          Field.instructions known (cx.inherit head.attrs) 0 fields = .ok records ∧
          record = .owning recordHead kindRecord typeRef records) := by
  rw [Field.instruction] at h
  obtain ⟨kindRecord, hkind, h⟩ := bind_eq_ok h
  split at h
  · next r hsole =>
      obtain ⟨target, htarget, h⟩ := bind_eq_ok h
      obtain ⟨recordHead, hhead, h⟩ := bind_eq_ok h
      cases h
      exact ⟨recordHead, kindRecord, hhead, hkind, .inl ⟨r, target, hsole, htarget, rfl⟩⟩
  · next hsole =>
      obtain ⟨records, hrecords, h⟩ := bind_eq_ok h
      obtain ⟨recordHead, hhead, h⟩ := bind_eq_ok h
      cases h
      exact ⟨recordHead, kindRecord, hhead, hkind, .inr ⟨records, hsole, hrecords, rfl⟩⟩

theorem Field.instructions_nil_eq_ok {records : List FieldInstruction}
    (h : Field.instructions known cx index [] = .ok records) : records = [] := by
  rw [Field.instructions] at h
  cases h
  rfl

theorem Field.instructions_cons_eq_ok {field : Field} {fields : List Field}
    {records : List FieldInstruction}
    (h : Field.instructions known cx index (field :: fields) = .ok records) :
    ∃ record rest, field.instruction known cx index = .ok record ∧
      Field.instructions known cx (index + 1) fields = .ok rest ∧ records = record :: rest := by
  rw [Field.instructions] at h
  obtain ⟨record, hrecord, h⟩ := bind_eq_ok h
  obtain ⟨rest, hrest, h⟩ := bind_eq_ok h
  cases h
  exact ⟨record, rest, hrecord, hrest, rfl⟩

theorem Template.instruction_eq_ok {t : Template} {record : TemplateInstruction}
    (h : t.instruction known cx index = .ok record) :
    record.index = index ∧ record.name = t.name ∧
      Field.instructions known (cx.inherit t.attrs) 0 t.fields = .ok record.fields := by
  obtain ⟨fields, hfields, hrecord⟩ := bind_eq_ok h
  obtain ⟨hindex, hname, rfl⟩ := Template.record_eq_ok hrecord
  exact ⟨hindex, hname, hfields⟩

theorem Template.instructions_nil_eq_ok {records : List TemplateInstruction}
    (h : Template.instructions known cx index [] = .ok records) : records = [] := by
  cases h
  rfl

theorem Template.instructions_cons_eq_ok {t : Template} {ts : List Template}
    {records : List TemplateInstruction}
    (h : Template.instructions known cx index (t :: ts) = .ok records) :
    ∃ record rest, t.instruction known cx index = .ok record ∧
      Template.instructions known cx (index + 1) ts = .ok rest ∧ records = record :: rest := by
  obtain ⟨record, hrecord, h⟩ := bind_eq_ok h
  obtain ⟨rest, hrest, h⟩ := bind_eq_ok h
  cases h
  exact ⟨record, rest, hrecord, hrest, rfl⟩

end

/-! ## Positions -/

mutual

/-- The record stands at the given position, and every record inside it at its own. -/
def FieldInstruction.NumberedAt (index : Nat) : FieldInstruction → Prop
  | .leaf head _ => head.index = index
  | .owning head _ _ fields => head.index = index ∧ FieldInstruction.NumberedFrom 0 fields
  | .flattened head _ _ _ => head.index = index

/-- The records stand at consecutive positions from the given one on. -/
def FieldInstruction.NumberedFrom (index : Nat) : List FieldInstruction → Prop
  | [] => True
  | record :: records =>
    FieldInstruction.NumberedAt index record ∧ FieldInstruction.NumberedFrom (index + 1) records

end

/-- Every template and every field record of the report stands at its own position. -/
def Metadata.Numbered (m : Metadata) : Prop :=
  ∀ (i : Nat) (t : TemplateInstruction), m.templates[i]? = some t →
    t.index = i ∧ FieldInstruction.NumberedFrom 0 t.fields

theorem Field.length_instructions {known : Registry} {cx : Context} {index : Nat}
    {fields : List Field} {records : List FieldInstruction}
    (h : Field.instructions known cx index fields = .ok records) :
    records.length = fields.length := by
  induction fields generalizing index records with
  | nil =>
      obtain rfl := Field.instructions_nil_eq_ok h
      rfl
  | cons field fields ih =>
      obtain ⟨record, rest, _, hrest, rfl⟩ := Field.instructions_cons_eq_ok h
      simp [ih hrest]

mutual

theorem Field.numberedAt_instruction {known : Registry} {cx : Context} {index : Nat}
    {field : Field} {record : FieldInstruction}
    (h : field.instruction known cx index = .ok record) : record.NumberedAt index := by
  cases field with
  | leaf head content =>
      obtain ⟨recordHead, payload, hhead, _, rfl⟩ := Field.leaf_instruction_eq_ok h
      exact (FieldHead.record_eq_ok hhead).1
  | composite head kind typeRef fields =>
      obtain ⟨recordHead, kindRecord, hhead, _, h⟩ := Field.composite_instruction_eq_ok h
      have hindex : recordHead.index = index := (FieldHead.record_eq_ok hhead).1
      rcases h with ⟨r, target, _, _, rfl⟩ | ⟨children, _, hchildren, rfl⟩
      · exact hindex
      · exact ⟨hindex, Field.numberedFrom_instructions hchildren⟩

theorem Field.numberedFrom_instructions {known : Registry} {cx : Context} {index : Nat}
    {fields : List Field} {records : List FieldInstruction}
    (h : Field.instructions known cx index fields = .ok records) :
    FieldInstruction.NumberedFrom index records := by
  cases fields with
  | nil =>
      obtain rfl := Field.instructions_nil_eq_ok h
      trivial
  | cons field fields =>
      obtain ⟨record, rest, hrecord, hrest, rfl⟩ := Field.instructions_cons_eq_ok h
      exact ⟨Field.numberedAt_instruction hrecord, Field.numberedFrom_instructions hrest⟩

end

theorem Template.numbered_instructions {known : Registry} {cx : Context} {index : Nat}
    {ts : List Template} {records : List TemplateInstruction}
    (h : Template.instructions known cx index ts = .ok records) (i : Nat)
    (t : TemplateInstruction) (ht : records[i]? = some t) :
    t.index = index + i ∧ FieldInstruction.NumberedFrom 0 t.fields := by
  induction ts generalizing index records i with
  | nil =>
      obtain rfl := Template.instructions_nil_eq_ok h
      simp at ht
  | cons template ts ih =>
      obtain ⟨record, rest, hrecord, hrest, rfl⟩ := Template.instructions_cons_eq_ok h
      cases i with
      | zero =>
          obtain rfl : record = t := by simpa using ht
          obtain ⟨hindex, _, hfields⟩ := Template.instruction_eq_ok hrecord
          exact ⟨hindex, Field.numberedFrom_instructions hfields⟩
      | succ i =>
          obtain ⟨hindex, hfields⟩ := ih hrest i (by simpa using ht)
          exact ⟨by omega, hfields⟩

/-- The record at a position is that of the template there. -/
theorem Template.instruction_of_getElem? {known : Registry} {cx : Context} {index : Nat}
    {ts : List Template} {records : List TemplateInstruction}
    (h : Template.instructions known cx index ts = .ok records) {i : Nat} {t : Template}
    (ht : ts[i]? = some t) :
    ∃ record, records[i]? = some record ∧ t.instruction known cx (index + i) = .ok record := by
  induction ts generalizing index records i with
  | nil => simp at ht
  | cons first ts ih =>
      obtain ⟨record, rest, hrecord, hrest, rfl⟩ := Template.instructions_cons_eq_ok h
      cases i with
      | zero =>
          obtain rfl : first = t := by simpa using ht
          exact ⟨record, rfl, hrecord⟩
      | succ i =>
          obtain ⟨later, hlater, hinstruction⟩ := ih hrest (by simpa using ht)
          exact ⟨later, hlater, by rwa [Nat.add_right_comm, Nat.add_assoc] at hinstruction⟩

theorem Document.metadata_eq_ok {doc : Document} {unit digest : String} {known : Registry}
    {m : Metadata} (h : doc.metadata unit digest known = .ok m) :
    m.unit = unit ∧ doc.instructions known = .ok m.templates := by
  obtain ⟨templates, htemplates, h⟩ := bind_eq_ok h
  cases h
  exact ⟨rfl, htemplates⟩

theorem Template.names_instructions {known : Registry} {cx : Context} {index : Nat}
    {ts : List Template} {records : List TemplateInstruction}
    (h : Template.instructions known cx index ts = .ok records) :
    records.map TemplateInstruction.name = ts.map Template.name := by
  induction ts generalizing index records with
  | nil =>
      obtain rfl := Template.instructions_nil_eq_ok h
      rfl
  | cons t ts ih =>
      obtain ⟨record, rest, hrecord, hrest, rfl⟩ := Template.instructions_cons_eq_ok h
      rw [List.map_cons, List.map_cons, ih hrest, (Template.instruction_eq_ok hrecord).2.1]

theorem Document.names_metadata {doc : Document} {unit digest : String} {known : Registry}
    {m : Metadata} (h : doc.metadata unit digest known = .ok m) :
    m.templates.map TemplateInstruction.name = doc.templates.map Template.name :=
  Template.names_instructions (Document.metadata_eq_ok h).2

theorem Document.numbered_metadata {doc : Document} {unit digest : String} {known : Registry}
    {m : Metadata} (h : doc.metadata unit digest known = .ok m) : m.Numbered := by
  intro i t ht
  simpa using Template.numbered_instructions (Document.metadata_eq_ok h).2 i t ht

end FastSchema
