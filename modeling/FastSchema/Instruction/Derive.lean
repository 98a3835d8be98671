import FastSchema.Instruction.Basic
import FastSchema.Registry

/-!
# Deriving instructions

The parts of an instruction that follow from the schema and the registry. Where several literals of
a field are faulty the first one read is reported: initial values first (of a split decimal the
mantissa before the exponent), then the id of a length, and the id of the field last.
-/

namespace FastSchema

/-! ## Resolving references

A named reference leads to the template of that name in the namespace that the reference sets, or
else in the one it inherits. The template has to be registered. -/

def Reference.qualifiedName? (r : Reference) (cx : Context) : Option QualifiedName :=
  r.name.map fun name => ⟨r.ns.getD cx.ns, name⟩

namespace Registry

def target? (registry : Registry) (q : QualifiedName) : Option Target :=
  (registry.lookup q).map fun unit => ⟨q.name, q.ns, unit⟩

/-- The target of a reference in a context; a dynamic reference has none. -/
def resolve (registry : Registry) (cx : Context) (r : Reference) : Except Fault (Option Target) :=
  match r.qualifiedName? cx with
  | none => .ok none
  | some q =>
    match registry.target? q with
    | some target => .ok (some target)
    | none => .error (.unresolvedReference q.name q.ns)

end Registry

/-! ## Records -/

namespace OperatorRecord

def none : OperatorRecord := ⟨.none, Option.none, Option.none⟩

/-- The record of an operator, if there is one. -/
def ofOperator : Option Operator → OperatorRecord
  | Option.none => none
  | some op =>
    let key := op.attrs.getD "key"
    let dictionary := op.attrs.getD "dictionary"
    { kind := op.kind
      context := if key ≠ "" ∨ dictionary ≠ "" then some ⟨key, op.attrs.getD "ns", dictionary⟩
        else Option.none
      initial := (op.attrs.get? "value").filter (· ≠ "") }

/-- The initial value, if there is one, as read by `read`. -/
def initialAs {α : Type} (op : OperatorRecord) (read : String → Except Fault α) :
    Except Fault (Option α) :=
  match op.initial with
  | some literal => (read literal).map some
  | Option.none => .ok Option.none

end OperatorRecord

def FieldHead.record (head : FieldHead) (index : Nat) : Except Fault RecordHead :=
  (parseId head.name head.attrs).map fun id =>
    { index, presence := head.presence, id, name := head.name,
      ns := head.attrs.getD "ns", dictionary := head.attrs.getD "dictionary" }

def Length.record (l : Length) : Except Fault LengthRecord :=
  let name := l.attrs.getD "name"
  (parseId name l.attrs).map fun id => ⟨id, name, l.attrs.getD "ns"⟩

/-- The record of a length that need not be declared. -/
def LengthRecord.ofLength : Option Length → Except Fault LengthRecord
  | some l => l.record
  | none => .ok ⟨0, "", ""⟩

def parseMantissa (field literal : String) : Except Fault Int64 :=
  (parseInteger field .int64 literal).map IntValue.toInt64

def parseExponent (field literal : String) : Except Fault Int32 :=
  (parseInteger field .int32 literal).map IntValue.toInt32

/-- The payload of a leaf; `resolve` finds the target of a reference. -/
def Leaf.payload (resolve : Reference → Except Fault (Option Target)) (head : FieldHead) :
    Leaf → Except Fault LeafPayload
  | .integer type operator => do
    let op := OperatorRecord.ofOperator operator
    return .integer type op (← op.initialAs (parseInteger head.name type))
  | .string operator length => do
    let op := OperatorRecord.ofOperator operator
    match head.charset with
    | .unicode => return .string .unicode op op.initial (some (← LengthRecord.ofLength length))
    | .ascii => return .string .ascii op op.initial none
  | .decimal (.whole operator) => do
    let op := OperatorRecord.ofOperator operator
    return .decimal op (← op.initialAs Decimal.parse)
  | .decimal (.split mantissa exponent) => do
    let mantissaOp := OperatorRecord.ofOperator mantissa
    let exponentOp := OperatorRecord.ofOperator exponent
    let mantissaInitial ← mantissaOp.initialAs (parseMantissa head.name)
    let exponentInitial ← exponentOp.initialAs (parseExponent head.name)
    return .splitDecimal mantissaOp mantissaInitial exponentOp exponentInitial
  | .byteVector operator length => do
    let op := OperatorRecord.ofOperator operator
    let initial ← op.initialAs ByteVector.parse
    match length with
    | some l => return .byteVector op initial (some (← l.record))
    | none => return .byteVector op initial none
  | .reference r => return .reference (← resolve r)

/-- The record of the length of a sequence, which need not be declared. It is as present as the
sequence itself. -/
def SequenceLength.ofLength (head : FieldHead) : Option Length → Except Fault SequenceLength
  | none => .ok ⟨⟨0, head.presence, 0, "", "", ""⟩, OperatorRecord.none, none⟩
  | some l => do
    let op := OperatorRecord.ofOperator l.operator
    let name := l.attrs.getD "name"
    let initial ← op.initialAs (parseInteger name .uint32)
    let id ← parseId name l.attrs
    return ⟨⟨0, head.presence, id, name, l.attrs.getD "ns", ""⟩, op, initial⟩

def CompositeKind.record (head : FieldHead) : CompositeKind → Except Fault CompositeRecord
  | .group => .ok .group
  | .sequence length => (SequenceLength.ofLength head length).map .sequence

/-- The presence of the slot that a flattened composite has for a dynamic reference. -/
def CompositeKind.slotPresence (head : FieldHead) : CompositeKind → Presence
  | .group => head.presence
  | .sequence _ => .mandatory

/-- The template resets the dictionaries before each message. -/
def Template.resets (t : Template) : Bool :=
  t.attrs.get? "reset" = some "true" || t.attrs.get? "reset" = some "yes"

/-- The record of the template at position `index`, given those of its fields. -/
def Template.record (t : Template) (index : Nat) (fields : List FieldInstruction) :
    Except Fault TemplateInstruction :=
  (parseId t.name t.attrs).map fun id =>
    { index, id, name := t.name, ns := t.attrs.getD "ns", templateNs := t.attrs.getD "templateNs",
      dictionary := t.attrs.getD "dictionary", reset := t.resets, typeRef := t.typeRef, fields }

end FastSchema
