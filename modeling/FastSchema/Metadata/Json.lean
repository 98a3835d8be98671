import FastSchema.Instruction.Basic
import FastSchema.Json.Basic

/-!
# Instructions as JSON

Members come in a fixed order, and a member whose value is absent is left out.
-/

namespace FastSchema

/-- A member that is left out if there is no value. -/
def Json.optional {α : Type} (key : String) (toJson : α → Json) : Option α → List (String × Json)
  | some a => [(key, toJson a)]
  | none => []

def OperatorContext.toJson (c : OperatorContext) : Json :=
  Json.object [("key", Json.string c.key), ("ns", Json.string c.ns),
    ("dictionary", Json.string c.dictionary)]

def OperatorRecord.toJson (op : OperatorRecord) : Json :=
  Json.object ([("kind", Json.string op.kind.name)] ++
    Json.optional "context" OperatorContext.toJson op.context ++
    Json.optional "initial_value" Json.string op.initial)

def LengthRecord.toJson (l : LengthRecord) : Json :=
  Json.object [("id", Json.number l.id.toNat), ("name", Json.string l.name),
    ("ns", Json.string l.ns)]

def TypeRef.toJson (t : TypeRef) : Json :=
  Json.object [("name", Json.string t.name), ("ns", Json.string t.ns)]

def Target.toJson (t : Target) : Json :=
  Json.object [("name", Json.string t.name), ("ns", Json.string t.ns), ("unit", Json.string t.unit)]

def IntValue.toJson (v : IntValue) : Json := Json.number v.toInt

def Decimal.toJson (d : Decimal) : Json :=
  Json.object [("mantissa", Json.number d.mantissa.toInt),
    ("exponent", Json.number d.exponent.toInt)]

def integerMembers (type : IntType) (op : OperatorRecord) (initial : Option IntValue) :
    List (String × Json) :=
  [("kind", Json.string "integer"), ("signed", Json.bool type.signed),
   ("bits", Json.number type.width.bits), ("op", op.toJson)] ++
    Json.optional "initial" IntValue.toJson initial

def LeafPayload.toJson : LeafPayload → Json
  | .integer type op initial => Json.object (integerMembers type op initial)
  | .decimal op initial =>
    Json.object ([("kind", Json.string "decimal"), ("op", op.toJson)] ++
      Json.optional "initial" Decimal.toJson initial)
  | .splitDecimal mantissaOp mantissaInitial exponentOp exponentInitial =>
    Json.object ([("kind", Json.string "split_decimal"), ("mantissa_op", mantissaOp.toJson)] ++
      Json.optional "mantissa_initial" (fun m => Json.number m.toInt) mantissaInitial ++
      [("exponent_op", exponentOp.toJson)] ++
      Json.optional "exponent_initial" (fun e => Json.number e.toInt) exponentInitial)
  | .string charset op initial length =>
    Json.object ([("kind", Json.string "string"), ("charset", Json.string charset.name),
        ("op", op.toJson)] ++
      Json.optional "initial" Json.string initial ++
      Json.optional "length" LengthRecord.toJson length)
  | .byteVector op initial length =>
    Json.object ([("kind", Json.string "byte_vector"), ("op", op.toJson)] ++
      Json.optional "initial"
        (fun bytes => Json.array (bytes.map fun b => Json.number b.toNat)) initial ++
      Json.optional "length" LengthRecord.toJson length)
  | .reference target =>
    Json.object ([("kind", Json.string "template_ref")] ++
      Json.optional "target" Target.toJson target)

def RecordHead.toJson (head : RecordHead) (payload : Json) : Json :=
  Json.object [("field_index", Json.number head.index),
    ("presence", Json.string head.presence.name), ("id", Json.number head.id.toNat),
    ("name", Json.string head.name), ("ns", Json.string head.ns),
    ("dictionary", Json.string head.dictionary), ("payload", payload)]

def SequenceLength.toJson (l : SequenceLength) : Json :=
  l.head.toJson (Json.object (integerMembers .uint32 l.op l.initial))

def CompositeRecord.toJson (kind : CompositeRecord) (body : Json) (typeRef : Option TypeRef) :
    Json :=
  let lead :=
    match kind with
    | .group => [("kind", Json.string "group")]
    | .sequence length => [("kind", Json.string "sequence"), ("length", length.toJson)]
  Json.object (lead ++ [("subinstructions", body)] ++
    Json.optional "type_ref" TypeRef.toJson typeRef)

def FlatBody.toJson : FlatBody → Json
  | .borrowed target => Json.object [("kind", Json.string "borrowed"), ("target", target.toJson)]
  | .slot presence =>
    Json.object [("kind", Json.string "dynamic_slot"), ("presence", Json.string presence.name)]

mutual

def FieldInstruction.toJson : FieldInstruction → Json
  | .leaf head payload => head.toJson payload.toJson
  | .owning head kind typeRef fields =>
    head.toJson (kind.toJson
      (Json.object [("kind", Json.string "owned"),
        ("fields", Json.array (FieldInstruction.listToJson fields))]) typeRef)
  | .flattened head kind typeRef body => head.toJson (kind.toJson body.toJson typeRef)

def FieldInstruction.listToJson : List FieldInstruction → List Json
  | [] => []
  | field :: fields => FieldInstruction.toJson field :: FieldInstruction.listToJson fields

end

def TemplateInstruction.toJson (t : TemplateInstruction) : Json :=
  Json.object ([("index", Json.number t.index), ("id", Json.number t.id.toNat),
    ("name", Json.string t.name), ("ns", Json.string t.ns),
    ("template_ns", Json.string t.templateNs), ("dictionary", Json.string t.dictionary),
    ("reset", Json.bool t.reset)] ++
    Json.optional "type_ref" TypeRef.toJson t.typeRef ++
    [("fields", Json.array (FieldInstruction.listToJson t.fields))])

end FastSchema
